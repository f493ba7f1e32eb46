import TtsServer.RequestParser
import TtsServer.StreamHandler

/-!
# The bidirectional stream

A `SynthesizeClient` call sends every chunk it reads, the finish mark included, as a
request of its own, and all of them carry the identifier of the call. The heartbeat makes
a job of each, the local engine answers each, and each answer becomes a final response.
The writer of the call is erased with the first of them. This file follows the requests
of one call through the stages of the server, in any run with any other traffic: no stage
loses, repeats or reorders them, and of the responses the client receives the first.
-/

namespace TtsServer

open Lib Heartbeat History

/-- The loop of `SynthesizeClient` over the chunks it reads: the requests it sends. -/
def clientRequests (rid : String) : Bool → List Proto.TextChunk → List TtsRequestMsg
  | _, [] => []
  | first, chunk :: chunks =>
    match parseChunk chunk rid {} first with
    | .error _ => []
    | .ok r => r :: clientRequests rid false chunks

/-- The audio of a text, with the voice and the speed of a call that sets none. -/
def audioOf (engine : LocalTtsEngine) (text : String) : Bytes :=
  let r := engine.synthesize text ({} : VoiceSettings).voiceId .one
  if r.statusCode = 0 then sampleBytes r.samples else []

/-- Every chunk is sent; its answer carries the audio of its text, and is final. -/
theorem clientRequests_spec (engine : LocalTtsEngine) (rid : String) (first : Bool)
    (chunks : List Proto.TextChunk) :
    (clientRequests rid first chunks).map (fun r => (MainLoop.writeFor engine r).audio) =
        chunks.map (fun chunk => audioOf engine chunk.spoken) ∧
      ∀ r ∈ clientRequests rid first chunks, r.requestId = rid ∧ r.backend = .auto := by
  induction chunks generalizing first with
  | nil => exact ⟨rfl, fun r hr => absurd hr List.not_mem_nil⟩
  | cons chunk chunks ih =>
    obtain ⟨r, hparse, hrid, htext, hvoice, -, hbackend⟩ := parseChunk_default chunk rid first
    have hone : clientRequests rid first (chunk :: chunks) =
        r :: clientRequests rid false chunks := by
      rw [clientRequests, hparse]
    have haudio : (MainLoop.writeFor engine r).audio = audioOf engine chunk.spoken := by
      rw [MainLoop.writeFor, (jobWrite_answers engine r).audio, engineResult, htext, hvoice]
      rfl
    obtain ⟨hrest, hids⟩ := ih false
    rw [hone]
    refine ⟨by rw [List.map_cons, List.map_cons, haudio, hrest], fun r' hr' => ?_⟩
    rcases List.mem_cons.mp hr' with rfl | hr'
    · exact ⟨hrid, hbackend⟩
    · exact hids r' hr'

/-- Nothing is left of a list for an identifier that none of its items has. -/
private theorem filter_id_eq_nil {A : Type*} {id : A → String} {rid : String} {l : List A}
    (hne : ∀ a ∈ l, id a ≠ rid) : l.filter (fun a => id a = rid) = [] :=
  List.filter_eq_nil_iff.mpr fun a ha heq => hne a ha (of_decide_eq_true heq)

/-! ### One identifier in the heartbeat -/

section Unbound

variable {env : Env} {hb : Heartbeat} {rid : String}

/-- No session works for the identifier, and no chunk has completed it. -/
structure Heartbeat.Unbound (rid : String) (hb : Heartbeat) : Prop where
  poolWf : hb.PoolWf
  session : ∀ {sid s}, hb.board.sessionPool.get sid = some s → s.currentRequestId ≠ rid
  pending : ∀ {p}, hb.board.pending.get rid = some p → p.finalReceived = false

/-- The requests with the identifier are for the local engine. -/
def LocalFor (env : Env) (rid : String) (m : Message) : Prop :=
  ∀ req, m = .request req → req.requestId = rid → shouldUseLocal env req = true

/-- A step that takes away keeps the identifier unbound. -/
theorem Heartbeat.Unbound.recedes {hb' : Heartbeat} (h : hb.Unbound rid) (hstep : Recedes hb hb') :
    hb'.Unbound rid where
  poolWf := hstep.poolWf h.poolWf
  session := fun hs' => by
    obtain ⟨s, hs, hcurrent⟩ := hstep.session hs'
    rw [hcurrent]
    exact h.session hs
  pending := fun hp' => by
    obtain ⟨p, hp, -, -, hfinal | ⟨sid, s, hs, hcurrent⟩⟩ := hstep.pending hp'
    · rw [hfinal]
      exact h.pending hp
    · exact absurd hcurrent (h.session hs)

/-- A request keeps the identifier unbound, and makes a job of it if it is admitted. -/
theorem Heartbeat.Unbound.request (h : hb.Unbound rid) {req : TtsRequestMsg}
    (hlocal : req.requestId = rid → shouldUseLocal env req = true) :
    (handleRequest env req hb).Unbound rid ∧
      (handleRequest env req hb).changeset.localJobs.filter (fun job => job.requestId = rid) =
        hb.changeset.localJobs.filter (fun job => job.requestId = rid) ++
          ((admissions env hb [.request req]).filter fun r => r.requestId = rid).map localJob := by
  have hwf : (handleRequest env req hb).PoolWf :=
    handleMessage_poolWf h.poolWf (.request req)
  rcases @handleRequest_effect env hb req h.poolWf.wellKeyed h.poolWf.named with
    ⟨hdecision, heffect⟩ | ⟨hdecision, heffect⟩ | ⟨handle, s, hdecision, heffect⟩
  · have hnone : admissions env hb [.request req] = [] := by
      rcases hdecision with hdecision | hdecision <;> simp [admissions, hdecision]
    refine ⟨⟨hwf, fun hs => h.session (heffect.sessionPool ▸ hs),
      fun hp => h.pending (heffect.pending ▸ hp)⟩, ?_⟩
    simp [heffect.changeset, hnone]
  · have hone : admissions env hb [.request req] = [req] := by simp [admissions, hdecision]
    refine ⟨⟨hwf, fun hs => h.session (heffect.sessionPool ▸ hs),
      heffect.finalReceived h.pending⟩, ?_⟩
    have hid : (localJob req).requestId = req.requestId := rfl
    by_cases hrid : req.requestId = rid
    · simp [heffect.changeset, hone, hid, hrid]
    · simp [heffect.changeset, hone, hid, hrid]
  · -- a request for a session has another identifier
    have hne : req.requestId ≠ rid := by
      intro hrid
      have huse := heffect.useLocal
      rw [hlocal hrid] at huse
      cases huse
    have hone : admissions env hb [.request req] = [req] := by simp [admissions, hdecision]
    refine ⟨⟨hwf, fun {sid s'} hs => ?_, fun hp => h.pending (heffect.others hne.symm ▸ hp)⟩, ?_⟩
    · rw [heffect.session] at hs
      split at hs
      · obtain rfl := Option.some.inj hs
        exact hne
      · exact h.session hs
    · simp [heffect.changeset, hone, hne]

/-- Every message keeps the identifier unbound, writes what it answers, and makes a job of an
admitted request. -/
theorem Heartbeat.Unbound.message (h : hb.Unbound rid) {m : Message} (hlocal : LocalFor env rid m) :
    (handleMessage env hb m).Unbound rid ∧
      (handleMessage env hb m).changeset.clientWrites =
        hb.changeset.clientWrites ++ (answerWrite m).toList ∧
      (handleMessage env hb m).changeset.localJobs.filter (fun job => job.requestId = rid) =
        hb.changeset.localJobs.filter (fun job => job.requestId = rid) ++
          ((admissions env hb [m]).filter fun r => r.requestId = rid).map localJob := by
  have hwrites := @handleMessage_clientWrites env hb m
  cases hm : m.requestId? with
  | some id =>
    obtain ⟨req, rfl, -⟩ := Message.requestId?_eq_some.mp hm
    obtain ⟨hunbound, hjobs⟩ := h.request (hlocal req rfl)
    exact ⟨hunbound, hwrites, hjobs⟩
  | none =>
    have hrecedes := (@step_message_recedes env { hb := hb } h.poolWf m hm).1
    refine ⟨h.recedes hrecedes, hwrites, ?_⟩
    cases m with
    | request req => cases hm
    | response rsp =>
      have hquiet : Quiet hb (handleResponse env rsp hb) := handleResponse_quiet
      simp [handleMessage, hquiet.changeset, admissions]
    | cancel msg => simp [handleMessage, handleCancel, admissions]
    | localComplete c => simp [handleMessage, handleLocalComplete, admissions]
    | localFailed f => simp [handleMessage, handleLocalFailed, admissions]

/-- A batch keeps the identifier unbound. -/
theorem Heartbeat.Unbound.batch (h : hb.Unbound rid) {ms : List Message}
    (hlocal : ∀ m ∈ ms, LocalFor env rid m) :
    (ms.foldl (handleMessage env) hb).Unbound rid ∧
      (ms.foldl (handleMessage env) hb).changeset.clientWrites =
        hb.changeset.clientWrites ++ ms.filterMap answerWrite ∧
      (ms.foldl (handleMessage env) hb).changeset.localJobs.filter
          (fun job => job.requestId = rid) =
        hb.changeset.localJobs.filter (fun job => job.requestId = rid) ++
          ((admissions env hb ms).filter fun r => r.requestId = rid).map localJob := by
  induction ms generalizing hb with
  | nil => exact ⟨h, by simp, by simp [admissions]⟩
  | cons m ms ih =>
    obtain ⟨hfirst, hwrites, hjobs⟩ := h.message (hlocal m List.mem_cons_self)
    obtain ⟨hrest, hwrites', hjobs'⟩ :=
      ih hfirst fun m' hm' => hlocal m' (List.mem_cons_of_mem m hm')
    have hadmissions : admissions env hb (m :: ms) =
        admissions env hb [m] ++ admissions env (handleMessage env hb m) ms :=
      admissions_append [m] ms
    refine ⟨hrest, ?_, ?_⟩
    · rw [List.foldl_cons, hwrites', hwrites, List.append_assoc]
      cases hm : answerWrite m <;> simp [hm]
    · rw [List.foldl_cons, hjobs', hjobs, hadmissions, List.filter_append, List.map_append,
        List.append_assoc]

/-- A tick answers what is answered in its batch, and makes jobs of what it admits. -/
theorem Heartbeat.Unbound.tick (h : hb.Unbound rid) (hcollector : hb.changeset = {})
    {inp : TickInput} (hlocal : ∀ m ∈ inp.batch, LocalFor env rid m) :
    (Heartbeat.tick env inp hb).2.Unbound rid ∧
      (Heartbeat.tick env inp hb).1.clientWrites.filter (fun w => w.requestId = rid) =
        (inp.batch.filterMap answerWrite).filter (fun w => w.requestId = rid) ∧
      (Heartbeat.tick env inp hb).1.localJobs.filter (fun job => job.requestId = rid) =
        ((admissions env hb.beginTick inp.batch).filter fun r => r.requestId = rid).map
          localJob := by
  have hbegin : hb.beginTick.Unbound rid := h.recedes (beginTick_recedes h.poolWf.wellKeyed)
  have hempty : hb.beginTick.changeset = {} := hcollector
  obtain ⟨hmid, hwrites, hjobs⟩ := hbegin.batch hlocal
  have htick : Heartbeat.tick env inp hb =
      finishTick inp (inp.batch.foldl (handleMessage env) hb.beginTick) := rfl
  rw [hempty] at hwrites hjobs
  rw [htick]
  generalize inp.batch.foldl (handleMessage env) hb.beginTick = hb' at hmid hwrites hjobs ⊢
  refine ⟨hmid.recedes (finishTick_recedes hmid.poolWf.wellKeyed inp), ?_, ?_⟩
  · have hnone : ((emissions hb').map fun e => completedWrite e.1 e.2).filter
        (fun w => w.requestId = rid) = [] := by
      refine filter_id_eq_nil fun w hw hid => ?_
      obtain ⟨⟨id, p⟩, hmem, rfl⟩ := List.mem_map.mp hw
      obtain rfl : id = rid := hid
      obtain ⟨hp, hready⟩ := mem_emissions.mp hmem
      simp [PendingRequest.readyToEmit, hmid.pending hp] at hready
    rw [finishTick_clientWrites, List.filter_append, hnone, hwrites, List.append_nil,
      List.nil_append]
  · rw [finishTick_localJobs, hjobs, List.filter_nil, List.nil_append]

end Unbound

/-! ### One identifier in the server -/

namespace Server

variable {env : Env} {engine : LocalTtsEngine} {rid : String} {σ : Server}
  {sent : List TtsRequestMsg}

/-- The requests that a move sends for a client call. -/
def sends (rid : String) (σ : Server) : ServerEvent → List TtsRequestMsg
  | .clientChunk id req =>
    if id = rid then
      (σ.clients.lookup rid).toList.map fun _ => { req with requestId := rid }
    else []
  | _ => []

/-- The requests that a run sends for a client call. -/
def sentFor (env : Env) (rid : String) (σ : Server) (events : List ServerEvent) :
    List TtsRequestMsg :=
  (events.foldl (logged (step env) (sends rid)) (σ, [])).2

/-- The responses that have been passed to the writer of a client call. -/
def writtenTo (σ : Server) (rid : String) : List WriteToClient :=
  ((σ.clients.lookup rid).map ClientCall.written).getD []

/-- The responses that have been dispatched for a call. -/
def dispatchedFor (σ : Server) (rid : String) : List WriteToClient :=
  σ.dispatched.filter fun w => w.requestId = rid

/-- The move does not handle a request of the call without admitting it. -/
def AdmitsAll (env : Env) (rid : String) (σ : Server) : ServerEvent → Prop
  | .advance _ _ _ => σ.inHand = none → σ.clientWrites = [] → σ.localJobs = [] →
      (admissions env σ.hb.beginTick (σ.requestChannel ++ σ.wsEventChannel)).filter
          (fun r => r.requestId = rid) =
        (σ.requestChannel.filterMap Message.request?).filter fun r => r.requestId = rid
  | _ => True

instance (env : Env) (rid : String) (σ : Server) : ∀ ev, Decidable (AdmitsAll env rid σ ev)
  | .advance _ _ _ => inferInstanceAs (Decidable (_ → _ → _ → _))
  | .openStream _ => .isTrue trivial
  | .send _ => .isTrue trivial
  | .registerQueue _ => .isTrue trivial
  | .registerWriter _ => .isTrue trivial
  | .drain _ _ => .isTrue trivial
  | .abandon _ => .isTrue trivial
  | .openClient => .isTrue trivial
  | .clientChunk _ _ => .isTrue trivial
  | .upstreamEvent _ => .isTrue trivial

/-- Nothing of the call is left in a channel or with the heartbeat thread. -/
structure Settled (rid : String) (σ : Server) : Prop where
  channel : ∀ m ∈ σ.requestChannel, m.requestId? ≠ some rid ∧ m.answerId? ≠ some rid
  localJobs : ∀ job ∈ σ.localJobs, job.requestId ≠ rid
  clientWrites : ∀ w ∈ σ.clientWrites, w.requestId ≠ rid
  inHand : ∀ x ∈ σ.inHand, x.1.requestId ≠ rid

/-- The call has been served as a stream of texts: its writer has been passed the audio of
the texts in order, the last response and no other is final, and no audio besides has been
synthesised under its identifier. -/
structure Delivered (engine : LocalTtsEngine) (rid : String) (texts : List String)
    (σ : Server) : Prop where
  audio : (σ.writtenTo rid).map WriteToClient.audio = texts.map (audioOf engine)
  notFinal : ∀ w ∈ (σ.writtenTo rid).dropLast, w.isFinal = false
  lastFinal : ∀ w ∈ (σ.writtenTo rid).getLast?, w.isFinal = true
  silent : (σ.dispatchedFor rid).flatMap WriteToClient.audio = texts.flatMap (audioOf engine)

/-- The responses that have been dispatched or are still to come, stage by stage: dispatched,
in hand, to be looked up, answered, to be synthesised, requested. -/
def stages (engine : LocalTtsEngine) (σ : Server) : List WriteToClient :=
  σ.dispatched ++ (σ.inHand.map Prod.fst).toList ++ σ.clientWrites ++
    σ.requestChannel.filterMap answerWrite ++ σ.localJobs.map (jobWrite engine) ++
      (σ.requestChannel.filterMap Message.request?).map (MainLoop.writeFor engine)

/-- What holds of the requests of one client call throughout a run. -/
structure Flow (env : Env) (engine : LocalTtsEngine) (k : Nat) (σ : Server)
    (sent : List TtsRequestMsg) : Prop where
  collector : σ.hb.changeset = {}
  unbound : σ.hb.Unbound (generateRequestId "cli" k)
  named : ∀ {id call}, σ.streams.lookup id = some call →
    call.request.requestId = id ∧ ∃ n, id = generateRequestId "strm" n
  events : ∀ m ∈ σ.wsEventChannel, ∃ rsp, m = .response rsp
  channel : ∀ m ∈ σ.requestChannel, LocalFor env (generateRequestId "cli" k) m
  opened : ∀ {call}, σ.clients.lookup (generateRequestId "cli" k) = some call → k < σ.ctr
  unopened : σ.clients.lookup (generateRequestId "cli" k) = none → sent = []
  /-- No stage loses, repeats or reorders the responses. -/
  stages : (σ.stages engine).filter (fun w => w.requestId = generateRequestId "cli" k) =
    sent.map (MainLoop.writeFor engine)
  /-- The writer takes the first response and is gone. -/
  client : ∀ {call}, σ.clients.lookup (generateRequestId "cli" k) = some call →
    call.registered = (σ.dispatchedFor (generateRequestId "cli" k)).isEmpty ∧
      call.written = (σ.dispatchedFor (generateRequestId "cli" k)).take 1
  hand : ∀ {w addressee}, σ.inHand = some (w, addressee) →
    w.requestId = generateRequestId "cli" k →
      addressee = if (σ.dispatchedFor (generateRequestId "cli" k)).isEmpty then .writer else .nobody

variable {k : Nat} {w : WriteToClient} {addressee : Addressee}

/-- A response of the call in any stage answers a request of the call: it is final, and the
call has been opened. -/
theorem Flow.of_mem (h : Flow env engine k σ sent) (hw : w ∈ σ.stages engine)
    (hid : w.requestId = generateRequestId "cli" k) :
    w.isFinal = true ∧ ∃ call, σ.clients.lookup (generateRequestId "cli" k) = some call := by
  have hmem : w ∈ sent.map (MainLoop.writeFor engine) := by
    rw [← h.stages, List.mem_filter]
    exact ⟨hw, decide_eq_true hid⟩
  obtain ⟨r, hr, rfl⟩ := List.mem_map.mp hmem
  refine ⟨(jobWrite_answers engine r).isFinal, ?_⟩
  cases hclient : σ.clients.lookup (generateRequestId "cli" k) with
  | some call => exact ⟨call, rfl⟩
  | none =>
    rw [h.unopened hclient] at hr
    cases hr

/-- The handlers of stream calls do not touch the requests of a client call. -/
theorem Flow.of_streams (h : Flow env engine k σ sent) {streams : Table String StreamCall}
    {ctr : Nat} (hctr : σ.ctr ≤ ctr)
    (hnamed : ∀ {id call}, streams.lookup id = some call →
      call.request.requestId = id ∧ ∃ n, id = generateRequestId "strm" n) :
    Flow env engine k { σ with streams := streams, ctr := ctr } sent :=
  ⟨h.collector, h.unbound, hnamed, h.events, h.channel,
    fun hcall => Nat.lt_of_lt_of_le (h.opened hcall) hctr, h.unopened, h.stages, h.client, h.hand⟩

/-- A stream handler that goes on with its request. -/
theorem Flow.proceed (h : Flow env engine k σ sent) {phase : StreamPhase}
    {f : StreamCall → StreamCall} {id : String} (hf : ∀ call, (f call).request = call.request) :
    Flow env engine k (σ.proceed id phase f) sent := by
  refine h.of_streams (Nat.le_refl _) fun {id' call'} hcall' => ?_
  rw [Table.lookup_modify] at hcall'
  split at hcall'
  · obtain ⟨call, hcall, rfl⟩ := Option.map_eq_some_iff.mp hcall'
    split
    · rw [hf]
      exact h.named hcall
    · exact h.named hcall
  · exact h.named hcall'

/-- The responses of one call, made from items that carry its identifier. -/
private theorem filter_map_requestId {A : Type*} {f : A → WriteToClient} {id : A → String}
    (hid : ∀ a, (f a).requestId = id a) (l : List A) :
    (l.map f).filter (fun w => w.requestId = rid) = (l.filter fun a => id a = rid).map f := by
  rw [List.filter_map]
  congr 1
  refine List.filter_congr fun a _ => ?_
  simp only [Function.comp_apply, hid]

/-- The response to a request has its identifier. -/
theorem filter_map_writeFor (rs : List TtsRequestMsg) :
    (rs.map (MainLoop.writeFor engine)).filter (fun w => w.requestId = rid) =
      (rs.filter fun r => r.requestId = rid).map (MainLoop.writeFor engine) :=
  filter_map_requestId (fun r => (jobWrite_answers engine r).requestId) rs

/-- The response to a job has its identifier. -/
theorem filter_map_jobWrite (jobs : List LocalSynthJob) :
    (jobs.map (jobWrite engine)).filter (fun w => w.requestId = rid) =
      (jobs.filter fun job => job.requestId = rid).map (jobWrite engine) := by
  refine filter_map_requestId (fun job => ?_) jobs
  unfold jobWrite
  simp only
  split <;> rfl

/-- Requests enter the last stage. -/
theorem Flow.enqueue (h : Flow env engine k σ sent) {rs : List TtsRequestMsg}
    (hlocal : ∀ r ∈ rs, r.requestId = generateRequestId "cli" k → shouldUseLocal env r = true)
    (hopened : σ.clients.lookup (generateRequestId "cli" k) = none →
      rs.filter (fun r => r.requestId = generateRequestId "cli" k) = []) :
    Flow env engine k { σ with requestChannel := σ.requestChannel ++ rs.map .request }
      (sent ++ rs.filter fun r => r.requestId = generateRequestId "cli" k) := by
  have hanswers : (rs.map Message.request).filterMap answerWrite = [] := by
    simp [List.filterMap_map, answerWrite]
  have hrequests : (rs.map Message.request).filterMap Message.request? = rs := by
    simp [List.filterMap_map, Function.comp_def, Message.request?]
  refine { h with
    channel := fun m hm => ?_
    unopened := fun hnone => by rw [h.unopened hnone, hopened hnone, List.append_nil]
    stages := ?_ }
  · rcases List.mem_append.mp hm with hm | hm
    · exact h.channel m hm
    · obtain ⟨r, hr, rfl⟩ := List.mem_map.mp hm
      intro req hreq hid
      obtain rfl : r = req := by simpa using hreq
      exact hlocal r hr hid
  · have hstages : Server.stages engine
        { σ with requestChannel := σ.requestChannel ++ rs.map .request } =
          σ.stages engine ++ rs.map (MainLoop.writeFor engine) := by
      simp only [Server.stages, List.filterMap_append, hanswers, hrequests, List.append_nil,
        List.map_append, List.append_assoc]
    rw [hstages, List.filter_append, filter_map_writeFor, h.stages, List.map_append]

/-- A stream handler sends its own request. -/
theorem Flow.send (h : Flow env engine k σ sent) (id : String) :
    Flow env engine k (σ.step env (.send id)) sent := by
  have hproceed : Flow env engine k
      (σ.proceed id .parsed fun call => { call with phase := .sent }) sent := h.proceed fun _ => rfl
  have hother : ∀ r ∈ (((σ.streams.lookup id).filter fun call => call.phase = .parsed).toList.map
      StreamCall.request), r.requestId ≠ generateRequestId "cli" k := by
    intro r hr
    obtain ⟨call, hcall, rfl⟩ := List.mem_map.mp hr
    obtain ⟨hreq, n, hname⟩ :=
      h.named (Option.filter_eq_some_iff.mp (Option.mem_toList.mp hcall)).1
    rw [hreq, hname]
    exact generateRequestId_strm_ne_cli n k
  have hnone : ((((σ.streams.lookup id).filter fun call => call.phase = .parsed).toList.map
      StreamCall.request).filter fun r => r.requestId = generateRequestId "cli" k) = [] :=
    filter_id_eq_nil hother
  have hsent := hproceed.enqueue (fun r hr hid => absurd hid (hother r hr)) fun _ => hnone
  rw [hnone, List.append_nil, List.map_map] at hsent
  exact hsent

/-- A client handler sends a chunk. -/
theorem Flow.clientChunk (h : Flow env engine k σ sent) (id : String) (req : TtsRequestMsg)
    (hlocal : ∀ r ∈ sends (generateRequestId "cli" k) σ (.clientChunk id req),
      shouldUseLocal env r = true) :
    Flow env engine k (σ.step env (.clientChunk id req))
      (sent ++ sends (generateRequestId "cli" k) σ (.clientChunk id req)) := by
  have hfilter : (((σ.clients.lookup id).toList.map fun _ => { req with requestId := id }).filter
      fun r => r.requestId = generateRequestId "cli" k) =
        sends (generateRequestId "cli" k) σ (.clientChunk id req) := by
    by_cases hid : id = generateRequestId "cli" k
    · subst hid
      simp [sends]
    · simp [sends, hid]
  have hopened : σ.clients.lookup (generateRequestId "cli" k) = none →
      (((σ.clients.lookup id).toList.map fun _ => { req with requestId := id }).filter
        fun r => r.requestId = generateRequestId "cli" k) = [] := by
    intro hnone
    rw [hfilter]
    simp [sends, hnone]
  have hsent := h.enqueue (fun r hr hid =>
    hlocal r (hfilter ▸ List.mem_filter.mpr ⟨hr, decide_eq_true hid⟩)) hopened
  rw [hfilter, List.map_map] at hsent
  exact hsent

/-- A new client call, the one in question or another. -/
theorem Flow.openClient (h : Flow env engine k σ sent) :
    Flow env engine k (σ.step env .openClient) sent := by
  have hframe := h.of_streams (Nat.le_succ σ.ctr) h.named
  by_cases hk : k = σ.ctr
  · -- nothing has been sent for a call that has not been opened
    have hnone : σ.clients.lookup (generateRequestId "cli" k) = none := by
      cases hclient : σ.clients.lookup (generateRequestId "cli" k) with
      | none => rfl
      | some call => exact absurd hk (Nat.ne_of_lt (h.opened hclient))
    have hempty : σ.dispatchedFor (generateRequestId "cli" k) = [] := by
      refine filter_id_eq_nil fun w hw hid => ?_
      have hstage : w ∈ σ.stages engine := by simp [Server.stages, hw]
      obtain ⟨-, call, hcall⟩ := h.of_mem hstage hid
      cases hnone.symm.trans hcall
    have hself : (σ.step env .openClient).clients.lookup (generateRequestId "cli" k) = some {} := by
      rw [hk]
      exact AList.lookup_insert _
    refine { hframe with
      opened := fun _ => hk ▸ Nat.lt_succ_self _
      unopened := fun hnone' => by cases hself.symm.trans hnone'
      client := fun {call} hcall => ?_ }
    obtain rfl := Option.some.inj (hself.symm.trans hcall)
    have hsame : (σ.step env .openClient).dispatchedFor (generateRequestId "cli" k) = [] := hempty
    rw [hsame]
    exact ⟨rfl, rfl⟩
  · have hne : generateRequestId "cli" k ≠ generateRequestId "cli" σ.ctr := fun heq =>
      hk (generateRequestId_injective heq)
    have hsame : (σ.step env .openClient).clients.lookup (generateRequestId "cli" k) =
        σ.clients.lookup (generateRequestId "cli" k) := AList.lookup_insert_ne hne
    exact { hframe with
      opened := fun hcall => hframe.opened (hsame.symm.trans hcall)
      unopened := fun hnone => h.unopened (hsame.symm.trans hnone)
      client := fun hcall => h.client (hsame.symm.trans hcall) }

/-- The dispatched responses of a call after handing one over. -/
theorem dispatchedFor_deliver :
    (σ.deliver w addressee).dispatchedFor rid =
      σ.dispatchedFor rid ++ if w.requestId = rid then [w] else [] := by
  have hdispatched : (σ.deliver w addressee).dispatched = σ.dispatched ++ [w] := by
    cases addressee <;> rfl
  rw [dispatchedFor, hdispatched, List.filter_append, dispatchedFor]
  by_cases hid : w.requestId = rid
  · simp [hid]
  · simp [hid]

/-- Handing over a response moves it to the first stage. -/
theorem stages_deliver (hhand : σ.inHand = some (w, addressee)) :
    (σ.deliver w addressee).stages engine = σ.stages engine := by
  cases addressee <;> simp [Server.stages, Server.deliver, hhand]

/-- The record of a client call after handing over a response. -/
theorem clients_deliver :
    (σ.deliver w addressee).clients.lookup rid =
      if addressee = .writer ∧ rid = w.requestId then (σ.clients.lookup rid).map fun call =>
        { registered := call.registered && !w.isFinal, written := call.written ++ [w] }
      else σ.clients.lookup rid := by
  cases addressee with
  | writer => simp [Server.deliver, Table.lookup_modify]
  | localQueue => simp [Server.deliver]
  | nobody => simp [Server.deliver]

/-- Handing over a response. The first one of the call goes through the writer, which is
erased because the response is final; the others find nobody. -/
theorem Flow.deliver (h : Flow env engine k σ sent) (hhand : σ.inHand = some (w, addressee)) :
    Flow env engine k (σ.deliver w addressee) sent := by
  have hstages := @stages_deliver engine σ w addressee hhand
  have hstage : w ∈ σ.stages engine := by simp [Server.stages, hhand]
  have hframe : (σ.deliver w addressee).hb = σ.hb ∧
      (σ.deliver w addressee).wsEventChannel = σ.wsEventChannel ∧
      (σ.deliver w addressee).requestChannel = σ.requestChannel ∧
      (σ.deliver w addressee).ctr = σ.ctr ∧ (σ.deliver w addressee).inHand = none := by
    cases addressee <;> exact ⟨rfl, rfl, rfl, rfl, rfl⟩
  obtain ⟨hhb, hevents, hchannel, hctr, hnone⟩ := hframe
  have hclients := @clients_deliver (generateRequestId "cli" k) σ w addressee
  have hkept {call : ClientCall}
      (hcall : (σ.deliver w addressee).clients.lookup (generateRequestId "cli" k) = some call) :
      ∃ call', σ.clients.lookup (generateRequestId "cli" k) = some call' := by
    rw [hclients] at hcall
    split at hcall
    · obtain ⟨call', hcall', -⟩ := Option.map_eq_some_iff.mp hcall
      exact ⟨call', hcall'⟩
    · exact ⟨call, hcall⟩
  refine ⟨hhb ▸ h.collector, hhb ▸ h.unbound, fun {id call'} hcall' => ?_, hevents ▸ h.events,
    hchannel ▸ h.channel, fun hcall => ?_, fun hempty => ?_, hstages ▸ h.stages,
    fun {call'} hcall' => ?_, fun hsome => ?_⟩
  · cases addressee with
    | writer => exact h.named hcall'
    | nobody => exact h.named hcall'
    | localQueue =>
      obtain ⟨call, hcall, rfl⟩ := lookup_deliver_localQueue hcall'
      have hrequest : (if id = w.requestId then { call with localQueue := call.localQueue ++ [w] }
          else call).request = call.request := by
        split <;> rfl
      rw [hrequest]
      exact h.named hcall
  · rw [hctr]
    obtain ⟨call', hcall'⟩ := hkept hcall
    exact h.opened hcall'
  · refine h.unopened ?_
    rw [hclients] at hempty
    split at hempty
    · exact Option.map_eq_none_iff.mp hempty
    · exact hempty
  · rw [hclients] at hcall'
    rw [dispatchedFor_deliver]
    by_cases hid : w.requestId = generateRequestId "cli" k
    · have hfinal := (h.of_mem hstage hid).1
      have haddressee := h.hand hhand hid
      rw [if_pos hid]
      cases hdone : σ.dispatchedFor (generateRequestId "cli" k) with
      | nil =>
        rw [hdone] at haddressee
        rw [if_pos ⟨haddressee, hid.symm⟩] at hcall'
        obtain ⟨call, hcall, rfl⟩ := Option.map_eq_some_iff.mp hcall'
        have hwritten := (h.client hcall).2
        rw [hdone] at hwritten
        exact ⟨by simp [hfinal], by simp [hwritten]⟩
      | cons first rest =>
        have hnobody : addressee = .nobody := by simpa [hdone] using haddressee
        rw [if_neg (by simp [hnobody])] at hcall'
        obtain ⟨hregistered, hwritten⟩ := h.client hcall'
        rw [hdone] at hregistered hwritten
        exact ⟨by simpa using hregistered, by simpa using hwritten⟩
    · rw [if_neg fun hboth => hid hboth.2.symm] at hcall'
      rw [if_neg hid, List.append_nil]
      exact h.client hcall'
  · cases hnone.symm.trans hsome

/-- Looking up the next response. The identifier of a client call is not that of a stream
call, so the writer is found as long as no response has been dispatched. -/
theorem Flow.look (h : Flow env engine k σ sent) {ws : List WriteToClient}
    (hhand : σ.inHand = none) (hwrites : σ.clientWrites = w :: ws) :
    Flow env engine k
      { σ with clientWrites := ws, inHand := some (w, σ.lookup w.requestId) } sent := by
  have hstage : w ∈ σ.stages engine := by simp [Server.stages, hwrites]
  refine { h with stages := ?_, hand := fun {w' addressee} hsome hid => ?_ }
  · rw [← h.stages]
    simp [Server.stages, hhand, hwrites]
  · obtain ⟨rfl, rfl⟩ := Prod.mk.inj (Option.some.inj hsome)
    obtain ⟨-, call, hcall⟩ := h.of_mem hstage hid
    have hnostream : σ.streams.lookup (generateRequestId "cli" k) = none := by
      cases hstream : σ.streams.lookup (generateRequestId "cli" k) with
      | none => rfl
      | some stream =>
        obtain ⟨-, n, hname⟩ := h.named hstream
        exact absurd hname.symm (generateRequestId_strm_ne_cli n k)
    have hregistered := (h.client hcall).1
    have hsame : Server.dispatchedFor
        { σ with clientWrites := ws, inHand := some (w, σ.lookup w.requestId) }
          (generateRequestId "cli" k) = σ.dispatchedFor (generateRequestId "cli" k) := rfl
    rw [hsame, hid, Server.lookup, hnostream, hcall]
    simp [hregistered]

/-- Running the next job moves it from the jobs to the answers. -/
theorem Flow.job (h : Flow env engine k σ sent) (hengine : env.localEngine = some engine)
    {job : LocalSynthJob} {jobs : List LocalSynthJob} (hjobs : σ.localJobs = job :: jobs) :
    Flow env engine k { σ with
      localJobs := jobs
      requestChannel := σ.requestChannel ++
        (env.localEngine.map fun engine => runJob engine job).toList } sent := by
  have hanswer := answerWrite_runJob engine job
  have hnorequest : (runJob engine job).request? = none := by
    unfold runJob
    simp only
    split <;> rfl
  refine { h with channel := fun m hm => ?_, stages := ?_ }
  · rcases List.mem_append.mp hm with hm | hm
    · exact h.channel m hm
    · simp only [hengine, Option.map_some, Option.toList_some, List.mem_singleton] at hm
      intro req hreq
      rw [← hm, hreq] at hnorequest
      cases hnorequest
  · rw [← h.stages]
    congr 1
    simp [Server.stages, hengine, hjobs, List.filterMap_append, hanswer, hnorequest]

/-- A tick moves answers to the responses to be looked up, and requests to the jobs. -/
theorem Flow.tick (h : Flow env engine k σ sent) (hhand : σ.inHand = none)
    (hwrites : σ.clientWrites = []) (hjobs : σ.localJobs = []) {startedAt now endedAt : TimePoint}
    (hadmits : (admissions env σ.hb.beginTick (σ.requestChannel ++ σ.wsEventChannel)).filter
        (fun r => r.requestId = generateRequestId "cli" k) =
      (σ.requestChannel.filterMap Message.request?).filter
        fun r => r.requestId = generateRequestId "cli" k) :
    Flow env engine k (σ.tick env startedAt now endedAt) sent := by
  have hnoanswer : σ.wsEventChannel.filterMap answerWrite = [] := by
    rw [List.filterMap_eq_nil_iff]
    intro m hm
    obtain ⟨rsp, rfl⟩ := h.events m hm
    rfl
  have hlocal : ∀ m ∈ TickInput.batch
      { requests := σ.requestChannel, events := σ.wsEventChannel, startedAt, now, endedAt },
      LocalFor env (generateRequestId "cli" k) m := by
    intro m hm
    rcases List.mem_append.mp hm with hm | hm
    · exact h.channel m hm
    · obtain ⟨rsp, rfl⟩ := h.events m hm
      exact fun req hreq => by cases hreq
  have hbatch : TickInput.batch
      { requests := σ.requestChannel, events := σ.wsEventChannel, startedAt, now, endedAt } =
        σ.requestChannel ++ σ.wsEventChannel := rfl
  obtain ⟨hunbound, htickWrites, htickJobs⟩ := h.unbound.tick h.collector hlocal
  rw [hbatch, List.filterMap_append, hnoanswer, List.append_nil] at htickWrites
  rw [hbatch, hadmits] at htickJobs
  have hcollector : (Heartbeat.tick env
      { requests := σ.requestChannel, events := σ.wsEventChannel, startedAt, now, endedAt }
      σ.hb).2.changeset = {} := rfl
  -- nothing but these facts about the outcome of the tick matters
  unfold Server.tick
  generalize Heartbeat.tick env
    { requests := σ.requestChannel, events := σ.wsEventChannel, startedAt, now, endedAt }
    σ.hb = r at hunbound htickWrites htickJobs hcollector ⊢
  refine ⟨hcollector, hunbound, h.named, fun m hm => absurd hm List.not_mem_nil,
    fun m hm => absurd hm List.not_mem_nil, h.opened, h.unopened, ?_, h.client,
    fun hsome => by cases hhand.symm.trans hsome⟩
  have hbefore := h.stages
  simp only [Server.stages, hhand, hwrites, hjobs, Option.map_none, Option.toList_none,
    List.append_nil, List.map_nil, List.filter_append, filter_map_writeFor] at hbefore
  simp only [Server.stages, hhand, Option.map_none, Option.toList_none, List.append_nil,
    List.filterMap_nil, List.map_nil, List.filter_append, filter_map_jobWrite, htickWrites,
    htickJobs, List.map_map]
  exact hbefore

/-- The heartbeat thread. -/
theorem Flow.advance (h : Flow env engine k σ sent) (hengine : env.localEngine = some engine)
    {startedAt now endedAt : TimePoint}
    (hadmits : AdmitsAll env (generateRequestId "cli" k) σ (.advance startedAt now endedAt)) :
    Flow env engine k (σ.advance env startedAt now endedAt) sent := by
  unfold Server.advance
  split
  · exact h.deliver ‹_›
  · rename_i hhand
    split
    · exact h.look hhand ‹_›
    · rename_i hwrites
      split
      · exact h.job hengine ‹_›
      · rename_i hjobs
        exact h.tick hhand hwrites hjobs (hadmits hhand hwrites hjobs)

/-- Every move keeps the flow, and adds to it what it sends. -/
theorem Flow.step (h : Flow env engine k σ sent) (hengine : env.localEngine = some engine)
    (ev : ServerEvent) (hadmits : AdmitsAll env (generateRequestId "cli" k) σ ev)
    (hlocal : ∀ r ∈ sends (generateRequestId "cli" k) σ ev, shouldUseLocal env r = true) :
    Flow env engine k (σ.step env ev) (sent ++ sends (generateRequestId "cli" k) σ ev) := by
  -- all other moves send nothing for the call
  have hquiet {σ' : Server} (h' : Flow env engine k σ' sent) : Flow env engine k σ' (sent ++ []) :=
    (List.append_nil sent).symm ▸ h'
  cases ev with
  | clientChunk id req => exact h.clientChunk id req hlocal
  | openStream parsed =>
    cases parsed with
    | none => exact hquiet (h.of_streams (Nat.le_succ _) h.named)
    | some req =>
      refine hquiet (h.of_streams (Nat.le_succ _) fun {id call} hcall => ?_)
      by_cases hid : id = generateRequestId "strm" σ.ctr
      · subst hid
        obtain rfl := Option.some.inj ((AList.lookup_insert σ.streams).symm.trans hcall)
        exact ⟨rfl, σ.ctr, rfl⟩
      · exact h.named ((AList.lookup_insert_ne hid).symm.trans hcall)
  | send id => exact hquiet (h.send id)
  | registerQueue id => exact hquiet (h.proceed fun _ => rfl)
  | registerWriter id => exact hquiet (h.proceed fun _ => rfl)
  | drain id accepted => exact hquiet (h.proceed fun _ => rfl)
  | abandon id => exact hquiet (h.proceed fun _ => rfl)
  | openClient => exact hquiet h.openClient
  | upstreamEvent rsp =>
    refine hquiet { h with events := fun m hm => ?_ }
    rcases List.mem_append.mp hm with hm | hm
    · exact h.events m hm
    · exact ⟨rsp, List.mem_singleton.mp hm⟩
  | advance startedAt now endedAt => exact hquiet (h.advance hengine hadmits)

/-- A new server has sent nothing. -/
theorem start_flow (maxSize : Nat) (idleTimeout maxLifetime : Duration) :
    Flow env engine k { hb := start maxSize idleTimeout maxLifetime } [] where
  collector := rfl
  unbound := ⟨start_poolWf maxSize idleTimeout maxLifetime,
    fun hs => by simp [start, DataBoard.empty, SessionPool.get] at hs,
    fun hp => by simp [start, DataBoard.empty, PendingRequestStore.get] at hp⟩
  named := fun hcall => by cases hcall
  events := fun m hm => absurd hm List.not_mem_nil
  channel := fun m hm => absurd hm List.not_mem_nil
  opened := fun hcall => by cases hcall
  unopened := fun _ => rfl
  stages := rfl
  client := fun hcall => by cases hcall
  hand := fun hsome => by cases hsome

/-- The flow after a run whose requests for the call are local and admitted. -/
theorem flow_run (hengine : env.localEngine = some engine) (maxSize : Nat)
    (idleTimeout maxLifetime : Duration) {events : List ServerEvent}
    (hlocal : ∀ r ∈ sentFor env (generateRequestId "cli" k)
      { hb := start maxSize idleTimeout maxLifetime } events, shouldUseLocal env r = true)
    (hadmits : Along (step env) (AdmitsAll env (generateRequestId "cli" k))
      { hb := start maxSize idleTimeout maxLifetime } events) :
    Flow env engine k (run env { hb := start maxSize idleTimeout maxLifetime } events)
      (sentFor env (generateRequestId "cli" k)
        { hb := start maxSize idleTimeout maxLifetime } events) := by
  have hsends := (along_logged_of_forall hlocal).2
  have halong := along_and.mpr ⟨hadmits.logged, hsends⟩
  have hend := (halong.invariant (I := fun x => Flow env engine k x.1 x.2)
    (start_flow maxSize idleTimeout maxLifetime) fun x ev h hev =>
      h.step hengine ev hev.1 hev.2).2
  rw [foldl_logged_fst] at hend
  exact hend

/-- A message is answered under the identifier of the job. -/
theorem answerId?_of_answerWrite {m : Message} (hanswer : answerWrite m = some w) :
    m.answerId? = some w.requestId := by
  cases m with
  | localComplete c =>
    obtain rfl := Option.some.inj hanswer
    rfl
  | localFailed f =>
    obtain rfl := Option.some.inj hanswer
    rfl
  | _ => cases hanswer

/-- When nothing is left of a call, all its responses have been dispatched. -/
theorem Settled.stages (hsettled : σ.Settled rid) :
    (σ.stages engine).filter (fun w => w.requestId = rid) = σ.dispatchedFor rid := by
  have hhand : ((σ.inHand.map Prod.fst).toList).filter (fun w => w.requestId = rid) = [] := by
    refine filter_id_eq_nil fun w hw => ?_
    obtain ⟨x, hx, rfl⟩ := Option.map_eq_some_iff.mp (Option.mem_toList.mp hw)
    exact hsettled.inHand x hx
  have hwrites : σ.clientWrites.filter (fun w => w.requestId = rid) = [] :=
    filter_id_eq_nil hsettled.clientWrites
  have hanswers : (σ.requestChannel.filterMap answerWrite).filter
      (fun w => w.requestId = rid) = [] := by
    refine filter_id_eq_nil fun w hw hid => ?_
    obtain ⟨m, hm, hanswer⟩ := List.mem_filterMap.mp hw
    exact (hsettled.channel m hm).2 (hid ▸ answerId?_of_answerWrite hanswer)
  have hjobs : σ.localJobs.filter (fun job => job.requestId = rid) = [] :=
    filter_id_eq_nil hsettled.localJobs
  have hrequests : (σ.requestChannel.filterMap Message.request?).filter
      (fun r => r.requestId = rid) = [] := by
    refine filter_id_eq_nil fun r hr hid => ?_
    obtain ⟨m, hm, hrequest⟩ := List.mem_filterMap.mp hr
    cases m with
    | request req =>
      obtain rfl : req = r := Option.some.inj hrequest
      exact (hsettled.channel _ hm).1 (congrArg some hid)
    | _ => cases hrequest
  simp only [Server.stages, List.filter_append, hhand, hwrites, hanswers, filter_map_jobWrite,
    hjobs, filter_map_writeFor, hrequests, List.map_nil, List.append_nil]
  rfl

/-- **Bidirectional delivery.** Take a client call whose client sends any texts and then the
finish mark, in any run of the server with any other traffic, with a local engine that is
ready and preferred and every request of the call admitted, and look at it when nothing of
the call is left on the way. It has been served as a stream of these texts exactly if there
was one text, and the engine has no audio for the empty text that the finish mark becomes. -/
theorem client_stream_delivered_iff (hengine : env.localEngine = some engine)
    (hready : engine.isReady = true) (hprefer : env.preferLocal = true) (maxSize : Nat)
    (idleTimeout maxLifetime : Duration) {texts : List String} {events : List ServerEvent}
    (hsent : sentFor env (generateRequestId "cli" k)
        { hb := start maxSize idleTimeout maxLifetime } events =
      clientRequests (generateRequestId "cli" k) true (texts.map .text ++ [.finish]))
    (hadmits : Along (step env) (AdmitsAll env (generateRequestId "cli" k))
      { hb := start maxSize idleTimeout maxLifetime } events)
    (hsettled : (run env { hb := start maxSize idleTimeout maxLifetime } events).Settled
      (generateRequestId "cli" k)) :
    (run env { hb := start maxSize idleTimeout maxLifetime } events).Delivered engine
        (generateRequestId "cli" k) texts ↔
      texts.length = 1 ∧ audioOf engine "" = [] := by
  obtain ⟨haudio, hrequests⟩ := clientRequests_spec engine (generateRequestId "cli" k) true
    (texts.map .text ++ [.finish])
  have hlocal : ∀ r ∈ sentFor env (generateRequestId "cli" k)
      { hb := start maxSize idleTimeout maxLifetime } events, shouldUseLocal env r = true := by
    intro r hr
    have hbackend := (hrequests r (hsent ▸ hr)).2
    simp [shouldUseLocal, hengine, hready, hbackend, hprefer]
  have hflow := flow_run hengine maxSize idleTimeout maxLifetime hlocal hadmits
  rw [hsent] at hflow
  generalize run env { hb := start maxSize idleTimeout maxLifetime } events = σ at hflow hsettled ⊢
  -- what has been dispatched is the audio of the texts, and that of the finish mark
  have hdispatched : σ.dispatchedFor (generateRequestId "cli" k) =
      (clientRequests (generateRequestId "cli" k) true (texts.map .text ++ [.finish])).map
        (MainLoop.writeFor engine) := by
    rw [← hsettled.stages, hflow.stages]
  have haudios : (σ.dispatchedFor (generateRequestId "cli" k)).map WriteToClient.audio =
      texts.map (audioOf engine) ++ [audioOf engine ""] := by
    rw [hdispatched, List.map_map]
    refine haudio.trans ?_
    simp [Function.comp_def, Proto.TextChunk.spoken]
  obtain ⟨first, rest, hcons⟩ : ∃ first rest,
      σ.dispatchedFor (generateRequestId "cli" k) = first :: rest := by
    cases hdone : σ.dispatchedFor (generateRequestId "cli" k) with
    | nil => simp [hdone] at haudios
    | cons first rest => exact ⟨first, rest, rfl⟩
  have hfirst : first ∈ σ.dispatched ∧ first.requestId = generateRequestId "cli" k := by
    have hmem : first ∈ σ.dispatchedFor (generateRequestId "cli" k) := by simp [hcons]
    obtain ⟨hmem, hid⟩ := List.mem_filter.mp hmem
    exact ⟨hmem, of_decide_eq_true hid⟩
  have hstage : first ∈ σ.stages engine := by simp [Server.stages, hfirst.1]
  obtain ⟨hfinal, call, hcall⟩ := hflow.of_mem hstage hfirst.2
  have hwritten : σ.writtenTo (generateRequestId "cli" k) = [first] := by
    rw [writtenTo, hcall, Option.map_some, Option.getD_some, (hflow.client hcall).2, hcons]
    rfl
  have hsilent : (σ.dispatchedFor (generateRequestId "cli" k)).flatMap WriteToClient.audio =
      texts.flatMap (audioOf engine) ++ audioOf engine "" := by
    rw [List.flatMap_def, haudios, List.flatten_append, List.flatMap_def]
    simp
  constructor
  · intro hdelivered
    have hlength := congrArg List.length hdelivered.audio
    rw [hwritten] at hlength
    refine ⟨by simpa using hlength.symm, ?_⟩
    have hextra := hdelivered.silent
    rw [hsilent] at hextra
    exact List.append_right_eq_self.mp hextra
  · rintro ⟨hone, hmute⟩
    obtain ⟨text, rfl⟩ := List.length_eq_one_iff.mp hone
    rw [hcons] at haudios
    refine ⟨?_, ?_, ?_, ?_⟩
    · rw [hwritten]
      simpa using (List.cons.inj haudios).1
    · rw [hwritten]
      exact fun w hw => absurd hw List.not_mem_nil
    · rw [hwritten]
      intro w hw
      obtain rfl : first = w := by simpa using hw
      exact hfinal
    · rw [hsilent, hmute, List.append_nil]

/-- A client sends texts and the finish mark on the first call of the server, and the
heartbeat thread makes a number of moves. -/
def clientRun (texts : List String) (moves : Nat) : List ServerEvent :=
  .openClient :: (clientRequests "cli-1" true (texts.map .text ++ [.finish])).map
    (.clientChunk "cli-1") ++ List.replicate moves (.advance 0 0 0)

/-- One text to an engine that refuses the empty text is delivered. -/
theorem client_stream_delivered_one :
    (run MainLoop.speakingEnv { hb := start 16 (seconds 60) (seconds 3600) }
      (clientRun ["hi"] 8)).Delivered MainLoop.sampleEngine (generateRequestId "cli" 1) ["hi"] :=
  (@client_stream_delivered_iff MainLoop.speakingEnv MainLoop.sampleEngine 1 rfl rfl rfl 16
    (seconds 60) (seconds 3600) ["hi"] (clientRun ["hi"] 8) (by decide +kernel)
    (by decide +kernel) ⟨by decide +kernel, by decide +kernel, by decide +kernel,
      by decide +kernel⟩).mpr ⟨rfl, by decide +kernel⟩

/-- Of two texts only the first is delivered, as a final response, although every request has
been admitted, synthesised and dispatched. -/
theorem clientRun_drops_second :
    let σ := run MainLoop.speakingEnv { hb := start 16 (seconds 60) (seconds 3600) }
      (clientRun ["hi", "ok"] 11)
    (sentFor MainLoop.speakingEnv "cli-1" { hb := start 16 (seconds 60) (seconds 3600) }
        (clientRun ["hi", "ok"] 11) =
      clientRequests "cli-1" true [.text "hi", .text "ok", .finish]) ∧
    Along (step MainLoop.speakingEnv) (AdmitsAll MainLoop.speakingEnv "cli-1")
      { hb := start 16 (seconds 60) (seconds 3600) } (clientRun ["hi", "ok"] 11) ∧
    σ.Settled "cli-1" ∧
    (σ.dispatchedFor "cli-1").map WriteToClient.audio =
      [audioOf MainLoop.sampleEngine "hi", audioOf MainLoop.sampleEngine "ok", []] ∧
    (σ.writtenTo "cli-1").map (fun w => (w.audio, w.isFinal)) =
      [(audioOf MainLoop.sampleEngine "hi", true)] ∧
    ¬σ.Delivered MainLoop.sampleEngine "cli-1" ["hi", "ok"] := by
  intro σ
  refine ⟨by decide +kernel, by decide +kernel, ⟨by decide +kernel, by decide +kernel,
    by decide +kernel, by decide +kernel⟩, by decide +kernel, by decide +kernel, fun h => ?_⟩
  have hlength : (σ.writtenTo "cli-1").length = 1 := by decide +kernel
  have htwo := congrArg List.length h.audio
  rw [List.length_map, hlength] at htwo
  cases htwo

end Server

end TtsServer
