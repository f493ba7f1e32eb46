import TtsServer.LocalLoop

/-!
# Stream handlers and the heartbeat thread

A `SynthesizeStream` handler sends its request to the heartbeat, registers a queue
for its responses, registers its writer, and then drains the queue until it has
written a final response. The heartbeat thread ticks, looks up the addressee of each
response, hands the response over, and runs the local jobs. Handlers and heartbeat
thread run concurrently; the model lets them move in any order, one access to shared
data at a time. A response whose addressee is not registered is dropped.

Both kinds of calls draw their identifiers from one counter, which is a 64-bit word in the
program and a natural number here. As long as fewer than 2⁶⁴ - 1 calls have arrived the two
have the same value, and the identifiers are those of the program (`requestIds_of_word`); what
is said of identifiers here is said of runs within that bound.
-/

namespace TtsServer

open Lib Heartbeat History

/-- Where a `SynthesizeStream` handler is. -/
inductive StreamPhase where
  /-- The request has been parsed. -/
  | parsed
  /-- The request is on the channel. -/
  | sent
  /-- The queue is in `local_queues_`. -/
  | queued
  /-- The writer is in `writers_` as well, and the handler drains its queue. -/
  | serving
  /-- Both entries have been erased, and the handler has returned. -/
  | left
  deriving DecidableEq, Repr

/-- A `SynthesizeStream` call. -/
structure StreamCall where
  phase : StreamPhase := .parsed
  request : TtsRequestMsg
  localQueue : List WriteToClient := []
  /-- The responses that the client has received. -/
  written : List WriteToClient := []

/-- The handler's loop over drained responses, of which the client accepts a number before
`Write` fails: the responses written, and whether the handler leaves. -/
def writeDrained : Nat → List WriteToClient → List WriteToClient × Bool
  | _, [] => ([], false)
  | 0, _ :: _ => ([], true)
  | n + 1, w :: ws =>
    if w.isFinal then ([w], true) else (w :: (writeDrained n ws).1, (writeDrained n ws).2)

/-- One round of the drain loop. The drained responses are the handler's own until they are
written, so the round is one step. -/
def StreamCall.drain (accepted : Nat) (call : StreamCall) : StreamCall :=
  let r := writeDrained accepted call.localQueue
  { call with
    localQueue := []
    written := call.written ++ r.1
    phase := if r.2 then .left else call.phase }

/-- A `SynthesizeClient` call: whether its writer is registered, and what the client has
received. -/
structure ClientCall where
  registered : Bool := true
  written : List WriteToClient := []

/-- What `dispatch_to_writers` finds for a response. -/
inductive Addressee where
  | localQueue
  | writer
  | nobody
  deriving DecidableEq, Repr

/-- The service, its channels and the heartbeat thread. The entries of `local_queues_` and
`writers_` are read off the calls. -/
structure Server where
  hb : Heartbeat
  requestChannel : List Message := []
  wsEventChannel : List Message := []
  /-- The next number; a 64-bit word in the program, see `requestIds_of_word`. -/
  ctr : Nat := 1
  streams : Table String StreamCall := ∅
  clients : Table String ClientCall := ∅
  /-- The responses of the last change set that have not been looked up yet. -/
  clientWrites : List WriteToClient := []
  /-- The response in hand, with its addressee. -/
  inHand : Option (WriteToClient × Addressee) := none
  /-- The jobs of the last change set that have not been run yet. -/
  localJobs : List LocalSynthJob := []
  /-- The responses that have been dispatched, for the record. -/
  dispatched : List WriteToClient := []

/-- The moves of handlers, of upstream sessions and of the heartbeat thread. -/
inductive ServerEvent where
  /-- A stream call arrives; its request may be malformed. -/
  | openStream (parsed : Option TtsRequestMsg)
  | send (rid : String)
  | registerQueue (rid : String)
  | registerWriter (rid : String)
  /-- One round of the drain loop. -/
  | drain (rid : String) (accepted : Nat)
  /-- The client cancels or the deadline passes. -/
  | abandon (rid : String)
  /-- A client call arrives and registers its writer. -/
  | openClient
  /-- A chunk of a client call. -/
  | clientChunk (rid : String) (parsed : TtsRequestMsg)
  | upstreamEvent (rsp : TtsResponseMsg)
  | advance (startedAt now endedAt : TimePoint)

/-- The move draws an identifier. -/
def ServerEvent.opens : ServerEvent → Bool
  | .openStream _ | .openClient => true
  | _ => false

/-- `generate_request_id` at a value of its counter. -/
def generateRequestId (tag : String) (n : Nat) : String := tag ++ "-" ++ toString n

/-- `generate_request_id` at a value of its counter as the program holds it. -/
def wordRequestId (tag : String) (ctr : UInt64) : String := tag ++ "-" ++ toString ctr.toNat

/-- Below 2⁶⁴ a number and its word give the same identifier. -/
theorem generateRequestId_eq_word {n : Nat} (hn : n < 2 ^ 64) (tag : String) :
    generateRequestId tag n = wordRequestId tag (UInt64.ofNat n) := by
  rw [generateRequestId, wordRequestId, UInt64.toNat_ofNat_of_lt' hn]

namespace Server

/-- A handler in one phase goes on; otherwise nothing happens. -/
def proceed (σ : Server) (rid : String) (phase : StreamPhase) (f : StreamCall → StreamCall) :
    Server :=
  { σ with streams := σ.streams.modify rid fun call => if call.phase = phase then f call else call }

/-- The lookup of `dispatch_to_writers`. A queue takes precedence over a writer, so the
writers of stream calls, which come and go with their queues, are never used. -/
def lookup (σ : Server) (rid : String) : Addressee :=
  if (σ.streams.lookup rid).any fun call => call.phase = .queued || call.phase = .serving then
    .localQueue
  else if (σ.clients.lookup rid).any fun call => call.registered then .writer
  else .nobody

/-- `dispatch_to_writers` hands a response to its addressee. -/
def deliver (σ : Server) (w : WriteToClient) (addressee : Addressee) : Server :=
  let σ := { σ with inHand := none, dispatched := σ.dispatched ++ [w] }
  match addressee with
  | .localQueue => { σ with streams := σ.streams.modify w.requestId fun call =>
      { call with localQueue := call.localQueue ++ [w] } }
  | .writer => { σ with clients := σ.clients.modify w.requestId fun call =>
      { registered := call.registered && !w.isFinal, written := call.written ++ [w] } }
  | .nobody => σ

/-- The tick of the heartbeat thread drains both channels. -/
def tick (env : Env) (σ : Server) (startedAt now endedAt : TimePoint) : Server :=
  let r := Heartbeat.tick env
    { requests := σ.requestChannel, events := σ.wsEventChannel, startedAt, now, endedAt } σ.hb
  { σ with
    hb := r.2, requestChannel := [], wsEventChannel := []
    clientWrites := r.1.clientWrites, localJobs := r.1.localJobs }

/-- The next move of the heartbeat thread: hand over the response in hand, look up the next
one, run the next job, or tick. -/
def advance (env : Env) (σ : Server) (startedAt now endedAt : TimePoint) : Server :=
  match σ.inHand with
  | some (w, addressee) => σ.deliver w addressee
  | none =>
    match σ.clientWrites with
    | w :: ws => { σ with clientWrites := ws, inHand := some (w, σ.lookup w.requestId) }
    | [] =>
      match σ.localJobs with
      | job :: jobs => { σ with
          localJobs := jobs
          requestChannel := σ.requestChannel ++
            (env.localEngine.map fun engine => runJob engine job).toList }
      | [] => σ.tick env startedAt now endedAt

/-- One move. -/
def step (env : Env) (σ : Server) : ServerEvent → Server
  | .openStream none => { σ with ctr := σ.ctr + 1 }
  | .openStream (some req) =>
    let rid := generateRequestId "strm" σ.ctr
    { σ with
      ctr := σ.ctr + 1
      streams := σ.streams.insert rid { request := { req with requestId := rid } } }
  | .send rid =>
    { σ.proceed rid .parsed fun call => { call with phase := .sent } with
      requestChannel := σ.requestChannel ++
        ((σ.streams.lookup rid).filter fun call => call.phase = .parsed).toList.map
          fun call => .request call.request }
  | .registerQueue rid => σ.proceed rid .sent fun call => { call with phase := .queued }
  | .registerWriter rid => σ.proceed rid .queued fun call => { call with phase := .serving }
  | .drain rid accepted => σ.proceed rid .serving (StreamCall.drain accepted)
  | .abandon rid => σ.proceed rid .serving fun call => { call with phase := .left }
  | .openClient =>
    { σ with
      ctr := σ.ctr + 1
      clients := σ.clients.insert (generateRequestId "cli" σ.ctr) {} }
  | .clientChunk rid req =>
    { σ with requestChannel := σ.requestChannel ++
        (σ.clients.lookup rid).toList.map fun _ => .request { req with requestId := rid } }
  | .upstreamEvent rsp => { σ with wsEventChannel := σ.wsEventChannel ++ [.response rsp] }
  | .advance startedAt now endedAt => σ.advance env startedAt now endedAt

/-- The server after a sequence of moves. -/
def run (env : Env) (σ : Server) (events : List ServerEvent) : Server := events.foldl (step env) σ

/-- No final response is lost: if one has been dispatched for a handler that has sent its
request and has not left, it is in the handler's queue or has been written. -/
def KeepsFinal (σ : Server) : Prop :=
  ∀ rid call, σ.streams.lookup rid = some call → call.phase ≠ .parsed → call.phase ≠ .left →
    ∀ w ∈ σ.dispatched, w.requestId = rid → w.isFinal = true →
      w ∈ call.localQueue ∨ w ∈ call.written

/-- The move does not look up a final response for a handler that has sent its request and
has not yet registered its queue. -/
def RegisteredInTime (σ : Server) : ServerEvent → Prop
  | .advance _ _ _ => σ.inHand = none → ∀ w ∈ σ.clientWrites.head?, w.isFinal = true →
      ∀ call ∈ σ.streams.lookup w.requestId, call.phase ≠ .sent
  | _ => True

instance (σ : Server) : ∀ ev, Decidable (RegisteredInTime σ ev)
  | .advance _ _ _ => inferInstanceAs (Decidable (_ → ∀ w ∈ σ.clientWrites.head?, _))
  | .openStream _ => .isTrue trivial
  | .send _ => .isTrue trivial
  | .registerQueue _ => .isTrue trivial
  | .registerWriter _ => .isTrue trivial
  | .drain _ _ => .isTrue trivial
  | .abandon _ => .isTrue trivial
  | .openClient => .isTrue trivial
  | .clientChunk _ _ => .isTrue trivial
  | .upstreamEvent _ => .isTrue trivial

end Server

/-- Different values of the counter give different identifiers. -/
theorem generateRequestId_injective {tag : String} {m n : Nat}
    (h : generateRequestId tag m = generateRequestId tag n) : m = n := by
  have hrepr : m.repr = n.repr := (String.append_right_inj _).mp h
  have hdigits : Nat.toDigits 10 m = Nat.toDigits 10 n := by
    rw [← Nat.toList_repr, hrepr, Nat.toList_repr]
  have hvalue := congrArg (fun digits => Nat.ofDigitChars 10 digits 0) hdigits
  simpa using hvalue

/-- Stream calls and client calls have different identifiers. -/
theorem generateRequestId_strm_ne_cli (m n : Nat) :
    generateRequestId "strm" m ≠ generateRequestId "cli" n := by
  intro h
  have hfirst := congrArg (fun id : String => id.toList.head?) h
  simp [generateRequestId] at hfirst

namespace Server

/-- The heartbeat thread draws no identifiers. -/
theorem ctr_advance (env : Env) (σ : Server) (startedAt now endedAt : TimePoint) :
    (σ.advance env startedAt now endedAt).ctr = σ.ctr := by
  unfold Server.advance
  split
  · next addressee _ => cases addressee <;> rfl
  · split
    · rfl
    · split <;> rfl

/-- The counter moves on when an identifier is drawn from it, and only then. -/
theorem ctr_step (env : Env) (σ : Server) (ev : ServerEvent) :
    (σ.step env ev).ctr = σ.ctr + ev.opens.toNat := by
  cases ev with
  | openStream parsed => cases parsed <;> rfl
  | advance startedAt now endedAt => exact ctr_advance env σ startedAt now endedAt
  | _ => rfl

/-- With fewer than 2⁶⁴ - 1 calls, the next identifier is the one that the program draws. -/
theorem requestIds_of_word (env : Env) (hb : Heartbeat) {events : List ServerEvent}
    (hcalls : events.countP ServerEvent.opens < 2 ^ 64 - 1) (tag : String) :
    generateRequestId tag (run env { hb } events).ctr =
      wordRequestId tag (UInt64.ofNat (run env { hb } events).ctr) := by
  refine generateRequestId_eq_word ?_ tag
  have hctr : (run env { hb } events).ctr = 1 + events.countP ServerEvent.opens :=
    foldl_count (ctr_step env)
  omega

end Server

/-! ### The identifiers that the heartbeat knows -/

section Within

variable {env : Env} {hb : Heartbeat} {known : String → Prop}

/-- The identifiers that a message brings to the heartbeat satisfy a predicate. -/
def Message.Within (known : String → Prop) (m : Message) : Prop :=
  ∀ id, m.requestId? = some id ∨ m.answerId? = some id → known id

/-- All identifiers of requests that the heartbeat holds satisfy a predicate. -/
structure Heartbeat.Within (known : String → Prop) (hb : Heartbeat) : Prop where
  poolWf : hb.PoolWf
  pending : ∀ {rid p}, hb.board.pending.get rid = some p → known rid
  clientWrites : ∀ w ∈ hb.changeset.clientWrites, known w.requestId
  localJobs : ∀ job ∈ hb.changeset.localJobs, known job.requestId

/-- A request that is admitted brings its identifier. -/
theorem Heartbeat.Within.request (h : hb.Within known) {req : TtsRequestMsg}
    (hreq : known req.requestId) : (handleRequest env req hb).Within known := by
  have hwf : (handleRequest env req hb).PoolWf :=
    handleMessage_poolWf h.poolWf (.request req)
  have hpending {rid : String} {p : PendingRequest}
      (hp : (handleRequest env req hb).board.pending.get rid = some p) : known rid := by
    by_cases hrid : rid = req.requestId
    · exact hrid ▸ hreq
    · exact h.pending (((handleRequest_frame h.poolWf.wellKeyed).others hrid).symm.trans hp)
  rcases @handleRequest_effect env hb req h.poolWf.wellKeyed h.poolWf.named with
    ⟨-, heffect⟩ | ⟨-, heffect⟩ | ⟨handle, s, -, heffect⟩
  · exact ⟨hwf, hpending, heffect.changeset ▸ h.clientWrites, heffect.changeset ▸ h.localJobs⟩
  · refine ⟨hwf, hpending, ?_, ?_⟩
    · rw [heffect.changeset]
      exact h.clientWrites
    · rw [heffect.changeset]
      intro job hjob
      rcases List.mem_append.mp hjob with hjob | hjob
      · exact h.localJobs job hjob
      · rw [List.mem_singleton.mp hjob]
        exact hreq
  · refine ⟨hwf, hpending, ?_, ?_⟩
    · rw [heffect.changeset]
      exact h.clientWrites
    · rw [heffect.changeset]
      exact h.localJobs

/-- An answer of the local engine is written under its identifier. -/
theorem Heartbeat.Within.answer (h : hb.Within known) {m : Message} {w : WriteToClient}
    (hw : answerWrite m = some w) (hm : m.Within known) :
    (handleMessage env hb m).Within known := by
  obtain ⟨hid, heffect⟩ := @answer_effect env hb m w hw
  have hrecedes := heffect.recedes h.poolWf.wellKeyed
  refine ⟨hrecedes.poolWf h.poolWf, fun hp => ?_, ?_, ?_⟩
  · obtain ⟨p, hp, -⟩ := hrecedes.pending hp
    exact h.pending hp
  · rw [heffect.changeset]
    intro w' hw'
    rcases List.mem_append.mp hw' with hw' | hw'
    · exact h.clientWrites w' hw'
    · rw [List.mem_singleton.mp hw']
      exact hm _ (Or.inr hid)
  · rw [heffect.changeset]
    exact h.localJobs

/-- Every message keeps the identifiers of the heartbeat among the known ones. -/
theorem Heartbeat.Within.message (h : hb.Within known) {m : Message} (hm : m.Within known) :
    (handleMessage env hb m).Within known := by
  cases m with
  | request req => exact h.request (hm _ (Or.inl rfl))
  | response rsp =>
    have hrecedes := @handleResponse_recedes env hb h.poolWf.wellKeyed rsp
    have hquiet : Quiet hb (handleResponse env rsp hb) := handleResponse_quiet
    refine ⟨hrecedes.poolWf h.poolWf, fun hp => ?_, ?_, ?_⟩
    · obtain ⟨p, hp, -⟩ := hrecedes.pending hp
      exact h.pending hp
    · rw [handleMessage, hquiet.changeset]
      exact h.clientWrites
    · rw [handleMessage, hquiet.changeset]
      exact h.localJobs
  | cancel msg =>
    have hrecedes := handleCancel_recedes h.poolWf.wellKeyed msg
    refine ⟨hrecedes.poolWf h.poolWf, fun hp => ?_, h.clientWrites, h.localJobs⟩
    obtain ⟨p, hp, -⟩ := hrecedes.pending hp
    exact h.pending hp
  | localComplete c => exact h.answer rfl hm
  | localFailed f => exact h.answer rfl hm

/-- A batch keeps the identifiers of the heartbeat among the known ones. -/
theorem Heartbeat.Within.batch (h : hb.Within known) {ms : List Message}
    (hms : ∀ m ∈ ms, m.Within known) : (ms.foldl (handleMessage env) hb).Within known := by
  induction ms generalizing hb with
  | nil => exact h
  | cons m ms ih =>
    exact ih (h.message (hms m List.mem_cons_self)) fun m' hm' =>
      hms m' (List.mem_cons_of_mem _ hm')

/-- A tick writes and hands out jobs for known identifiers only. -/
theorem Heartbeat.Within.tick (hbetween : BetweenTicks hb)
    (hpending : ∀ {rid p}, hb.board.pending.get rid = some p → known rid) {inp : TickInput}
    (hbatch : ∀ m ∈ inp.batch, m.Within known) :
    (∀ {rid p}, (tick env inp hb).2.board.pending.get rid = some p → known rid) ∧
      (∀ w ∈ (tick env inp hb).1.clientWrites, known w.requestId) ∧
      ∀ job ∈ (tick env inp hb).1.localJobs, known job.requestId := by
  have hbegin : hb.beginTick.Within known := by
    have hcollector : hb.beginTick.changeset = {} := hbetween.collector
    refine ⟨hbetween.poolWf.beginTick, hpending, ?_, ?_⟩
    · rw [hcollector]
      exact fun w hw => absurd hw List.not_mem_nil
    · rw [hcollector]
      exact fun job hjob => absurd hjob List.not_mem_nil
  have hmid : (midTick env hb inp.batch).Within known := hbegin.batch hbatch
  refine ⟨fun hp => hmid.pending (finishTick_get_pending.mp hp).1, ?_, ?_⟩
  · intro w hw
    change w ∈ (finishTick inp (midTick env hb inp.batch)).1.clientWrites at hw
    rw [finishTick_clientWrites, List.mem_append] at hw
    rcases hw with hw | hw
    · exact hmid.clientWrites w hw
    · obtain ⟨⟨rid, p⟩, hmem, rfl⟩ := List.mem_map.mp hw
      exact hmid.pending (mem_emissions.mp hmem).1
  · intro job hjob
    change job ∈ (finishTick inp (midTick env hb inp.batch)).1.localJobs at hjob
    rw [finishTick_localJobs] at hjob
    exact hmid.localJobs job hjob

end Within

/-! ### The invariant -/

namespace Server

/-- The identifier is not that of a stream call whose request has not been sent yet. -/
def Known (σ : Server) (rid : String) : Prop :=
  (∀ call, σ.streams.lookup rid = some call → call.phase ≠ .parsed) ∧
    ∀ n, σ.ctr ≤ n → rid ≠ generateRequestId "strm" n

/-- The identifier occurs in a channel, in the heartbeat or in the heartbeat thread. -/
def Mentions (σ : Server) (rid : String) : Prop :=
  (∃ m ∈ σ.requestChannel, m.requestId? = some rid ∨ m.answerId? = some rid) ∨
  (∃ p, σ.hb.board.pending.get rid = some p) ∨
  (∃ w ∈ σ.clientWrites, w.requestId = rid) ∨
  (∃ w addressee, σ.inHand = some (w, addressee) ∧ w.requestId = rid) ∨
  (∃ job ∈ σ.localJobs, job.requestId = rid) ∨
  ∃ w ∈ σ.dispatched, w.requestId = rid

/-- What holds in every state of a run in which queues are registered in time. -/
structure Inv (σ : Server) : Prop where
  between : BetweenTicks σ.hb
  named : ∀ {rid call}, σ.streams.lookup rid = some call →
    call.request.requestId = rid ∧ ∃ n < σ.ctr, rid = generateRequestId "strm" n
  clients : ∀ {rid call}, σ.clients.lookup rid = some call → ∃ n, rid = generateRequestId "cli" n
  events : ∀ m ∈ σ.wsEventChannel, ∃ rsp, m = .response rsp
  known : ∀ {rid}, σ.Mentions rid → σ.Known rid
  /-- A final response in hand without a queue to go to comes too late for its handler. -/
  tooLate : ∀ {w addressee}, σ.inHand = some (w, addressee) → addressee ≠ .localQueue →
    w.isFinal = true → ∀ {call}, σ.streams.lookup w.requestId = some call → call.phase = .left
  kept : ∀ {rid call}, σ.streams.lookup rid = some call → call.phase ≠ .left →
    ∀ w ∈ σ.dispatched, w.requestId = rid → w.isFinal = true →
      w ∈ call.localQueue ∨ w ∈ call.written

variable {env : Env} {σ : Server} {rid : String} {m : Message} {p : PendingRequest}
  {w : WriteToClient} {addressee : Addressee}

/-- The identifiers of the messages on the request channel. -/
theorem Mentions.message (hm : m ∈ σ.requestChannel)
    (hid : m.requestId? = some rid ∨ m.answerId? = some rid) : σ.Mentions rid :=
  Or.inl ⟨m, hm, hid⟩

/-- The identifiers of pending requests. -/
theorem Mentions.pending (hp : σ.hb.board.pending.get rid = some p) : σ.Mentions rid :=
  Or.inr (Or.inl ⟨p, hp⟩)

/-- The identifiers of responses that have not been looked up. -/
theorem Mentions.write (hw : w ∈ σ.clientWrites) : σ.Mentions w.requestId :=
  Or.inr (Or.inr (Or.inl ⟨w, hw, rfl⟩))

/-- The identifier of the response in hand. -/
theorem Mentions.hand (hhand : σ.inHand = some (w, addressee)) : σ.Mentions w.requestId :=
  Or.inr (Or.inr (Or.inr (Or.inl ⟨w, addressee, hhand, rfl⟩)))

/-- The identifiers of jobs. -/
theorem Mentions.job {job : LocalSynthJob} (hjob : job ∈ σ.localJobs) : σ.Mentions job.requestId :=
  Or.inr (Or.inr (Or.inr (Or.inr (Or.inl ⟨job, hjob, rfl⟩))))

/-- The identifiers of responses that have been dispatched. -/
theorem Mentions.dispatched (hw : w ∈ σ.dispatched) : σ.Mentions w.requestId :=
  Or.inr (Or.inr (Or.inr (Or.inr (Or.inr ⟨w, hw, rfl⟩))))

/-- The invariant implies the property. -/
theorem Inv.keepsFinal (h : Inv σ) : σ.KeepsFinal :=
  fun _ _ hcall _ hleft w hw hrid hfinal => h.kept hcall hleft w hw hrid hfinal

/-- Nothing has been dispatched for a stream call that is still to come. -/
theorem Inv.undispatched (h : Inv σ) : ∀ w ∈ σ.dispatched,
    w.requestId ≠ generateRequestId "strm" σ.ctr := by
  intro w hw
  exact (h.known (Mentions.dispatched hw)).2 σ.ctr (Nat.le_refl _)

/-- Drawing an identifier changes nothing else. -/
theorem Inv.draw (h : Inv σ) : Inv { σ with ctr := σ.ctr + 1 } where
  between := h.between
  named := fun hcall => by
    obtain ⟨hreq, n, hn, hrid⟩ := h.named hcall
    exact ⟨hreq, n, Nat.lt_succ_of_lt hn, hrid⟩
  clients := h.clients
  events := h.events
  known := fun hmentions =>
    ⟨(h.known hmentions).1, fun n hn => (h.known hmentions).2 n (Nat.le_of_succ_le hn)⟩
  tooLate := h.tooLate
  kept := h.kept

/-- A new stream call has a new identifier. -/
theorem Inv.openStream (h : Inv σ) (parsed : Option TtsRequestMsg) :
    Inv (σ.step env (.openStream parsed)) := by
  cases parsed with
  | none => exact h.draw
  | some req =>
    have hother {rid : String} (hne : rid ≠ generateRequestId "strm" σ.ctr) :
        (σ.step env (.openStream (some req))).streams.lookup rid = σ.streams.lookup rid :=
      AList.lookup_insert_ne hne
    have hknown {rid : String} (hmentions : σ.Mentions rid) :
        rid ≠ generateRequestId "strm" σ.ctr :=
      (h.known hmentions).2 σ.ctr (Nat.le_refl _)
    refine ⟨h.between, fun {rid call} hcall => ?_, h.clients, h.events, fun hmentions => ?_,
      fun {w addressee} hhand hqueue hfinal call hcall => ?_, fun {rid call} hcall hleft => ?_⟩
    · by_cases hrid : rid = generateRequestId "strm" σ.ctr
      · subst hrid
        obtain rfl := Option.some.inj ((AList.lookup_insert σ.streams).symm.trans hcall)
        exact ⟨rfl, σ.ctr, Nat.lt_succ_self _, rfl⟩
      · rw [hother hrid] at hcall
        obtain ⟨hreq, n, hn, hrid⟩ := h.named hcall
        exact ⟨hreq, n, Nat.lt_succ_of_lt hn, hrid⟩
    · refine ⟨fun call hcall => ?_, fun n hn => ?_⟩
      · rw [hother (hknown hmentions)] at hcall
        exact (h.known hmentions).1 call hcall
      · exact (h.known hmentions).2 n (Nat.le_of_succ_le hn)
    · have hmentions : σ.Mentions w.requestId := Mentions.hand hhand
      rw [hother (hknown hmentions)] at hcall
      exact h.tooLate hhand hqueue hfinal hcall
    · intro w hw hrid
      rw [hother (hrid ▸ h.undispatched w hw)] at hcall
      exact h.kept hcall hleft w hw hrid

/-- A handler that goes on and keeps what it has received, unless it leaves. -/
theorem Inv.proceed (h : Inv σ) {phase : StreamPhase} {f : StreamCall → StreamCall}
    (hphase : phase ≠ .left) (hf : ∀ call, call.phase = phase → (f call).request = call.request ∧
      (f call).phase ≠ .parsed ∧ ((f call).phase ≠ .left → ∀ w,
        w ∈ call.localQueue ∨ w ∈ call.written → w ∈ (f call).localQueue ∨ w ∈ (f call).written)) :
    Inv (σ.proceed rid phase f) := by
  -- the record of a call afterwards, and the record it comes from
  have hcalls {rid' : String} {call' : StreamCall}
      (hcall' : (σ.proceed rid phase f).streams.lookup rid' = some call') :
      ∃ call, σ.streams.lookup rid' = some call ∧
        (call' = call ∨ (call.phase = phase ∧ call' = f call)) := by
    unfold Server.proceed at hcall'
    rw [Table.lookup_modify] at hcall'
    split at hcall'
    · obtain ⟨call, hcall, rfl⟩ := Option.map_eq_some_iff.mp hcall'
      refine ⟨call, hcall, ?_⟩
      split
      · exact Or.inr ⟨‹_›, rfl⟩
      · exact Or.inl rfl
    · exact ⟨call', hcall', Or.inl rfl⟩
  refine ⟨h.between, fun hcall' => ?_, h.clients, h.events, fun hmentions => ?_,
    fun hhand hqueue hfinal call' hcall' => ?_, fun hcall' hleft => ?_⟩
  · obtain ⟨call, hcall, rfl | ⟨hcase, rfl⟩⟩ := hcalls hcall'
    · exact h.named hcall
    · rw [(hf call hcase).1]
      exact h.named hcall
  · refine ⟨fun call' hcall' => ?_, (h.known hmentions).2⟩
    obtain ⟨call, hcall, rfl | ⟨hcase, rfl⟩⟩ := hcalls hcall'
    · exact (h.known hmentions).1 _ hcall
    · exact (hf call hcase).2.1
  · obtain ⟨call, hcall, rfl | ⟨hcase, rfl⟩⟩ := hcalls hcall'
    · exact h.tooLate hhand hqueue hfinal hcall
    · exact absurd (hcase.symm.trans (h.tooLate hhand hqueue hfinal hcall)) hphase
  · obtain ⟨call, hcall, rfl | ⟨hcase, rfl⟩⟩ := hcalls hcall'
    · exact h.kept hcall hleft
    · intro w hw hrid hfinal
      refine (hf call hcase).2.2 hleft w (h.kept hcall ?_ w hw hrid hfinal)
      rw [hcase]
      exact hphase

/-- Messages with known identifiers may be sent to the heartbeat. -/
theorem Inv.enqueue (h : Inv σ) {ms : List Message} (hms : ∀ m ∈ ms, m.Within σ.Known) :
    Inv { σ with requestChannel := σ.requestChannel ++ ms } where
  between := h.between
  named := h.named
  clients := h.clients
  events := h.events
  known := by
    rintro rid (⟨m, hm, hid⟩ | hmentions)
    · rcases List.mem_append.mp hm with hm | hm
      · exact h.known (Mentions.message hm hid)
      · exact hms m hm rid hid
    · exact h.known (Or.inr hmentions)
  tooLate := h.tooLate
  kept := h.kept

/-- A handler that sends its request makes its identifier known. -/
theorem Inv.send (h : Inv σ) (rid : String) : Inv (σ.step env (.send rid)) := by
  have hproceed : Inv (σ.proceed rid .parsed fun call => { call with phase := .sent }) :=
    h.proceed (by decide) fun call _ => ⟨rfl, by simp, fun _ _ hw => hw⟩
  refine hproceed.enqueue fun m hm => ?_
  obtain ⟨call, hcall, rfl⟩ := List.mem_map.mp hm
  obtain ⟨hcall, hparsed⟩ := Option.filter_eq_some_iff.mp (Option.mem_toList.mp hcall)
  obtain ⟨hreq, n, hn, hrid⟩ := h.named hcall
  rintro id (hid | hid)
  · obtain rfl : rid = id := hreq.symm.trans (Option.some.inj hid)
    refine ⟨fun call' hcall' => ?_, fun k hk heq => ?_⟩
    · unfold Server.proceed at hcall'
      rw [Table.lookup_modify, if_pos rfl, hcall] at hcall'
      simp only [Option.map_some, Option.some.injEq] at hcall'
      simp [← hcall'] at hparsed ⊢
      simp [hparsed]
    · have hle : σ.ctr ≤ k := hk
      have heq' := generateRequestId_injective (hrid.symm.trans heq)
      omega
  · cases hid

/-- A handler that goes on draining has written all that it drained. -/
theorem writeDrained_stays {n : Nat} {ws : List WriteToClient}
    (h : (writeDrained n ws).2 = false) : (writeDrained n ws).1 = ws := by
  induction ws generalizing n with
  | nil => cases n <;> rfl
  | cons w ws ih =>
    cases n with
    | zero => cases h
    | succ n =>
      cases hfinal : w.isFinal with
      | true => simp [writeDrained, hfinal] at h
      | false =>
        simp only [writeDrained, hfinal, Bool.false_eq_true, if_false] at h ⊢
        rw [ih h]

/-- A round of the drain loop. -/
theorem Inv.drain (h : Inv σ) (rid : String) (accepted : Nat) :
    Inv (σ.step env (.drain rid accepted)) := by
  refine h.proceed (by decide) fun call hserving => ⟨rfl, ?_, fun hleft w hw => ?_⟩
  · unfold StreamCall.drain
    simp only
    split
    · simp
    · simp [hserving]
  · have hstays : (writeDrained accepted call.localQueue).2 = false := by
      by_contra hleaves
      exact hleft (if_pos (by simpa using hleaves))
    right
    change w ∈ call.written ++ (writeDrained accepted call.localQueue).1
    rw [writeDrained_stays hstays, List.mem_append]
    exact hw.symm

/-- A new client call has an identifier of its own kind. -/
theorem Inv.openClient (h : Inv σ) : Inv (σ.step env .openClient) := by
  have hdraw := h.draw
  refine ⟨hdraw.between, hdraw.named, fun {rid call} hcall => ?_, hdraw.events, hdraw.known,
    hdraw.tooLate, hdraw.kept⟩
  by_cases hrid : rid = generateRequestId "cli" σ.ctr
  · exact ⟨σ.ctr, hrid⟩
  · exact h.clients ((AList.lookup_insert_ne hrid).symm.trans hcall)

/-- A chunk of a client call carries its identifier. -/
theorem Inv.clientChunk (h : Inv σ) (rid : String) (req : TtsRequestMsg) :
    Inv (σ.step env (.clientChunk rid req)) := by
  refine h.enqueue fun m hm => ?_
  obtain ⟨call, hcall, rfl⟩ := List.mem_map.mp hm
  obtain ⟨n, hrid⟩ := h.clients (Option.mem_toList.mp hcall)
  rintro id (hid | hid)
  · obtain rfl : rid = id := Option.some.inj hid
    refine ⟨fun call hstream => ?_, fun k _ heq => ?_⟩
    · obtain ⟨-, k, -, hstrm⟩ := h.named hstream
      exact absurd (hstrm.symm.trans hrid) (generateRequestId_strm_ne_cli k n)
    · exact generateRequestId_strm_ne_cli k n (heq.symm.trans hrid)
  · cases hid

/-- A response that is handed over moves to the record of what has been dispatched. -/
theorem mentions_deliver (hhand : σ.inHand = some (w, addressee))
    (hmentions : (σ.deliver w addressee).Mentions rid) : σ.Mentions rid := by
  have hsame : (σ.deliver w addressee).requestChannel = σ.requestChannel ∧
      (σ.deliver w addressee).hb = σ.hb ∧ (σ.deliver w addressee).clientWrites = σ.clientWrites ∧
      (σ.deliver w addressee).inHand = none ∧ (σ.deliver w addressee).localJobs = σ.localJobs ∧
      (σ.deliver w addressee).dispatched = σ.dispatched ++ [w] := by
    cases addressee <;> exact ⟨rfl, rfl, rfl, rfl, rfl, rfl⟩
  obtain ⟨hchannel, hhb, hwrites, hnone, hjobs, hdispatched⟩ := hsame
  unfold Mentions at hmentions
  rw [hchannel, hhb, hwrites, hnone, hjobs, hdispatched] at hmentions
  rcases hmentions with
    ⟨m, hm, hid⟩ | ⟨p, hp⟩ | ⟨w', hw', rfl⟩ | ⟨w', a, hw', -⟩ | ⟨job, hjob, rfl⟩ | ⟨w', hw', rfl⟩
  · exact Mentions.message hm hid
  · exact Mentions.pending hp
  · exact Mentions.write hw'
  · cases hw'
  · exact Mentions.job hjob
  · rcases List.mem_append.mp hw' with hw' | hw'
    · exact Mentions.dispatched hw'
    · rw [List.mem_singleton.mp hw']
      exact Mentions.hand hhand

/-- A final response that goes elsewhere comes too late for its handler. -/
theorem Inv.kept_elsewhere (h : Inv σ) (hhand : σ.inHand = some (w, addressee))
    (hqueue : addressee ≠ .localQueue) {call : StreamCall}
    (hcall : σ.streams.lookup rid = some call) (hleft : call.phase ≠ .left) :
    ∀ w' ∈ σ.dispatched ++ [w], w'.requestId = rid → w'.isFinal = true →
      w' ∈ call.localQueue ∨ w' ∈ call.written := by
  intro w' hw' hrid hfinal
  rcases List.mem_append.mp hw' with hw' | hw'
  · exact h.kept hcall hleft w' hw' hrid hfinal
  · obtain rfl := List.mem_singleton.mp hw'
    exact absurd (h.tooLate hhand hqueue hfinal (hrid ▸ hcall)) hleft

/-- The record of a stream call after a response has gone to a queue. -/
theorem lookup_deliver_localQueue {call' : StreamCall}
    (hcall' : (σ.deliver w .localQueue).streams.lookup rid = some call') :
    ∃ call, σ.streams.lookup rid = some call ∧
      call' = if rid = w.requestId then { call with localQueue := call.localQueue ++ [w] }
        else call := by
  unfold Server.deliver at hcall'
  simp only [Table.lookup_modify] at hcall'
  split at hcall'
  · obtain ⟨call, hcall, rfl⟩ := Option.map_eq_some_iff.mp hcall'
    exact ⟨call, hcall, (if_pos ‹_›).symm⟩
  · exact ⟨call', hcall', (if_neg ‹_›).symm⟩

/-- A response goes to the queue of its handler. -/
theorem Inv.deliver_localQueue (h : Inv σ) (hhand : σ.inHand = some (w, .localQueue)) :
    Inv (σ.deliver w .localQueue) := by
  refine ⟨h.between, fun {rid call'} hcall' => ?_, h.clients, h.events,
    fun {rid} hmentions => ⟨fun call' hcall' => ?_, (h.known (mentions_deliver hhand hmentions)).2⟩,
    (fun hnone => by cases hnone), fun {rid call'} hcall' hleft w' hw' hrid hfinal => ?_⟩
  · obtain ⟨call, hcall, rfl⟩ := lookup_deliver_localQueue hcall'
    have hrequest : (if rid = w.requestId then { call with localQueue := call.localQueue ++ [w] }
        else call).request = call.request := by
      split <;> rfl
    rw [hrequest]
    exact h.named hcall
  · obtain ⟨call, hcall, rfl⟩ := lookup_deliver_localQueue hcall'
    have hparsed := (h.known (mentions_deliver hhand hmentions)).1 call hcall
    split <;> exact hparsed
  · obtain ⟨call, hcall, rfl⟩ := lookup_deliver_localQueue hcall'
    rcases List.mem_append.mp hw' with hw' | hw'
    · by_cases hid : rid = w.requestId
      · rw [if_pos hid] at hleft ⊢
        exact (h.kept hcall hleft w' hw' hrid hfinal).imp_left (List.mem_append_left _)
      · rw [if_neg hid] at hleft ⊢
        exact h.kept hcall hleft w' hw' hrid hfinal
    · obtain rfl := List.mem_singleton.mp hw'
      rw [if_pos hrid.symm]
      exact Or.inl (List.mem_append_right _ List.mem_cons_self)

/-- Handing over a response. -/
theorem Inv.deliver (h : Inv σ) (hhand : σ.inHand = some (w, addressee)) :
    Inv (σ.deliver w addressee) := by
  cases addressee with
  | localQueue => exact h.deliver_localQueue hhand
  | nobody =>
    exact ⟨h.between, h.named, h.clients, h.events,
      fun hmentions => h.known (mentions_deliver hhand hmentions),
      (fun hnone => by cases hnone), h.kept_elsewhere hhand (by decide)⟩
  | writer =>
    refine ⟨h.between, h.named, fun {rid call} hcall => ?_, h.events,
      fun hmentions => h.known (mentions_deliver hhand hmentions),
      (fun hnone => by cases hnone), h.kept_elsewhere hhand (by decide)⟩
    unfold Server.deliver at hcall
    simp only [Table.lookup_modify] at hcall
    split at hcall
    · obtain ⟨call', hcall', -⟩ := Option.map_eq_some_iff.mp hcall
      exact h.clients hcall'
    · exact h.clients hcall

/-- Looking up the addressee of the next response. A handler without a queue has not sent its
request, has sent it and not yet registered, or has left; the first is impossible because the
heartbeat knows the identifier. -/
theorem Inv.look (h : Inv σ) {ws : List WriteToClient} (hwrites : σ.clientWrites = w :: ws)
    (hintime : w.isFinal = true → ∀ call ∈ σ.streams.lookup w.requestId, call.phase ≠ .sent) :
    Inv { σ with clientWrites := ws, inHand := some (w, σ.lookup w.requestId) } := by
  have hfirst : w ∈ σ.clientWrites := hwrites ▸ List.mem_cons_self
  refine ⟨h.between, h.named, h.clients, h.events, ?_, ?_, h.kept⟩
  · rintro rid (⟨m, hm, hid⟩ | ⟨p, hp⟩ | ⟨w', hw', rfl⟩ | ⟨w', a, hw', rfl⟩ | ⟨job, hjob, rfl⟩ |
      ⟨w', hw', rfl⟩)
    · exact h.known (Mentions.message hm hid)
    · exact h.known (Mentions.pending hp)
    · have hold : w' ∈ σ.clientWrites := hwrites ▸ List.mem_cons_of_mem _ hw'
      exact h.known (Mentions.write hold)
    · obtain ⟨rfl, -⟩ := Prod.mk.inj (Option.some.inj hw')
      exact h.known (Mentions.write hfirst)
    · exact h.known (Mentions.job hjob)
    · exact h.known (Mentions.dispatched hw')
  · rintro w' addressee hw' hqueue hfinal call hcall
    obtain ⟨rfl, rfl⟩ := Prod.mk.inj (Option.some.inj hw')
    have hparsed : call.phase ≠ .parsed :=
      (h.known (Mentions.write hfirst)).1 call hcall
    have hsent : call.phase ≠ .sent := hintime hfinal call hcall
    have hnoqueue : ¬(call.phase = .queued ∨ call.phase = .serving) := by
      intro hphase
      refine hqueue (if_pos ?_)
      have hcall' : σ.streams.lookup w.requestId = some call := hcall
      simpa [hcall'] using hphase
    cases hphase : call.phase <;> simp_all

/-- Running the next job. Its answer carries the identifier of the job. -/
theorem Inv.job (h : Inv σ) {job : LocalSynthJob} {jobs : List LocalSynthJob}
    (hjobs : σ.localJobs = job :: jobs) :
    Inv { σ with
      localJobs := jobs
      requestChannel := σ.requestChannel ++
        (env.localEngine.map fun engine => runJob engine job).toList } := by
  have hfirst : job ∈ σ.localJobs := hjobs ▸ List.mem_cons_self
  have hknown : σ.Known job.requestId := h.known (Mentions.job hfirst)
  have hrest : Inv { σ with localJobs := jobs } := by
    refine ⟨h.between, h.named, h.clients, h.events, ?_, h.tooLate, h.kept⟩
    rintro rid (⟨m, hm, hid⟩ | ⟨p, hp⟩ | ⟨w, hw, rfl⟩ | ⟨w, a, hw, rfl⟩ | ⟨job', hjob', rfl⟩ |
      ⟨w, hw, rfl⟩)
    · exact h.known (Mentions.message hm hid)
    · exact h.known (Mentions.pending hp)
    · exact h.known (Mentions.write hw)
    · exact h.known (Mentions.hand hw)
    · have hold : job' ∈ σ.localJobs := hjobs ▸ List.mem_cons_of_mem _ hjob'
      exact h.known (Mentions.job hold)
    · exact h.known (Mentions.dispatched hw)
  refine hrest.enqueue fun m hm => ?_
  obtain ⟨engine, -, rfl⟩ := Option.map_eq_some_iff.mp (Option.mem_toList.mp hm)
  intro id hid
  have hjob : job.requestId = id := by
    unfold runJob at hid
    simp only at hid
    split at hid <;> simpa [Message.requestId?, Message.answerId?] using hid
  exact hjob ▸ hknown

/-- A tick of the heartbeat thread. -/
theorem Inv.tick (h : Inv σ) (hhand : σ.inHand = none) (startedAt now endedAt : TimePoint) :
    Inv (σ.tick env startedAt now endedAt) := by
  have hpending {rid : String} {p : PendingRequest} (hp : σ.hb.board.pending.get rid = some p) :
      σ.Known rid :=
    h.known (Mentions.pending hp)
  have hbatch : ∀ m ∈ TickInput.batch
      { requests := σ.requestChannel, events := σ.wsEventChannel, startedAt, now, endedAt },
      m.Within σ.Known := by
    intro m hm id hid
    rcases List.mem_append.mp hm with hm | hm
    · exact h.known (Mentions.message hm hid)
    · obtain ⟨rsp, rfl⟩ := h.events m hm
      rcases hid with hid | hid <;> cases hid
  -- nothing but these facts about the outcome of the tick matters
  unfold Server.tick
  generalize
    ({ requests := σ.requestChannel, events := σ.wsEventChannel, startedAt, now, endedAt } :
      TickInput) = inp at hbatch ⊢
  obtain ⟨hpending', hwrites, hjobs⟩ :=
    @Heartbeat.Within.tick env σ.hb σ.Known h.between hpending inp hbatch
  have hbetween := @BetweenTicks.tick env σ.hb h.between inp
  generalize Heartbeat.tick env inp σ.hb = r at hpending' hwrites hjobs hbetween ⊢
  refine ⟨hbetween, h.named, h.clients, fun m hm => absurd hm List.not_mem_nil, ?_,
    fun hsome => ?_, h.kept⟩
  · rintro rid (⟨m, hm, -⟩ | ⟨p, hp⟩ | ⟨w, hw, rfl⟩ | ⟨w, a, hw, -⟩ | ⟨job, hjob, rfl⟩ |
      ⟨w, hw, rfl⟩)
    · exact absurd hm List.not_mem_nil
    · exact hpending' hp
    · exact hwrites w hw
    · cases hhand.symm.trans hw
    · exact hjobs job hjob
    · exact h.known (Mentions.dispatched hw)
  · cases hhand.symm.trans hsome

/-- The heartbeat thread keeps the invariant if it does not look up a response too early. -/
theorem Inv.advance (h : Inv σ) {startedAt now endedAt : TimePoint}
    (hintime : RegisteredInTime σ (.advance startedAt now endedAt)) :
    Inv (σ.advance env startedAt now endedAt) := by
  unfold Server.advance
  split
  · exact h.deliver ‹_›
  · rename_i hhand
    split
    · rename_i w ws hwrites
      exact h.look hwrites (hintime hhand w (by rw [hwrites]; rfl))
    · split
      · exact h.job ‹_›
      · exact h.tick hhand startedAt now endedAt

/-- Every move that registers queues in time keeps the invariant. -/
theorem Inv.step (h : Inv σ) (ev : ServerEvent) (hintime : RegisteredInTime σ ev) :
    Inv (σ.step env ev) := by
  cases ev with
  | openStream parsed => exact h.openStream parsed
  | send rid => exact h.send rid
  | registerQueue rid =>
    exact h.proceed (by decide) fun call _ => ⟨rfl, by simp, fun _ _ hw => hw⟩
  | registerWriter rid =>
    exact h.proceed (by decide) fun call _ => ⟨rfl, by simp, fun _ _ hw => hw⟩
  | drain rid accepted => exact h.drain rid accepted
  | abandon rid => exact h.proceed (by decide) fun call _ => ⟨rfl, by simp, fun _ _ hw => hw⟩
  | openClient => exact h.openClient
  | clientChunk rid req => exact h.clientChunk rid req
  | upstreamEvent rsp =>
    refine ⟨h.between, h.named, h.clients, fun m hm => ?_, h.known, h.tooLate, h.kept⟩
    rcases List.mem_append.mp hm with hm | hm
    · exact h.events m hm
    · exact ⟨rsp, List.mem_singleton.mp hm⟩
  | advance startedAt now endedAt => exact h.advance hintime

/-- A new server knows no identifier. -/
theorem start_inv (maxSize : Nat) (idleTimeout maxLifetime : Duration) :
    Inv { hb := start maxSize idleTimeout maxLifetime } where
  between := start_betweenTicks maxSize idleTimeout maxLifetime
  named := fun hcall => by cases hcall
  clients := fun hcall => by cases hcall
  events := fun m hm => absurd hm List.not_mem_nil
  known := by
    rintro rid (⟨m, hm, -⟩ | ⟨p, hp⟩ | ⟨w, hw, -⟩ | ⟨w, a, hw, -⟩ | ⟨job, hjob, -⟩ | ⟨w, hw, -⟩)
    · exact absurd hm List.not_mem_nil
    · cases hp
    · exact absurd hw List.not_mem_nil
    · cases hw
    · exact absurd hjob List.not_mem_nil
    · exact absurd hw List.not_mem_nil
  tooLate := fun hhand => by cases hhand
  kept := fun hcall => by cases hcall

/-- **No final response is lost**, in any interleaving of any number of calls, as long as the
heartbeat thread does not look up a final response for a handler that has sent its request and
has not yet registered its queue. -/
theorem final_response_not_lost (env : Env) (maxSize : Nat) (idleTimeout maxLifetime : Duration)
    {events : List ServerEvent}
    (hintime : Along (step env) RegisteredInTime
      { hb := start maxSize idleTimeout maxLifetime } events) :
    (run env { hb := start maxSize idleTimeout maxLifetime } events).KeepsFinal := by
  have hstart := start_inv maxSize idleTimeout maxLifetime
  have hend := (hintime.invariant hstart fun σ ev hinv hev => hinv.step ev hev).2
  exact hend.keepsFinal

/-- A stream call whose handler registers its queue before the heartbeat thread answers. -/
def promptRun : List ServerEvent :=
  [.openStream (some { requestId := "", text := "hi" }), .send "strm-1", .advance 0 0 0,
    .registerQueue "strm-1", .registerWriter "strm-1", .advance 0 0 0, .advance 0 0 0,
    .advance 0 0 0, .advance 0 0 0]

/-- Here the final response is dispatched, and the handler finds it in its queue. -/
theorem final_response_not_lost_promptRun :
    let σ := run sampleLocalEnv { hb := start 16 (seconds 60) (seconds 3600) } promptRun
    σ.KeepsFinal ∧ σ.dispatched.map (fun w => (w.requestId, w.isFinal)) = [("strm-1", true)] :=
  ⟨final_response_not_lost sampleLocalEnv 16 (seconds 60) (seconds 3600) (by decide +kernel),
    by decide +kernel⟩

/-- The same stream call, with a handler that is slow to register its queue. -/
def lateRun : List ServerEvent :=
  [.openStream (some { requestId := "", text := "hi" }), .send "strm-1", .advance 0 0 0,
    .advance 0 0 0, .advance 0 0 0, .advance 0 0 0, .advance 0 0 0]

/-- The final response is dropped while the handler is about to register its queue, in which it
will wait for that response. -/
theorem lateRun_loses_final :
    ¬(run sampleLocalEnv { hb := start 16 (seconds 60) (seconds 3600) } lateRun).KeepsFinal := by
  have hstate : ((run sampleLocalEnv { hb := start 16 (seconds 60) (seconds 3600) }
      lateRun).streams.lookup "strm-1").map (fun call =>
        (call.phase, call.localQueue.length, call.written.length)) = some (.sent, 0, 0) := by
    decide +kernel
  have hdispatched : (run sampleLocalEnv { hb := start 16 (seconds 60) (seconds 3600) }
      lateRun).dispatched.map (fun w => (w.requestId, w.isFinal)) = [("strm-1", true)] := by
    decide +kernel
  intro hkeeps
  obtain ⟨call, hcall, hfields⟩ := Option.map_eq_some_iff.mp hstate
  simp only [Prod.mk.injEq, List.length_eq_zero_iff] at hfields
  obtain ⟨hphase, hqueue, hwritten⟩ := hfields
  obtain ⟨w, hw, hfinal⟩ := List.mem_map.mp (hdispatched ▸ List.mem_cons_self)
  simp only [Prod.mk.injEq] at hfinal
  have hlost := hkeeps "strm-1" call hcall (by simp [hphase]) (by simp [hphase]) w hw hfinal.1
    hfinal.2
  simp [hqueue, hwritten] at hlost

end Server

end TtsServer
