import TtsServer.Reception
import TtsServer.UpstreamDelivery

/-!
# Assembly of the audio of a request

A streaming request that one session works for receives every chunk of that session,
in the order in which they are handled and however the messages are cut into ticks,
and is answered once, at the end of the tick that brings the final chunk. What could
interfere is a message for the request, the end or the reuse of the session, and a
session created under the same identifier.
-/

namespace TtsServer

open Lib History

/-- The event of a message that brings audio on a session. -/
def Message.chunkOn? (sid : String) : Message → Option TtsResponseMsg
  | .response e => if e.kind = .audioChunk ∧ e.sessionId = sid then some e else none
  | _ => none

/-- The chunks of a session among some messages, in order. -/
def chunksOn (sid : String) (ms : List Message) : List TtsResponseMsg :=
  ms.filterMap (Message.chunkOn? sid)

namespace Heartbeat

/-- The chunk that a message hands to a request. -/
def heardFrom (hb : Heartbeat) (rid : String) : Message → List TtsResponseMsg
  | .response e => if e.kind = .audioChunk ∧ hb.feeds rid e.sessionId = true then [e] else []
  | _ => []

/-- The chunks that a batch hands to a request. -/
def received (env : Env) (rid : String) : Heartbeat → List Message → List TtsResponseMsg
  | _, [] => []
  | hb, m :: ms => hb.heardFrom rid m ++ received env rid (handleMessage env hb m) ms

/-- A message that spares a request and its session hands the request at most a chunk. -/
theorem Heard.message {env : Env} {hb : Heartbeat} {rid : String} {p : PendingRequest}
    {chunks : List TtsResponseMsg} {m : Message} (h : Heard rid p chunks hb)
    (hpool : hb.board.sessionPool.WellKeyed) (hm : Spares rid p.sessionId m) :
    Heard rid p (chunks ++ hb.heardFrom rid m) (handleMessage env hb m) := by
  have hanswer : ∀ w, answerWrite m = some w → Heard rid p chunks (handleMessage env hb m) := by
    intro w hw
    obtain ⟨hid, heffect⟩ := @answer_effect env hb m w hw
    have hother : rid ≠ w.requestId := fun heq => hm.answer (heq ▸ hid)
    rw [Heard, heffect.pending, PendingRequestStore.get_remove, if_neg hother]
    exact h
  cases m with
  | request req =>
    have hother : rid ≠ req.requestId := fun heq => hm.request (congrArg some heq.symm)
    rw [heardFrom, List.append_nil, Heard, handleMessage, (handleRequest_frame hpool).others hother]
    · exact h
    · simp
  | response e =>
    refine h.response (Bool.eq_false_iff.mpr fun hends => ?_)
    simp only [TtsResponseMsg.ends, Bool.and_eq_true, decide_eq_true_eq, Bool.or_eq_true] at hends
    obtain ⟨hfailed, hdisconnected⟩ := hm.response e rfl hends.1
    exact hends.2.elim hfailed hdisconnected
  | cancel msg =>
    have hother : rid ≠ msg.requestId := fun heq => hm.cancel (congrArg some heq.symm)
    simp only [heardFrom, List.append_nil]
    rw [Heard, handleMessage, handleCancel_get_pending, if_neg hother]
    exact h
  | localComplete c =>
    simp only [heardFrom, List.append_nil]
    exact hanswer _ rfl
  | localFailed f =>
    simp only [heardFrom, List.append_nil]
    exact hanswer _ rfl

/-- A message that leaves a request alone and does not make its session ready again. -/
structure Leaves (rid sid : String) (m : Message) : Prop extends Spares rid sid m where
  connected : ∀ rsp, m = .response rsp → rsp.sessionId = sid → rsp.kind ≠ .connected

/-- If the message draws a session identifier, no session has it. -/
def DrawsFresh (env : Env) (hb : Heartbeat) (m : Message) : Prop :=
  (handleMessage env hb m).rngDraws ≠ hb.rngDraws →
    hb.board.sessionPool.get (generateSessionId (env.rng hb.rngDraws)) = none

instance (env : Env) (hb : Heartbeat) (m : Message) : Decidable (DrawsFresh env hb m) :=
  inferInstanceAs (Decidable (_ → _))

/-- Every session identifier drawn in a run is new. -/
def RunDrawsFresh (env : Env) (hb : Heartbeat) (inputs : List TickInput) : Prop :=
  Along (fun hb inp => (tick env inp hb).2)
    (fun hb inp => Along (handleMessage env) (DrawsFresh env) hb.beginTick inp.batch) hb inputs

/-- A board on which one session works for a streaming request: `p` is the record of the
request without the chunks it has received, `s` the record of the session at first. -/
structure Assembles (rid sid : String) (p : PendingRequest) (s : SessionRecord)
    (maxLifetime : Duration) (chunks : List TtsResponseMsg) (hb : Heartbeat) : Prop where
  wellKeyed : hb.board.sessionPool.WellKeyed
  maxLifetime : hb.board.sessionPool.maxLifetime = maxLifetime
  heard : Heard rid p chunks hb
  session : ∃ s', hb.board.sessionPool.get sid = some s' ∧ s'.currentRequestId = rid ∧
    s'.createdAt = s.createdAt ∧ s'.state ≠ .ready ∧ s'.failedOrClosed = false
  only : ∀ {sid' s'}, hb.board.sessionPool.get sid' = some s' → s'.currentRequestId = rid →
    sid' = sid
  unwritten : ∀ w ∈ hb.changeset.clientWrites, w.requestId ≠ rid

variable {env : Env} {hb : Heartbeat} {rid sid : String} {p : PendingRequest} {s : SessionRecord}
  {maxLifetime : Duration} {chunks : List TtsResponseMsg} {m : Message} {inp : TickInput}

/-- The session is the only one that feeds the request. -/
theorem Assembles.feeds_iff (h : Assembles rid sid p s maxLifetime chunks hb) (hrid : rid ≠ "")
    {sid' : String} : hb.feeds rid sid' = true ↔ sid' = sid := by
  rw [Heartbeat.feeds_iff]
  constructor
  · rintro ⟨-, s', hs', hcurrent⟩
    exact h.only hs' hcurrent
  · rintro rfl
    obtain ⟨s', hs', hcurrent, -⟩ := h.session
    exact ⟨hrid, s', hs', hcurrent⟩

/-- A request for someone else does not interfere with the session. -/
theorem Assembles.request (h : Assembles rid sid p s maxLifetime chunks hb) (hrid : rid ≠ "")
    {req : TtsRequestMsg} (hother : req.requestId ≠ rid)
    (hfresh : DrawsFresh env hb (.request req))
    (hheard : Heard rid p chunks (handleRequest env req hb)) :
    Assembles rid sid p s maxLifetime chunks (handleRequest env req hb) := by
  have hframe := @handleRequest_frame env hb req h.wellKeyed
  obtain ⟨s', hs', hcurrent, hcreated, hready, hsound⟩ := h.session
  exact
    { wellKeyed := hframe.wellKeyed
      maxLifetime := (handleMessage_maxLifetime (.request req)).trans h.maxLifetime
      heard := hheard
      session := by
        refine ⟨s', hframe.busy hs' hready fun hdraws heq => ?_, hcurrent, hcreated, hready, hsound⟩
        have hnone := hfresh hdraws
        rw [heq, hs'] at hnone
        cases hnone
      only := by
        intro sid' s'' hs'' hcurrent''
        rcases hframe.current hs'' with heq | heq | ⟨s₀, hs₀, heq⟩
        · exact absurd (heq.symm.trans hcurrent'') hother
        · exact absurd (hcurrent''.symm.trans heq) hrid
        · exact h.only hs₀ (heq.symm.trans hcurrent'')
      unwritten := by
        rw [hframe.clientWrites]
        exact h.unwritten }

/-- An upstream event that leaves the session in use does not interfere with it. -/
theorem Assembles.response (h : Assembles rid sid p s maxLifetime chunks hb) (hrid : rid ≠ "")
    {e : TtsResponseMsg} (hm : Leaves rid sid (.response e)) {chunks' : List TtsResponseMsg}
    (hheard : Heard rid p chunks' (handleResponse env e hb)) :
    Assembles rid sid p s maxLifetime chunks' (handleResponse env e hb) where
  wellKeyed := handleResponse_wellKeyed h.wellKeyed
  maxLifetime := (handleMessage_maxLifetime (.response e)).trans h.maxLifetime
  heard := hheard
  session := by
    obtain ⟨s', hs', hcurrent, hcreated, hready, hsound⟩ := h.session
    refine ⟨s', ?_, hcurrent, hcreated, hready, hsound⟩
    rw [handleResponse_get_session]
    by_cases hsid : sid = e.sessionId
    · obtain ⟨hfailed, hdisconnected⟩ := hm.response e rfl hsid.symm
      have hconnected := hm.connected e rfl hsid.symm
      cases hkind : e.kind <;> simp_all
    · cases e.kind <;> simp [hsid, hs']
  only := by
    intro sid' s'' hs'' hcurrent
    have hfeeds : (handleResponse env e hb).feeds rid sid' = true :=
      Heartbeat.feeds_iff.mpr ⟨hrid, s'', hs'', hcurrent⟩
    rw [handleResponse_feeds, Bool.and_eq_true] at hfeeds
    exact (h.feeds_iff hrid).mp hfeeds.1
  unwritten := by
    rw [handleResponse_quiet.changeset]
    exact h.unwritten

/-- An answer for someone else does not interfere with the session. -/
theorem Assembles.answer (h : Assembles rid sid p s maxLifetime chunks hb) {w : WriteToClient}
    {hb' : Heartbeat} (hother : w.requestId ≠ rid) (heffect : Answered w.requestId w hb hb')
    (hmaxLifetime : hb'.board.sessionPool.maxLifetime = maxLifetime)
    (hheard : Heard rid p chunks hb') : Assembles rid sid p s maxLifetime chunks hb' where
  wellKeyed := heffect.sessionPool ▸ h.wellKeyed
  maxLifetime := hmaxLifetime
  heard := hheard
  session := heffect.sessionPool ▸ h.session
  only := heffect.sessionPool ▸ h.only
  unwritten := by
    intro w' hw'
    rw [heffect.changeset, List.mem_append, List.mem_singleton] at hw'
    rcases hw' with hw' | rfl
    · exact h.unwritten w' hw'
    · exact hother

/-- A message that leaves the request alone hands it at most a chunk of its session. -/
theorem Assembles.message (h : Assembles rid sid p s maxLifetime chunks hb) (hrid : rid ≠ "")
    (hsession : p.sessionId = sid) (hm : Leaves rid sid m) (hfresh : DrawsFresh env hb m) :
    Assembles rid sid p s maxLifetime (chunks ++ (m.chunkOn? sid).toList)
      (handleMessage env hb m) := by
  have hheard := @Heard.message env hb rid p chunks m h.heard h.wellKeyed (hsession ▸ hm.toSpares)
  have hchunk : hb.heardFrom rid m = (m.chunkOn? sid).toList := by
    cases m with
    | response e =>
      simp only [heardFrom, Message.chunkOn?, h.feeds_iff hrid]
      split <;> rfl
    | _ => rfl
  rw [hchunk] at hheard
  have hanswer : ∀ w, answerWrite m = some w → Heard rid p chunks (handleMessage env hb m) →
      Assembles rid sid p s maxLifetime chunks (handleMessage env hb m) := by
    intro w hw
    obtain ⟨hid, heffect⟩ := @answer_effect env hb m w hw
    exact h.answer (fun heq => hm.answer (heq ▸ hid)) heffect
      ((handleMessage_maxLifetime m).trans h.maxLifetime)
  cases m with
  | request req =>
    simp only [Message.chunkOn?, Option.toList_none, List.append_nil] at hheard ⊢
    exact h.request hrid (fun heq => hm.request (congrArg some heq)) hfresh hheard
  | response e => exact h.response hrid hm hheard
  | cancel msg =>
    simp only [Message.chunkOn?, Option.toList_none, List.append_nil] at hheard ⊢
    exact { h with heard := hheard }
  | localComplete c =>
    simp only [Message.chunkOn?, Option.toList_none, List.append_nil] at hheard ⊢
    exact hanswer _ rfl hheard
  | localFailed f =>
    simp only [Message.chunkOn?, Option.toList_none, List.append_nil] at hheard ⊢
    exact hanswer _ rfl hheard

/-- The messages of a batch hand the request their chunks in order. -/
theorem Assembles.batch {ms : List Message} (h : Assembles rid sid p s maxLifetime chunks hb)
    (hrid : rid ≠ "") (hsession : p.sessionId = sid) (hms : ∀ m ∈ ms, Leaves rid sid m)
    (hfresh : Along (handleMessage env) (DrawsFresh env) hb ms) :
    Assembles rid sid p s maxLifetime (chunks ++ chunksOn sid ms)
      (ms.foldl (handleMessage env) hb) := by
  induction ms generalizing hb chunks with
  | nil => simpa [chunksOn] using h
  | cons m ms ih =>
    have hnext := h.message hrid hsession (hms m List.mem_cons_self) hfresh.1
    have hrest := ih hnext (fun m' hm' => hms m' (List.mem_cons_of_mem _ hm')) hfresh.2
    have hchunks : chunksOn sid (m :: ms) = (m.chunkOn? sid).toList ++ chunksOn sid ms := by
      cases hm : m.chunkOn? sid <;> simp [chunksOn, hm]
    rwa [hchunks, ← List.append_assoc]

/-- The end of a tick that has not brought the final chunk. -/
theorem Assembles.finish (h : Assembles rid sid p s maxLifetime chunks hb)
    (hstreaming : p.state = .streaming) (hincomplete : ¬p.Completed chunks)
    (halive : inp.now - s.createdAt < maxLifetime) :
    Assembles rid sid p s maxLifetime chunks (finishTick inp hb).2 where
  wellKeyed := finishTick_wellKeyed h.wellKeyed
  maxLifetime := by
    rw [finishTick_board.2.1, evolved, evolve_maxLifetime, emitReady_emitted.bounds.2.2]
    exact h.maxLifetime
  heard := h.heard.kept hstreaming hincomplete
  session := by
    obtain ⟨s', hs', hcurrent, hcreated, hready, hsound⟩ := h.session
    obtain ⟨s'', hs'', hcurrent', hcreated', hready', hsound'⟩ : ∃ s'',
        (emitReady hb).board.sessionPool.get sid = some s'' ∧
          s''.currentRequestId = s'.currentRequestId ∧ s''.createdAt = s'.createdAt ∧
          s''.state ≠ .ready ∧ s''.failedOrClosed = false := by
      rw [emitReady_emitted.session, hs', Option.map_some]
      split
      · exact ⟨_, rfl, rfl, rfl, by simp, rfl⟩
      · exact ⟨_, rfl, rfl, rfl, hready, hsound⟩
    refine ⟨s'', (finishTick_get_session h.wellKeyed).mpr ⟨hs'', ?_⟩, hcurrent'.trans hcurrent,
      hcreated'.trans hcreated, hready', hsound'⟩
    rintro (⟨-, hfailed⟩ | hlifetime | hidle)
    · rw [hsound'] at hfailed
      cases hfailed
    · rw [emitReady_lifetimeExpired, SessionPool.lifetimeExpired, decide_eq_true_eq,
        h.maxLifetime, hcreated', hcreated] at hlifetime
      exact absurd halive (not_lt.mpr hlifetime)
    · simp [SessionPool.idleExpired, hready'] at hidle
  only := by
    intro sid' s'' hs'' hcurrent
    have hemitted := ((finishTick_get_session h.wellKeyed).mp hs'').1
    rw [emitReady_emitted.session] at hemitted
    obtain ⟨s', hs', rfl⟩ := Option.map_eq_some_iff.mp hemitted
    refine h.only hs' ?_
    rw [← hcurrent]
    split <;> rfl
  unwritten := fun w hw => absurd hw List.not_mem_nil

/-- The writes for the request at the end of a tick: one if the final chunk has come. -/
theorem Assembles.writes (h : Assembles rid sid p s maxLifetime chunks hb)
    (hstreaming : p.state = .streaming) :
    (finishTick inp hb).1.clientWrites.filter (fun w => w.requestId = rid) =
      if p.Completed chunks then [completedWrite rid (p.hear chunks)] else [] := by
  obtain ⟨q, hq, huntimed⟩ := Option.map_eq_some_iff.mp h.heard
  have hwrite : completedWrite rid q = completedWrite rid (p.hear chunks) := by
    rw [← huntimed]
    rfl
  have hearlier : hb.changeset.clientWrites.filter (fun w => w.requestId = rid) = [] := by
    rw [List.filter_eq_nil_iff]
    intro w hw
    simpa using h.unwritten w hw
  have hemitted : ((emissions hb).map fun e => completedWrite e.1 e.2).filter
      (fun w => w.requestId = rid) =
        ((emissions hb).filter fun e => e.1 = rid).map fun e => completedWrite e.1 e.2 := by
    rw [List.filter_map]
    rfl
  have hready := readyToEmit_iff huntimed hstreaming
  rw [finishTick_clientWrites, List.filter_append, hearlier, hemitted, filter_emissions hq,
    List.nil_append, ← hwrite]
  by_cases hcompleted : p.Completed chunks
  · rw [if_pos hcompleted, if_pos (hready.mpr hcompleted)]
    rfl
  · rw [if_neg hcompleted, if_neg fun h => hcompleted (hready.mp h)]
    rfl

/-- The start of a tick does not interfere. -/
theorem Assembles.begin (h : Assembles rid sid p s maxLifetime chunks hb) :
    Assembles rid sid p s maxLifetime chunks hb.beginTick :=
  { h with }

/-- A tick whose messages leave the request alone, up to its end. -/
theorem Assembles.midTick (h : Assembles rid sid p s maxLifetime chunks hb) (hrid : rid ≠ "")
    (hsession : p.sessionId = sid) (hleaves : ∀ m ∈ inp.batch, Leaves rid sid m)
    (hfresh : Along (handleMessage env) (DrawsFresh env) hb.beginTick inp.batch) :
    Assembles rid sid p s maxLifetime (chunks ++ chunksOn sid inp.batch)
      (midTick env hb inp.batch) :=
  h.begin.batch hrid hsession hleaves hfresh

/-- Ticks without the final chunk write nothing for the request and hand it their chunks. -/
theorem Assembles.run {inputs : List TickInput} (h : Assembles rid sid p s maxLifetime chunks hb)
    (hrid : rid ≠ "") (hsession : p.sessionId = sid) (hstreaming : p.state = .streaming)
    (hleaves : ∀ m ∈ messagesOf inputs, Leaves rid sid m)
    (hfresh : RunDrawsFresh env hb inputs)
    (halive : ∀ inp ∈ inputs, inp.now - s.createdAt < maxLifetime)
    (hincomplete : ¬p.Completed (chunks ++ chunksOn sid (messagesOf inputs))) :
    (∀ cs ∈ (run env hb inputs).1, ∀ w ∈ cs.clientWrites, w.requestId ≠ rid) ∧
      Assembles rid sid p s maxLifetime (chunks ++ chunksOn sid (messagesOf inputs))
        (run env hb inputs).2 := by
  induction inputs generalizing hb chunks with
  | nil => exact ⟨fun cs hcs => absurd hcs List.not_mem_nil, by
    simpa [messagesOf, chunksOn, Heartbeat.run] using h⟩
  | cons inp inputs ih =>
    rw [messagesOf_cons] at hleaves
    have hchunks : chunks ++ chunksOn sid (messagesOf (inp :: inputs)) =
        (chunks ++ chunksOn sid inp.batch) ++ chunksOn sid (messagesOf inputs) := by
      rw [messagesOf_cons, chunksOn, chunksOn, chunksOn, List.filterMap_append, List.append_assoc]
    rw [hchunks] at hincomplete ⊢
    have hmid := h.midTick hrid hsession (fun m hm => hleaves m (List.mem_append_left _ hm))
      hfresh.1
    have hnot : ¬p.Completed (chunks ++ chunksOn sid inp.batch) :=
      fun hcompleted => hincomplete (hcompleted.mono (List.sublist_append_left _ _))
    have hwrites := @Assembles.writes _ _ _ _ _ _ _ inp hmid hstreaming
    rw [if_neg hnot, List.filter_eq_nil_iff] at hwrites
    have hnext := hmid.finish hstreaming hnot (halive inp List.mem_cons_self)
    obtain ⟨hrest, hend⟩ := ih hnext (fun m hm => hleaves m (List.mem_append_right _ hm)) hfresh.2
      (fun inp' hinp' => halive inp' (List.mem_cons_of_mem _ hinp')) hincomplete
    rw [run_cons]
    refine ⟨fun cs hcs => ?_, hend⟩
    rcases List.mem_cons.mp hcs with rfl | hcs
    · intro w hw heq
      exact hwrites w hw (decide_eq_true heq)
    · exact hrest cs hcs

/-- A board between ticks on which one session works for a streaming request that has not
received anything yet. -/
structure Streams (rid sid : String) (p : PendingRequest) (s : SessionRecord) (hb : Heartbeat) :
    Prop where
  wellKeyed : hb.board.sessionPool.WellKeyed
  collected : hb.changeset.clientWrites = []
  pending : hb.board.pending.get rid = some p
  streaming : p.state = .streaming
  empty : p.accumulatedAudio = [] ∧ p.finalReceived = false
  bound : p.sessionId = sid
  session : hb.board.sessionPool.get sid = some s
  inUse : s.state = .connecting ∨ s.state = .streaming
  current : s.currentRequestId = rid
  only : ∀ {sid' s'}, hb.board.sessionPool.get sid' = some s' → s'.currentRequestId = rid →
    sid' = sid

/-- A run in which nothing happens to a request but the chunks of its session. -/
structure Undisturbed (env : Env) (hb : Heartbeat) (rid sid : String) (s : SessionRecord)
    (inputs : List TickInput) : Prop where
  leaves : ∀ m ∈ messagesOf inputs, Leaves rid sid m
  fresh : RunDrawsFresh env hb inputs
  alive : ∀ inp ∈ inputs, hb.board.sessionPool.lifetimeExpired inp.now s = false

/-- A request that streams from a session has received nothing yet. -/
theorem Streams.assembles (h : Streams rid sid p s hb) :
    Assembles rid sid p s hb.board.sessionPool.maxLifetime [] hb where
  wellKeyed := h.wellKeyed
  maxLifetime := rfl
  heard := by rw [Heard, h.pending, Option.map_some, PendingRequest.hear_nil]
  session := by
    refine ⟨s, h.session, h.current, rfl, ?_, ?_⟩
    · rcases h.inUse with hstate | hstate <;> simp [hstate]
    · rcases h.inUse with hstate | hstate <;> simp [SessionRecord.failedOrClosed, hstate]
  only := h.only
  unwritten := by simp [h.collected]

/-- Chunk assembly: however the messages are cut into ticks, the first tick with a final chunk
on the session writes once for the request, with the audio of all chunks of the session so
far, and no earlier tick writes for it. -/
theorem chunk_assembly (env : Env) (hb : Heartbeat) (rid sid : String) (p : PendingRequest)
    (s : SessionRecord) (before : List TickInput) (inp : TickInput) (hrid : rid ≠ "")
    (hstreams : Streams rid sid p s hb)
    (hundisturbed : Undisturbed env hb rid sid s (before ++ [inp]))
    (hnotYet : ∀ e ∈ chunksOn sid (messagesOf before), e.isFinal = false)
    (hfinal : ∃ e ∈ chunksOn sid inp.batch, e.isFinal = true) :
    (∀ cs ∈ (run env hb before).1, ∀ w ∈ cs.clientWrites, w.requestId ≠ rid) ∧
      ∃ w, (tick env inp (run env hb before).2).1.clientWrites.filter
          (fun w => w.requestId = rid) = [w] ∧
        w.audio = (chunksOn sid (messagesOf (before ++ [inp]))).flatMap
          fun e => hexDecode e.audioHex := by
  obtain ⟨hleaves, hfresh, halive⟩ := hundisturbed
  have hmessages : messagesOf (before ++ [inp]) = messagesOf before ++ inp.batch := by
    rw [messagesOf_append, messagesOf_cons]
    exact congrArg _ (List.append_nil _)
  rw [hmessages] at hleaves ⊢
  obtain ⟨hfresh, hfresh', -⟩ := along_append.mp hfresh
  have hincomplete : ¬p.Completed ([] ++ chunksOn sid (messagesOf before)) := by
    rintro (hreceived | ⟨e, he, hlast⟩)
    · rw [hstreams.empty.2] at hreceived
      cases hreceived
    · rw [hnotYet e he] at hlast
      cases hlast
  obtain ⟨hsilent, hend⟩ := hstreams.assembles.run hrid hstreams.bound hstreams.streaming
    (fun m hm => hleaves m (List.mem_append_left _ hm)) hfresh
    (fun i hi => by simpa [SessionPool.lifetimeExpired] using halive i (List.mem_append_left _ hi))
    hincomplete
  rw [← run_eq_foldl] at hfresh'
  have hmid := hend.midTick hrid hstreams.bound
    (fun m hm => hleaves m (List.mem_append_right _ hm)) hfresh'
  have hcompleted : p.Completed
      ([] ++ chunksOn sid (messagesOf before) ++ chunksOn sid inp.batch) := by
    obtain ⟨e, he, hlast⟩ := hfinal
    exact Or.inr ⟨e, List.mem_append_right _ he, hlast⟩
  have hwrites := @Assembles.writes _ _ _ _ _ _ _ inp hmid hstreams.streaming
  rw [if_pos hcompleted] at hwrites
  refine ⟨hsilent, _, hwrites, ?_⟩
  simp only [completedWrite, PendingRequest.hear, PendingRequest.untimed, hstreams.empty.1,
    chunksOn, List.filterMap_append, List.nil_append]
  rfl

/-- A board with one session that works for one streaming request. -/
def streamingBoard (rid : String) : Heartbeat :=
  let hb := start 16 (seconds 60) (seconds 3600)
  { hb with
    board.sessionPool := (hb.board.sessionPool.add
      { sessionId := "s", state := .streaming, currentRequestId := rid }).2
    board.pending := hb.board.pending.add
      { requestId := rid, sessionId := "s", state := .streaming } 0 }

/-- The sample board meets the premises of chunk assembly. -/
theorem streamingBoard_streams (rid : String) :
    Streams rid "s" { requestId := rid, sessionId := "s", state := .streaming }
      { sessionId := "s", state := .streaming, currentRequestId := rid } (streamingBoard rid) := by
  have hget (sid : String) : (streamingBoard rid).board.sessionPool.get sid =
      if sid = "s" then some { sessionId := "s", state := .streaming, currentRequestId := rid }
      else none :=
    SessionPool.get_add
      (s := { sessionId := "s", state := .streaming, currentRequestId := rid }) rfl
  exact
    { wellKeyed := (start_poolWf 16 (seconds 60) (seconds 3600)).wellKeyed.add
      collected := rfl
      pending := PendingRequestStore.get_add.trans (if_pos rfl)
      streaming := rfl
      empty := ⟨rfl, rfl⟩
      bound := rfl
      session := hget "s"
      inUse := Or.inr rfl
      current := rfl
      only := by
        intro sid' s' hs' _
        rw [hget] at hs'
        split at hs'
        · assumption
        · cases hs' }

/-- A chunk leaves every request alone. -/
theorem leaves_chunk {e : TtsResponseMsg} (hkind : e.kind = .audioChunk) :
    Leaves rid sid (.response e) where
  request := by simp [Message.requestId?]
  answer := by simp [Message.answerId?]
  cancel := by simp [Message.cancelId?]
  response := by
    rintro rsp ⟨⟩ -
    simp [hkind]
  connected := by
    rintro rsp ⟨⟩ -
    simp [hkind]

/-- A tick with a chunk. -/
def firstChunk : TickInput :=
  { events := [.response { sessionId := "s", audioHex := ascii "0a" }] }

/-- A tick with the final chunk, followed by another. -/
def lastChunks : TickInput :=
  { events := [.response { sessionId := "s", audioHex := ascii "0b", isFinal := true },
      .response { sessionId := "s", audioHex := ascii "0c" }] }

/-- The sample ticks meet the premises of chunk assembly. -/
theorem chunks_undisturbed (rid : String) :
    Undisturbed sampleEnv (streamingBoard rid) rid "s"
      { sessionId := "s", state := .streaming, currentRequestId := rid }
      [firstChunk, lastChunks] where
  leaves := by
    intro m hm
    simp only [firstChunk, lastChunks, messagesOf, TickInput.batch, List.flatMap_cons,
      List.flatMap_nil, List.nil_append, List.append_nil, List.cons_append, List.mem_cons,
      List.not_mem_nil, or_false] at hm
    rcases hm with rfl | rfl | rfl <;> exact leaves_chunk rfl
  fresh := by
    have hquiet : ∀ hb e, DrawsFresh sampleEnv hb (.response e) :=
      fun hb e hdraws => absurd handleResponse_quiet.rngDraws hdraws
    exact ⟨⟨hquiet _ _, trivial⟩, ⟨hquiet _ _, hquiet _ _, trivial⟩, trivial⟩
  alive := by
    intro inp hinp
    simp only [List.mem_cons, List.not_mem_nil, or_false] at hinp
    rcases hinp with rfl | rfl <;> rfl

/-- The second sample tick answers the request with the three chunks. -/
theorem chunk_assembly_lastChunks :
    let hb := (run sampleEnv (streamingBoard "r") [firstChunk]).2
    ∃ w, (tick sampleEnv lastChunks hb).1.clientWrites.filter (fun w => w.requestId = "r") = [w] ∧
      w.audio = [0x0a, 0x0b, 0x0c] := by
  obtain ⟨-, w, hw, haudio⟩ := chunk_assembly sampleEnv (streamingBoard "r") "r" "s" _ _
    [firstChunk] lastChunks (by decide) (streamingBoard_streams "r") (chunks_undisturbed "r")
    (by decide) (by decide)
  exact ⟨w, hw, haudio.trans (by decide)⟩

/-- The same ticks for a request with the empty identifier: nothing is written. -/
theorem unnamed_request_unanswered :
    Streams "" "s" { requestId := "", sessionId := "s", state := .streaming }
      { sessionId := "s", state := .streaming, currentRequestId := "" } (streamingBoard "") ∧
    Undisturbed sampleEnv (streamingBoard "") "" "s"
      { sessionId := "s", state := .streaming, currentRequestId := "" } [firstChunk, lastChunks] ∧
    (∃ e ∈ chunksOn "s" lastChunks.batch, e.isFinal = true) ∧
    ∀ cs ∈ (run sampleEnv (streamingBoard "") [firstChunk, lastChunks]).1,
      cs.clientWrites = [] :=
  ⟨streamingBoard_streams "", chunks_undisturbed "", by decide, by decide⟩

end Heartbeat

end TtsServer
