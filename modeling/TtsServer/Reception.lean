import TtsServer.Lib.Selections
import TtsServer.History

/-!
# Reception of audio chunks

Audio chunks name their session, and the session names the request they are for.
Between the events of a batch a session leaves the pool only when its connection is
lost; when a tick ends, it also leaves if its task has failed. So whether a chunk
that follows a failure of its session reaches the request depends on whether a tick
has ended in between. This file follows one streaming request through upstream
events: the chunks it has received are a selection from the events, between the
chunks that may reach it and those that surely do.
-/

namespace TtsServer

open Lib

/-- The event reports the loss of the session. -/
def TtsResponseMsg.loses (e : TtsResponseMsg) (sid : String) : Bool :=
  e.sessionId = sid && e.kind = .disconnected

/-- The event ends the requests of the session. -/
def TtsResponseMsg.ends (e : TtsResponseMsg) (sid : String) : Bool :=
  e.sessionId = sid && (e.kind = .taskFailed || e.kind = .disconnected)

/-- The audio that an event carries. -/
def TtsResponseMsg.audio (e : TtsResponseMsg) : Bytes := hexDecode e.audioHex

namespace PendingRequest

variable (p : PendingRequest) (chunks : List TtsResponseMsg)

/-- The record without the time of its last chunk, which no response shows. -/
def untimed : PendingRequest := { p with lastChunkAt := 0 }

/-- The record of a request after it has received chunks. -/
def hear : PendingRequest :=
  { p.untimed with
    accumulatedAudio := p.accumulatedAudio ++ chunks.flatMap TtsResponseMsg.audio
    cumulativeBytes := p.cumulativeBytes + (chunks.flatMap TtsResponseMsg.audio).length
    usageCharacters := (chunks.getLast?.map (·.usageCharacters)).getD p.usageCharacters
    finalReceived := p.finalReceived || chunks.any (·.isFinal) }

/-- The request has received its final chunk, before or among the chunks. -/
def Completed : Prop := p.finalReceived = true ∨ ∃ e ∈ chunks, e.isFinal = true

instance : Decidable (p.Completed chunks) := inferInstanceAs (Decidable (_ ∨ _))

variable {p chunks}

/-- Receiving one more chunk is appending it. -/
theorem hear_concat {q : PendingRequest} {e : TtsResponseMsg} (hq : q.untimed = p.hear chunks)
    (t : TimePoint) :
    (q.append (hexDecode e.audioHex) e.isFinal e.usageCharacters t).untimed =
      p.hear (chunks ++ [e]) := by
  have happend : (q.append (hexDecode e.audioHex) e.isFinal e.usageCharacters t).untimed =
      q.untimed.append (hexDecode e.audioHex) e.isFinal e.usageCharacters 0 := rfl
  rw [happend, hq]
  simp [append, hear, untimed, TtsResponseMsg.audio, Int.add_assoc, Bool.or_assoc]

/-- The final chunk has been received exactly if the request is completed. -/
theorem hear_finalReceived : (p.hear chunks).finalReceived = true ↔ p.Completed chunks := by
  simp [hear, Completed]

/-- Receiving nothing. -/
theorem hear_nil : p.hear [] = p.untimed := by
  simp [hear, untimed]

/-- More chunks complete what fewer do. -/
theorem Completed.mono {chunks' : List TtsResponseMsg} (h : p.Completed chunks)
    (hsub : chunks.Sublist chunks') : p.Completed chunks' :=
  h.imp_right fun ⟨e, he, hfinal⟩ => ⟨e, hsub.subset he, hfinal⟩

/-- The response shows of the received chunks their audio and the last usage count. -/
theorem completedWrite_hear {chunks' : List TtsResponseMsg} {rid : String}
    (hcompleted : p.Completed chunks) (hcompleted' : p.Completed chunks') :
    Heartbeat.completedWrite rid (p.hear chunks) = Heartbeat.completedWrite rid (p.hear chunks') ↔
      chunks.flatMap TtsResponseMsg.audio = chunks'.flatMap TtsResponseMsg.audio ∧
        (p.hear chunks).usageCharacters = (p.hear chunks').usageCharacters := by
  have hfinal := hear_finalReceived.mpr hcompleted
  have hfinal' := hear_finalReceived.mpr hcompleted'
  constructor
  · intro heq
    have haudio := congrArg WriteToClient.audio heq
    have husage := congrArg WriteToClient.audioLengthMs heq
    exact ⟨List.append_cancel_left haudio, husage⟩
  · rintro ⟨haudio, husage⟩
    simp only [Heartbeat.completedWrite, husage, hfinal, hfinal']
    simp [hear, haudio, untimed]

end PendingRequest

namespace Heartbeat

/-- The session is in the pool and works for the request. Chunks for an empty identifier
are dropped. -/
def feeds (hb : Heartbeat) (rid sid : String) : Bool := rid ≠ "" && hb.currentOf sid = rid

/-- The session, if it is in the pool, has not failed. -/
def sound (hb : Heartbeat) (sid : String) : Bool :=
  (hb.board.sessionPool.get sid).all fun s => !s.failedOrClosed

/-- After some events, the session may still work for the request: it has not been lost. -/
def mayFeed (hb : Heartbeat) (rid : String) (es : List TtsResponseMsg) (sid : String) : Bool :=
  hb.feeds rid sid && !es.any (·.loses sid)

/-- After some events, the session still works for the request, wherever ticks have ended:
it has neither been lost nor failed. -/
def surelyFeeds (hb : Heartbeat) (rid : String) (es : List TtsResponseMsg) (sid : String) :
    Bool :=
  hb.feeds rid sid && hb.sound sid && !es.any (·.ends sid)

/-- A chunk after some events that may reach the request. -/
def mayReach (hb : Heartbeat) (rid : String) (es : List TtsResponseMsg) (e : TtsResponseMsg) :
    Bool :=
  e.kind = .audioChunk && hb.mayFeed rid es e.sessionId

/-- A chunk after some events that reaches the request, wherever ticks have ended. -/
def surelyReaches (hb : Heartbeat) (rid : String) (es : List TtsResponseMsg)
    (e : TtsResponseMsg) : Bool :=
  e.kind = .audioChunk && hb.surelyFeeds rid es e.sessionId

/-- The chunks among some events that may reach the request. -/
def audible (hb : Heartbeat) (rid : String) : List TtsResponseMsg → List TtsResponseMsg :=
  accepted (hb.mayReach rid)

/-- The chunks among some events that surely reach the request. -/
def assured (hb : Heartbeat) (rid : String) : List TtsResponseMsg → List TtsResponseMsg :=
  accepted (hb.surelyReaches rid)

/-- The chunks that may have reached the request after some events. -/
abbrev Receives (hb : Heartbeat) (rid : String) :
    List TtsResponseMsg → List TtsResponseMsg → Prop :=
  Selects (hb.mayReach rid) (hb.surelyReaches rid)

variable {env : Env} {hb hb' : Heartbeat} {rid sid : String} {e : TtsResponseMsg}
  {es : List TtsResponseMsg}

/-- Whatever surely reaches the request may reach it. -/
theorem mayReach_of_surelyReaches (h : hb.surelyReaches rid es e = true) :
    hb.mayReach rid es e = true := by
  simp only [surelyReaches, surelyFeeds, mayReach, mayFeed, Bool.and_eq_true, Bool.not_eq_true',
    List.any_eq_false] at h ⊢
  refine ⟨h.1, h.2.1.1, fun e' he' hloses => h.2.2 e' he' ?_⟩
  simp only [TtsResponseMsg.loses, TtsResponseMsg.ends, Bool.and_eq_true] at hloses ⊢
  simp [hloses.1, hloses.2]

/-- A session works for a request if its record names it. -/
theorem feeds_iff : hb.feeds rid sid = true ↔
    rid ≠ "" ∧ ∃ s, hb.board.sessionPool.get sid = some s ∧ s.currentRequestId = rid := by
  rw [feeds, Bool.and_eq_true, decide_eq_true_eq, decide_eq_true_eq, currentOf]
  refine and_congr_right fun hrid => ?_
  cases hb.board.sessionPool.get sid with
  | none => simp [Ne.symm hrid]
  | some s => simp

/-- One more event leaves the sessions in use that it does not lose. -/
theorem mayFeed_concat :
    hb.mayFeed rid (es ++ [e]) sid = (hb.mayFeed rid es sid && !e.loses sid) := by
  simp [mayFeed, Bool.and_assoc]

/-- One more event leaves the sessions surely in use that it does not end. -/
theorem surelyFeeds_concat :
    hb.surelyFeeds rid (es ++ [e]) sid = (hb.surelyFeeds rid es sid && !e.ends sid) := by
  simp [surelyFeeds, Bool.and_assoc]

/-! ### Upstream events -/

/-- A session keeps its request until it is lost. -/
theorem handleResponse_feeds :
    (handleResponse env e hb).feeds rid sid = (hb.feeds rid sid && !e.loses sid) := by
  have hcurrent : (handleResponse env e hb).currentOf sid =
      if e.loses sid then "" else hb.currentOf sid := by
    unfold currentOf TtsResponseMsg.loses
    rw [handleResponse_get_session]
    by_cases hsid : sid = e.sessionId
    · cases e.kind <;> simp [hsid, Function.comp_def]
    · cases e.kind <;> simp [hsid, Ne.symm hsid]
  unfold feeds
  rw [hcurrent]
  cases e.loses sid with
  | false => simp
  | true =>
    by_cases hrid : rid = ""
    · simp [hrid]
    · simp [Ne.symm hrid]

/-- A session keeps its request through every event that does not end it. -/
theorem handleResponse_feeds_of_spared (hfeeds : hb.feeds rid sid = true)
    (hends : e.ends sid = false) : (handleResponse env e hb).feeds rid sid = true := by
  have hloses : e.loses sid = false := by
    simp only [TtsResponseMsg.ends, TtsResponseMsg.loses, Bool.and_eq_false_iff,
      Bool.or_eq_false_iff] at hends ⊢
    exact hends.imp_right And.right
  rw [handleResponse_feeds, hfeeds, hloses]
  rfl

/-- A session that has not failed is sound after every event that does not end it. -/
theorem handleResponse_sound (hsound : hb.sound sid = true) (hends : e.ends sid = false) :
    (handleResponse env e hb).sound sid = true := by
  unfold sound at hsound ⊢
  rw [handleResponse_get_session]
  by_cases hsid : sid = e.sessionId
  · subst hsid
    cases hkind : e.kind with
    | connected =>
      cases hb.board.sessionPool.get e.sessionId <;> simp [SessionRecord.failedOrClosed]
    | taskFailed => simp [TtsResponseMsg.ends, hkind] at hends
    | disconnected => simp
    | taskStarted => exact hsound
    | audioChunk => exact hsound
    | taskFinished => exact hsound
  · cases e.kind <;> simpa [hsid] using hsound

/-- The request is pending and has received the given chunks. -/
def Heard (rid : String) (p : PendingRequest) (chunks : List TtsResponseMsg) (hb : Heartbeat) :
    Prop :=
  (hb.board.pending.get rid).map PendingRequest.untimed = some (p.hear chunks)

/-- An event that does not end a request hands it its chunk, if there is one. -/
theorem Heard.response {p : PendingRequest} {chunks : List TtsResponseMsg}
    (hheard : Heard rid p chunks hb) (hends : e.ends p.sessionId = false) :
    Heard rid p (chunks ++
      if e.kind = .audioChunk ∧ hb.feeds rid e.sessionId = true then [e] else [])
      (handleResponse env e hb) := by
  obtain ⟨q, hq, huntimed⟩ := Option.map_eq_some_iff.mp hheard
  have hsession : q.sessionId = p.sessionId := by
    change q.untimed.sessionId = (p.hear chunks).sessionId
    rw [huntimed]
  have hbound (hkind : e.kind = .taskFailed ∨ e.kind = .disconnected) :
      q.sessionId ≠ e.sessionId := by
    intro heq
    simp only [TtsResponseMsg.ends, ← hsession, heq, decide_true, Bool.true_and,
      Bool.or_eq_false_iff, decide_eq_false_iff_not] at hends
    exact hkind.elim hends.1 hends.2
  rw [Heard, handleResponse_get_pending, hq]
  cases hkind : e.kind with
  | audioChunk =>
    by_cases hfeeds : hb.feeds rid e.sessionId = true
    · have hcurrent : rid = hb.currentOf e.sessionId ∧ rid ≠ "" := by
        simp only [feeds, Bool.and_eq_true, decide_eq_true_eq] at hfeeds
        exact ⟨hfeeds.2.symm, hfeeds.1⟩
      simp only [if_pos hcurrent, if_pos (And.intro trivial hfeeds), Option.map_some]
      exact congrArg some (PendingRequest.hear_concat huntimed _)
    · have hcurrent : ¬(rid = hb.currentOf e.sessionId ∧ rid ≠ "") := by
        intro h
        simp [feeds, ← h.1, h.2] at hfeeds
      simp [hfeeds, hcurrent, huntimed]
  | taskFailed => simp [hbound (Or.inl hkind), huntimed]
  | disconnected => simp [hbound (Or.inr hkind), huntimed]
  | connected => simp [huntimed]
  | taskStarted => simp [huntimed]
  | taskFinished => simp [huntimed]

/-- A request that is gone or about to be swept. -/
def Ended (rid : String) (hb : Heartbeat) : Prop :=
  ∀ p, hb.board.pending.get rid = some p → p.state.terminal = true

/-- An event adds no request. -/
theorem handleResponse_get_eq_none (hget : hb.board.pending.get rid = none) :
    (handleResponse env e hb).board.pending.get rid = none := by
  rw [handleResponse_get_pending, hget]
  cases e.kind <;> simp

/-- An event that ends the session of a request ends the request. -/
theorem handleResponse_ended (hends : ∀ p, hb.board.pending.get rid = some p →
    e.ends p.sessionId = true) : Ended rid (handleResponse env e hb) := by
  intro p' hp'
  cases hget : hb.board.pending.get rid with
  | none =>
    rw [handleResponse_get_eq_none hget] at hp'
    cases hp'
  | some p =>
    have hp := hends p hget
    simp only [TtsResponseMsg.ends, Bool.and_eq_true, decide_eq_true_eq, Bool.or_eq_true] at hp
    rw [handleResponse_get_pending, hget] at hp'
    rcases hp.2 with hkind | hkind
    · simp only [hkind, Option.map_some, hp.1, if_true, Option.some.injEq] at hp'
      exact hp' ▸ rfl
    · simp only [hkind, Option.map_some, hp.1, if_true, Option.some.injEq] at hp'
      exact hp' ▸ rfl

/-- An ended request does not come back. -/
theorem Ended.response (hended : Ended rid hb) : Ended rid (handleResponse env e hb) := by
  intro p' hp'
  cases hget : hb.board.pending.get rid with
  | none =>
    rw [handleResponse_get_eq_none hget] at hp'
    cases hp'
  | some p =>
    have hterminal := hended p hget
    rw [handleResponse_get_pending, hget] at hp'
    cases hkind : e.kind with
    | audioChunk =>
      simp only [hkind] at hp'
      split at hp'
      · obtain rfl := Option.some.inj hp'
        exact hterminal
      · obtain rfl := Option.some.inj hp'
        exact hterminal
    | taskFailed =>
      simp only [hkind, Option.map_some, Option.some.injEq] at hp'
      subst hp'
      split
      · rfl
      · exact hterminal
    | disconnected =>
      simp only [hkind, Option.map_some, Option.some.injEq] at hp'
      subst hp'
      split
      · rfl
      · exact hterminal
    | connected => exact hended p' (hget.trans (by simpa [hkind] using hp'))
    | taskStarted => exact hended p' (hget.trans (by simpa [hkind] using hp'))
    | taskFinished => exact hended p' (hget.trans (by simpa [hkind] using hp'))

/-! ### The end of a tick -/

variable {inp : TickInput} {s : SessionRecord} {p q : PendingRequest} {w : WriteToClient}

/-- A request that is pending after an upstream event was pending before, with the same
binding, and has ended if it had ended then. -/
theorem exists_pending_of_handleResponse {p' : PendingRequest}
    (hp' : (handleResponse env e hb).board.pending.get rid = some p') :
    ∃ p, hb.board.pending.get rid = some p ∧ p.sessionId = p'.sessionId ∧
      (p.state.terminal = true → p'.state.terminal = true) := by
  have hsession := @handleResponse_pending_sessionId env hb rid e
  rw [hp'] at hsession
  obtain ⟨p, hp, hsame⟩ := Option.map_eq_some_iff.mp hsession.symm
  refine ⟨p, hp, hsame, fun hterminal => ?_⟩
  have hended : Ended rid hb := by
    intro q hq
    obtain rfl := Option.some.inj (hp.symm.trans hq)
    exact hterminal
  exact hended.response p' hp'

/-- No session expires at the end of a tick: after the failed sessions have been closed,
`evolve` finds no session beyond its lifetime and no idle one. -/
def NoneExpires (inp : TickInput) (hb : Heartbeat) : Prop :=
  let pool := ((emitReady hb).changedSessions.foldl closeIfFailed
    ([], (emitReady hb).board.sessionPool)).2
  pool.collectLifetimeExpired inp.now = [] ∧ pool.collectIdleExpired inp.now = []

instance : Decidable (NoneExpires inp hb) := inferInstanceAs (Decidable (_ ∧ _))

/-- If no session expires, a tick closes exactly the sessions that failed in it. -/
theorem finishTick_get_unexpired (hnone : NoneExpires inp hb) :
    (finishTick inp hb).2.board.sessionPool.get sid = some s ↔
      (emitReady hb).board.sessionPool.get sid = some s ∧
        ¬(sid ∈ (emitReady hb).changedSessions ∧ s.failedOrClosed = true) := by
  obtain ⟨hlifetime, hidle⟩ := hnone
  rw [finishTick_board.2.1, evolved]
  simp only [evolve, hlifetime, closeAll, List.foldl_nil, hidle]
  exact foldl_closeIfFailed_get

/-- The end of a tick adds no session. -/
theorem emitReady_of_finishTick (hs : (finishTick inp hb).2.board.sessionPool.get sid = some s) :
    (emitReady hb).board.sessionPool.get sid = some s := by
  rw [finishTick_board.2.1, evolved] at hs
  have hlifetime := (closeAll_get.mp hs).1
  have hfailed := (closeAll_get.mp hlifetime).1
  exact (foldl_closeIfFailed_get.mp hfailed).1

/-- A session that is there after a tick has kept its request. -/
theorem feeds_of_finishTick (hfeeds : (finishTick inp hb).2.feeds rid sid = true) :
    hb.feeds rid sid = true := by
  obtain ⟨hrid, s', hs', hcurrent⟩ := feeds_iff.mp hfeeds
  have hemitted := emitReady_of_finishTick hs'
  rw [emitReady_emitted.session] at hemitted
  obtain ⟨s, hs, rfl⟩ := Option.map_eq_some_iff.mp hemitted
  refine feeds_iff.mpr ⟨hrid, s, hs, ?_⟩
  rw [← hcurrent]
  split <;> rfl

/-- A session that has not failed survives a tick with its request. -/
theorem finishTick_feeds (hnone : NoneExpires inp hb) (hfeeds : hb.feeds rid sid = true)
    (hsound : hb.sound sid = true) :
    (finishTick inp hb).2.feeds rid sid = true ∧ (finishTick inp hb).2.sound sid = true := by
  obtain ⟨hrid, s, hs, hcurrent⟩ := feeds_iff.mp hfeeds
  simp only [sound, hs, Option.all_some, Bool.not_eq_true'] at hsound
  obtain ⟨s', hemitted, hcurrent', hfailed⟩ : ∃ s',
      (emitReady hb).board.sessionPool.get sid = some s' ∧
        s'.currentRequestId = s.currentRequestId ∧ s'.failedOrClosed = false := by
    rw [emitReady_emitted.session, hs]
    refine ⟨_, rfl, ?_, ?_⟩
    · split <;> rfl
    · split
      · rfl
      · exact hsound
  have hafter : (finishTick inp hb).2.board.sessionPool.get sid = some s' :=
    (finishTick_get_unexpired hnone).mpr ⟨hemitted, by simp [hfailed]⟩
  refine ⟨feeds_iff.mpr ⟨hrid, s', hafter, hcurrent'.trans hcurrent⟩, ?_⟩
  simp [sound, hafter, hfailed]

/-- A tick writes for a request exactly if the request is ready. -/
theorem mem_finishTick_clientWrites (hwrites : hb.changeset.clientWrites = []) :
    w ∈ (finishTick inp hb).1.clientWrites ∧ w.requestId = rid ↔
      ∃ q, hb.board.pending.get rid = some q ∧ q.readyToEmit = true ∧
        w = completedWrite rid q := by
  rw [finishTick_clientWrites, hwrites, List.nil_append, List.mem_map]
  constructor
  · rintro ⟨⟨⟨rid', q⟩, hmem, rfl⟩, rfl⟩
    obtain ⟨hq, hready⟩ := mem_emissions.mp hmem
    exact ⟨q, hq, hready, rfl⟩
  · rintro ⟨q, hq, hready, rfl⟩
    exact ⟨⟨(rid, q), mem_emissions.mpr ⟨hq, hready⟩, rfl⟩, rfl⟩

/-- A request that has ended before the end of a tick is gone after it. -/
theorem Ended.swept (hended : Ended rid hb) :
    (finishTick inp hb).2.board.pending.get rid = none := by
  rw [Option.eq_none_iff_forall_ne_some]
  intro p hp
  obtain ⟨hp, -, hterminal⟩ := finishTick_get_pending.mp hp
  rw [hended p hp] at hterminal
  cases hterminal

/-- An ended request is gone after the tick, which writes nothing for it. -/
theorem Ended.finish (hended : Ended rid hb) (hwrites : hb.changeset.clientWrites = []) :
    (finishTick inp hb).2.board.pending.get rid = none ∧
      ∀ w ∈ (finishTick inp hb).1.clientWrites, w.requestId ≠ rid := by
  refine ⟨hended.swept, fun w hw hrid => ?_⟩
  obtain ⟨q, hq, hready, -⟩ := (mem_finishTick_clientWrites hwrites).mp ⟨hw, hrid⟩
  have hterminal := hended q hq
  simp only [PendingRequest.readyToEmit, Bool.and_eq_true, decide_eq_true_eq] at hready
  rw [hready.1] at hterminal
  cases hterminal

/-- A request that has received chunks is ready exactly if it is completed. -/
theorem readyToEmit_iff {chunks : List TtsResponseMsg} (huntimed : q.untimed = p.hear chunks)
    (hstreaming : p.state = .streaming) : q.readyToEmit = true ↔ p.Completed chunks := by
  have hready : q.readyToEmit = q.untimed.readyToEmit := rfl
  rw [hready, huntimed, ← PendingRequest.hear_finalReceived]
  simp [PendingRequest.readyToEmit, PendingRequest.hear, PendingRequest.untimed, hstreaming]

variable {got : List TtsResponseMsg}

/-- A tick in which the request is not completed leaves it as it is. -/
theorem Heard.kept (h : Heard rid p got hb) (hstreaming : p.state = .streaming)
    (hincomplete : ¬p.Completed got) : Heard rid p got (finishTick inp hb).2 := by
  obtain ⟨q, hq, huntimed⟩ := Option.map_eq_some_iff.mp h
  have hready : q.readyToEmit = false := by
    rw [← Bool.not_eq_true, readyToEmit_iff huntimed hstreaming]
    exact hincomplete
  have hstate : q.state = p.state := by
    change q.untimed.state = (p.hear got).state
    rw [huntimed]
  have hterminal : q.state.terminal = false := by
    rw [hstate, hstreaming]
    rfl
  rw [Heard, finishTick_get_pending.mpr ⟨hq, hready, hterminal⟩, Option.map_some, huntimed]

/-- A tick writes for a pending request exactly if it is completed, and then what the
request has received. -/
theorem Heard.write (h : Heard rid p got hb) (hstreaming : p.state = .streaming)
    (hwrites : hb.changeset.clientWrites = []) :
    w ∈ (finishTick inp hb).1.clientWrites ∧ w.requestId = rid ↔
      p.Completed got ∧ w = completedWrite rid (p.hear got) := by
  obtain ⟨q, hq, huntimed⟩ := Option.map_eq_some_iff.mp h
  have hwrite : completedWrite rid q = completedWrite rid (p.hear got) := by
    rw [← huntimed]
    rfl
  rw [mem_finishTick_clientWrites hwrites, hq, ← readyToEmit_iff huntimed hstreaming, ← hwrite]
  simp

/-- A completed request is gone after the tick. -/
theorem Heard.emitted (h : Heard rid p got hb) (hstreaming : p.state = .streaming)
    (hcompleted : p.Completed got) : (finishTick inp hb).2.board.pending.get rid = none := by
  obtain ⟨q, hq, huntimed⟩ := Option.map_eq_some_iff.mp h
  cases hget : (finishTick inp hb).2.board.pending.get rid with
  | none => rfl
  | some q' =>
    obtain ⟨hq', hready, -⟩ := finishTick_get_pending.mp hget
    obtain rfl := Option.some.inj (hq.symm.trans hq')
    rw [(readyToEmit_iff huntimed hstreaming).mpr hcompleted] at hready
    cases hready

/-! ### Following a request -/

/-- The state of the heartbeat after some events, seen from a request that has received the
chunks `got`: its record, the sessions that may still feed it, and those that surely do. -/
structure Follows (origin : Heartbeat) (rid : String) (p : PendingRequest)
    (es got : List TtsResponseMsg) (hb : Heartbeat) : Prop where
  heard : Heard rid p got hb
  receives : origin.Receives rid es got
  mayFeed : ∀ sid, hb.feeds rid sid = true → origin.mayFeed rid es sid = true
  surelyFeeds : ∀ sid, origin.surelyFeeds rid es sid = true →
    hb.feeds rid sid = true ∧ hb.sound sid = true

variable {origin : Heartbeat}

/-- A pending request is followed from where it is. -/
theorem Follows.refl (hp : hb.board.pending.get rid = some p) : Follows hb rid p [] [] hb where
  heard := by rw [Heard, hp, Option.map_some, PendingRequest.hear_nil]
  receives := .nil
  mayFeed := fun sid hfeeds => by simp [Heartbeat.mayFeed, hfeeds]
  surelyFeeds := fun sid hsurely => by simpa [Heartbeat.surelyFeeds] using hsurely

/-- An event that does not end a request hands it at most its chunk. -/
theorem Follows.response (h : Follows origin rid p es got hb) (hends : e.ends p.sessionId = false) :
    ∃ got', Follows origin rid p (es ++ [e]) got' (handleResponse env e hb) := by
  refine ⟨_, h.heard.response hends, ?_, ?_, ?_⟩
  · split
    · rename_i hheard
      refine h.receives.keep ?_
      simp [mayReach, hheard.1, h.mayFeed e.sessionId hheard.2]
    · rename_i hunheard
      rw [List.append_nil]
      refine h.receives.skip ?_
      by_contra hsurely
      simp only [surelyReaches, Bool.not_eq_false, Bool.and_eq_true, decide_eq_true_eq] at hsurely
      exact hunheard ⟨hsurely.1, (h.surelyFeeds e.sessionId hsurely.2).1⟩
  · intro sid hfeeds
    rw [handleResponse_feeds, Bool.and_eq_true] at hfeeds
    rw [mayFeed_concat, h.mayFeed sid hfeeds.1, hfeeds.2]
    rfl
  · intro sid hsurely
    rw [surelyFeeds_concat, Bool.and_eq_true, Bool.not_eq_true'] at hsurely
    obtain ⟨hfeeds, hsound⟩ := h.surelyFeeds sid hsurely.1
    exact ⟨handleResponse_feeds_of_spared hfeeds hsurely.2, handleResponse_sound hsound hsurely.2⟩

/-- The end of a tick in which the request is not completed. -/
theorem Follows.finish (h : Follows origin rid p es got hb) (hstreaming : p.state = .streaming)
    (hnone : NoneExpires inp hb) (hincomplete : ¬p.Completed got) :
    Follows origin rid p es got (finishTick inp hb).2 where
  heard := h.heard.kept hstreaming hincomplete
  receives := h.receives
  mayFeed := fun sid hfeeds => h.mayFeed sid (feeds_of_finishTick hfeeds)
  surelyFeeds := fun sid hsurely =>
    finishTick_feeds hnone (h.surelyFeeds sid hsurely).1 (h.surelyFeeds sid hsurely).2

end Heartbeat

end TtsServer
