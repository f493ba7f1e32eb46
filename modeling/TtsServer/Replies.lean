import TtsServer.Reception
import TtsServer.Routing

/-!
# Replies to rejected and cancelled requests

A client learns the end of its request from a final write. The writes of a tick are the
answers of the local engine among its messages, in order, and then the emissions. So a
request that is turned away gets a reply only by the accident that something else under
its identifier ends in the same tick; and a request that has been cancelled gets a late
reply if the local engine answers it in a later tick, since the answer is written
whether or not the request is still pending.
-/

namespace TtsServer

open Lib History

namespace Heartbeat

variable {env : Env} {hb : Heartbeat} {rid : String} {m : Message} {inp : TickInput}

/-- The writes of a tick. -/
theorem tick_writes (hcollected : hb.changeset.clientWrites = []) :
    (tick env inp hb).1.clientWrites = inp.batch.filterMap answerWrite ++
      (emissions (midTick env hb inp.batch)).map fun e => completedWrite e.1 e.2 := by
  have hhandled := @foldl_handleMessage_clientWrites env hb.beginTick inp.batch
  have hbegin : hb.beginTick.changeset.clientWrites = [] := hcollected
  rw [hbegin, List.nil_append] at hhandled
  rw [tick, finishTick_clientWrites, hhandled]
  rfl

/-! ### Rejections -/

/-- A request of a batch that is turned away in the state in which it is handled. -/
def TurnedAwayIn (env : Env) (hb : Heartbeat) (batch : List Message) (req : TtsRequestMsg) :
    Prop :=
  ∃ before after, batch = before ++ .request req :: after ∧
    (admission env req (midTick env hb before) = .refused ∨
      admission env req (midTick env hb before) = .noSession)

/-- The change set tells the client that its request has failed. -/
def RepliesWithError (cs : ChangeSet) (rid : String) : Prop :=
  ∃ w ∈ cs.clientWrites, w.requestId = rid ∧ w.isFinal = true ∧ w.statusCode ≠ 0

/-- A message of the batch reports an error of the local engine for the identifier. -/
def AnswersWithError (batch : List Message) (rid : String) : Prop :=
  ∃ m ∈ batch, (∃ c, m = .localComplete c ∧ c.requestId = rid ∧ c.statusCode ≠ 0) ∨
    ∃ f, m = .localFailed f ∧ f.requestId = rid ∧ f.statusCode ≠ 0

/-- When the emission pass begins, a completed request with an error status is pending under
the identifier. -/
def PendingWithError (hb : Heartbeat) (rid : String) : Prop :=
  ∃ p, hb.board.pending.get rid = some p ∧ p.state = .streaming ∧ p.finalReceived = true ∧
    p.statusCode ≠ 0

/-- An error reported by the local engine is written. -/
theorem mem_answers_error_iff {batch : List Message} :
    (∃ w ∈ batch.filterMap answerWrite, w.requestId = rid ∧ w.isFinal = true ∧ w.statusCode ≠ 0) ↔
      AnswersWithError batch rid := by
  simp only [List.mem_filterMap, AnswersWithError]
  constructor
  · rintro ⟨w, ⟨m, hm, hw⟩, hid, -, hstatus⟩
    refine ⟨m, hm, ?_⟩
    cases m with
    | localComplete c =>
      obtain rfl := Option.some.inj hw
      exact Or.inl ⟨c, rfl, hid, hstatus⟩
    | localFailed f =>
      obtain rfl := Option.some.inj hw
      exact Or.inr ⟨f, rfl, hid, hstatus⟩
    | request req => cases hw
    | response rsp => cases hw
    | cancel msg => cases hw
  · rintro ⟨m, hm, ⟨c, rfl, hid, hstatus⟩ | ⟨f, rfl, hid, hstatus⟩⟩
    · exact ⟨completeWrite c, ⟨_, hm, rfl⟩, hid, rfl, hstatus⟩
    · exact ⟨failedWrite f, ⟨_, hm, rfl⟩, hid, rfl, hstatus⟩

/-- A completed request with an error status is emitted. -/
theorem mem_emissions_error_iff :
    (∃ w ∈ (emissions hb).map (fun e => completedWrite e.1 e.2), w.requestId = rid ∧
      w.isFinal = true ∧ w.statusCode ≠ 0) ↔ PendingWithError hb rid := by
  constructor
  · rintro ⟨w, hw, rfl, hfinal, hstatus⟩
    obtain ⟨⟨rid, p⟩, hmem, rfl⟩ := List.mem_map.mp hw
    obtain ⟨hp, hready⟩ := mem_emissions.mp hmem
    simp only [PendingRequest.readyToEmit, Bool.and_eq_true, decide_eq_true_eq] at hready
    exact ⟨p, hp, hready.1, hready.2, hstatus⟩
  · rintro ⟨p, hp, hstate, hfinal, hstatus⟩
    have hready : p.readyToEmit = true := by simp [PendingRequest.readyToEmit, hstate, hfinal]
    exact ⟨completedWrite rid p, List.mem_map.mpr ⟨(rid, p), mem_emissions.mpr ⟨hp, hready⟩, rfl⟩,
      rfl, hfinal, hstatus⟩

/-- Every request that is turned away is answered exactly if something else under its
identifier ends with an error in the same tick. -/
theorem rejections_answered_iff (env : Env) (hb : Heartbeat) (inp : TickInput)
    (hcollected : hb.changeset.clientWrites = []) :
    (∀ req, TurnedAwayIn env hb inp.batch req →
      RepliesWithError (tick env inp hb).1 req.requestId) ↔
    ∀ req, TurnedAwayIn env hb inp.batch req →
      AnswersWithError inp.batch req.requestId ∨
        PendingWithError (midTick env hb inp.batch) req.requestId := by
  refine forall₂_congr fun req _ => ?_
  rw [← mem_answers_error_iff, ← mem_emissions_error_iff, RepliesWithError,
    tick_writes hcollected]
  simp only [List.mem_append, or_and_right, exists_or]

/-- A batch in which the local engine reports an error for the identifier of a request that
is turned away. -/
def answeredRejection : TickInput :=
  { requests := [.request { requestId := "a" },
      .localFailed { requestId := "a", statusCode := 2049 }] }

/-- With no session to be had, the request is turned away and answered. -/
theorem rejections_answered_answeredRejection :
    TurnedAwayIn sampleEnv (start 0 (seconds 60) (seconds 3600)) answeredRejection.batch
        { requestId := "a" } ∧
      RepliesWithError (tick sampleEnv answeredRejection
        (start 0 (seconds 60) (seconds 3600))).1 "a" := by
  have hturned : TurnedAwayIn sampleEnv (start 0 (seconds 60) (seconds 3600))
      answeredRejection.batch { requestId := "a" } := ⟨[], _, rfl, Or.inr rfl⟩
  refine ⟨hturned, (rejections_answered_iff sampleEnv _ answeredRejection rfl).mpr ?_ _ hturned⟩
  rintro req ⟨before, after, hbatch, -⟩
  have hmem : Message.request req ∈ answeredRejection.batch := by simp [hbatch]
  simp only [answeredRejection, TickInput.batch, List.append_nil, List.mem_cons,
    Message.request.injEq, reduceCtorEq, List.not_mem_nil, or_false] at hmem
  subst hmem
  exact Or.inl ⟨_, List.mem_cons_of_mem _ List.mem_cons_self, Or.inr ⟨_, rfl, rfl, by decide⟩⟩

/-- Two requests for a pool of one session. -/
def crowdedTick : TickInput :=
  { requests := [.request { requestId := "a" }, .request { requestId := "b" }] }

/-- The second request is turned away and never answered. -/
theorem crowdedTick_unanswered :
    TurnedAwayIn sampleEnv (start 1 (seconds 60) (seconds 3600)) crowdedTick.batch
        { requestId := "b" } ∧
      ¬RepliesWithError (tick sampleEnv crowdedTick (start 1 (seconds 60) (seconds 3600))).1
        "b" := by
  refine ⟨⟨[.request { requestId := "a" }], [], rfl, Or.inr rfl⟩, ?_⟩
  rintro ⟨w, hw, -⟩
  have hnone : (tick sampleEnv crowdedTick
      (start 1 (seconds 60) (seconds 3600))).1.clientWrites = [] := by decide
  rw [hnone] at hw
  cases hw

/-! ### Cancellations -/

variable {p' : PendingRequest} {ms : List Message} {inputs : List TickInput}

/-- A request that is pending after a message which does not admit it was pending before, and
has ended if it had ended then. -/
theorem exists_pending_of_handleMessage (hpool : hb.board.sessionPool.WellKeyed)
    (hm : m.requestId? ≠ some rid)
    (hp' : (handleMessage env hb m).board.pending.get rid = some p') :
    ∃ p, hb.board.pending.get rid = some p ∧
      (p.state.terminal = true → p'.state.terminal = true) := by
  have hanswer : ∀ w, answerWrite m = some w → ∃ p, hb.board.pending.get rid = some p ∧
      (p.state.terminal = true → p'.state.terminal = true) := by
    intro w hw
    rw [(answer_effect hw).2.pending, PendingRequestStore.get_remove] at hp'
    split at hp'
    · cases hp'
    · exact ⟨p', hp', id⟩
  cases m with
  | request req =>
    have hother : rid ≠ req.requestId := fun heq => hm (congrArg some heq.symm)
    rw [handleMessage, (handleRequest_frame hpool).others hother] at hp'
    exact ⟨p', hp', id⟩
  | response rsp =>
    obtain ⟨p, hp, -, hkept⟩ := exists_pending_of_handleResponse hp'
    exact ⟨p, hp, hkept⟩
  | cancel msg =>
    rw [handleMessage, handleCancel_get_pending] at hp'
    split at hp'
    · obtain ⟨p, hp, rfl⟩ := Option.map_eq_some_iff.mp hp'
      exact ⟨p, hp, fun _ => rfl⟩
    · exact ⟨p', hp', id⟩
  | localComplete c => exact hanswer _ rfl
  | localFailed f => exact hanswer _ rfl

/-- The same for a batch. -/
theorem exists_pending_of_batch (hwf : hb.PoolWf) (hms : ∀ m ∈ ms, m.requestId? ≠ some rid)
    (hp' : (ms.foldl (handleMessage env) hb).board.pending.get rid = some p') :
    ∃ p, hb.board.pending.get rid = some p ∧
      (p.state.terminal = true → p'.state.terminal = true) := by
  induction ms generalizing hb with
  | nil => exact ⟨p', hp', id⟩
  | cons m ms ih =>
    obtain ⟨q, hq, hended⟩ := ih (handleMessage_poolWf hwf m)
      (fun m' hm' => hms m' (List.mem_cons_of_mem _ hm')) hp'
    obtain ⟨p, hp, hended'⟩ :=
      exists_pending_of_handleMessage hwf.wellKeyed (hms m List.mem_cons_self) hq
    exact ⟨p, hp, hended ∘ hended'⟩

/-- A request that is pending after a run which does not admit it was pending before. -/
theorem exists_pending_of_run (hbetween : BetweenTicks hb)
    (hinputs : ∀ m ∈ messagesOf inputs, m.requestId? ≠ some rid)
    (hp' : (run env hb inputs).2.board.pending.get rid = some p') :
    ∃ p, hb.board.pending.get rid = some p := by
  induction inputs generalizing hb with
  | nil => exact ⟨p', hp'⟩
  | cons inp inputs ih =>
    rw [messagesOf_cons] at hinputs
    rw [run_cons] at hp'
    obtain ⟨q, hq⟩ := ih (hbetween.tick inp)
      (fun m hm => hinputs m (List.mem_append_right _ hm)) hp'
    obtain ⟨p, hp, -⟩ := exists_pending_of_batch hbetween.poolWf.beginTick
      (fun m hm => hinputs m (List.mem_append_left _ hm)) (finishTick_get_pending.mp hq).1
    exact ⟨p, hp⟩

/-- A tick that does not admit a request which is not pending: the request stays away, and the
tick writes for it exactly if the local engine answers it. -/
theorem tick_unknown (hbetween : BetweenTicks hb) (hnone : hb.board.pending.get rid = none)
    (hbatch : ∀ m ∈ inp.batch, m.requestId? ≠ some rid) :
    (tick env inp hb).2.board.pending.get rid = none ∧
      ((∀ w ∈ (tick env inp hb).1.clientWrites, w.requestId ≠ rid) ↔
        ∀ m ∈ inp.batch, m.answerId? ≠ some rid) := by
  have hmid : ∀ q, (midTick env hb inp.batch).board.pending.get rid ≠ some q := by
    intro q hq
    obtain ⟨p, hp, -⟩ := exists_pending_of_batch hbetween.poolWf.beginTick hbatch hq
    exact absurd (hnone.symm.trans hp) (by simp)
  have hemitted : ∀ w ∈ (emissions (midTick env hb inp.batch)).map
      (fun e => completedWrite e.1 e.2), w.requestId ≠ rid := by
    rintro w hw rfl
    obtain ⟨⟨rid, p⟩, hmem, rfl⟩ := List.mem_map.mp hw
    exact hmid p (mem_emissions.mp hmem).1
  refine ⟨Ended.swept fun q hq => absurd hq (hmid q), ?_⟩
  rw [tick_writes (by rw [hbetween.collector])]
  constructor
  · intro hsilent m hm hanswer
    obtain ⟨w, hw, hid, -⟩ := exists_answerWrite hanswer
    exact hsilent w (List.mem_append_left _ (List.mem_filterMap.mpr ⟨m, hm, hw⟩)) hid
  · intro hanswers w hw
    rcases List.mem_append.mp hw with hw | hw
    · obtain ⟨m, hm, hw⟩ := List.mem_filterMap.mp hw
      rintro rfl
      exact hanswers m hm (@answer_effect env hb m w hw).1
    · exact hemitted w hw

/-- The same for a run. -/
theorem run_unknown (hbetween : BetweenTicks hb) (hnone : hb.board.pending.get rid = none)
    (hinputs : ∀ m ∈ messagesOf inputs, m.requestId? ≠ some rid) :
    (∀ cs ∈ (run env hb inputs).1, ∀ w ∈ cs.clientWrites, w.requestId ≠ rid) ↔
      ∀ m ∈ messagesOf inputs, m.answerId? ≠ some rid := by
  induction inputs generalizing hb with
  | nil => simp [run, messagesOf]
  | cons inp inputs ih =>
    rw [messagesOf_cons, List.forall_mem_append] at hinputs ⊢
    obtain ⟨hnone', hwrites⟩ := @tick_unknown env hb rid inp hbetween hnone hinputs.1
    rw [run_cons, List.forall_mem_cons, hwrites, ih (hbetween.tick inp) hnone' hinputs.2]

/-- Cancellation is final exactly if the local engine does not answer the request in a later
tick. -/
theorem cancellation_final_iff (env : Env) (maxSize : Nat) (idleTimeout maxLifetime : Duration)
    (earlier later : List TickInput) (inp : TickInput) (before after : List Message)
    (msg : CancelRequestMsg)
    (hdistinct : ((messagesOf (earlier ++ inp :: later)).filterMap Message.requestId?).Nodup)
    (hcancel : inp.batch = before ++ .cancel msg :: after)
    (hpending : ∃ p, (midTick env (run env (start maxSize idleTimeout maxLifetime) earlier).2
      before).board.pending.get msg.requestId = some p) :
    (∀ cs ∈ (run env (tick env inp (run env (start maxSize idleTimeout maxLifetime) earlier).2).2
        later).1, ∀ w ∈ cs.clientWrites, w.requestId ≠ msg.requestId) ↔
      ∀ m ∈ messagesOf later, m.answerId? ≠ some msg.requestId := by
  have hbetween : BetweenTicks (run env (start maxSize idleTimeout maxLifetime) earlier).2 :=
    betweenTicks_run maxSize idleTimeout maxLifetime
  -- the request was admitted before it was cancelled, and so not again later
  have hadmitted : msg.requestId ∈ (messagesOf earlier ++ before).filterMap Message.requestId? := by
    by_contra hnot
    have hnone : ∀ m ∈ messagesOf earlier ++ before, m.requestId? ≠ some msg.requestId :=
      fun m hm hid => hnot (List.mem_filterMap.mpr ⟨m, hm, hid⟩)
    obtain ⟨p, hp⟩ := hpending
    obtain ⟨q, hq, -⟩ := exists_pending_of_batch hbetween.poolWf.beginTick
      (fun m hm => hnone m (List.mem_append_right _ hm)) hp
    obtain ⟨q', hq'⟩ := exists_pending_of_run (start_betweenTicks maxSize idleTimeout maxLifetime)
      (fun m hm => hnone m (List.mem_append_left _ hm)) hq
    simp [start, DataBoard.empty, PendingRequestStore.get] at hq'
  have hnever : ∀ m ∈ after ++ messagesOf later, m.requestId? ≠ some msg.requestId := by
    have hmessages : messagesOf (earlier ++ inp :: later) =
        (messagesOf earlier ++ before) ++ .cancel msg :: (after ++ messagesOf later) := by
      simp [messagesOf_append, messagesOf_cons, hcancel]
    rw [hmessages, List.filterMap_append] at hdistinct
    intro m hm hid
    have hagain : msg.requestId ∈
        (.cancel msg :: (after ++ messagesOf later)).filterMap Message.requestId? :=
      List.mem_filterMap.mpr ⟨m, List.mem_cons_of_mem _ hm, hid⟩
    exact (List.nodup_append.mp hdistinct).2.2 _ hadmitted _ hagain rfl
  have hended : Ended msg.requestId (midTick env
      (run env (start maxSize idleTimeout maxLifetime) earlier).2 inp.batch) := by
    intro p' hp'
    rw [midTick, hcancel, List.foldl_append, List.foldl_cons] at hp'
    have hwf := @foldl_handleMessage_poolWf env _ hbetween.poolWf.beginTick
      (before ++ [.cancel msg])
    rw [List.foldl_append] at hwf
    obtain ⟨p, hp, hended⟩ := exists_pending_of_batch hwf
      (fun m hm => hnever m (List.mem_append_left _ hm)) hp'
    apply hended
    rw [List.foldl_cons, List.foldl_nil, handleMessage, handleCancel_get_pending,
      if_pos rfl] at hp
    obtain ⟨q, -, rfl⟩ := Option.map_eq_some_iff.mp hp
    rfl
  exact run_unknown (hbetween.tick inp) hended.swept
    fun m hm => hnever m (List.mem_append_right _ hm)

/-- A tick with a request. -/
def requestTick : TickInput := { requests := [.request { requestId := "r" }] }

/-- A tick in which the client gives up the request. -/
def cancelTick : TickInput := { requests := [.cancel { requestId := "r" }] }

/-- A tick with the audio of the request, should it have been served upstream. -/
def audioTick : TickInput :=
  { events := [
      .response { sessionId := "s-0000000000000000", audioHex := ascii "0a", isFinal := true }] }

/-- A tick with the answer to the request, should it have been served locally. -/
def answerTick : TickInput := { requests := [.localComplete { requestId := "r" }] }

/-- A pending upstream request is cancelled, and nothing is written for it. -/
theorem cancellation_final_upstream :
    ((run sampleEnv (start 16 (seconds 60) (seconds 3600))
        [requestTick]).2.board.pending.get "r").isSome = true ∧
      ∀ cs ∈ (run sampleEnv (tick sampleEnv cancelTick
        (run sampleEnv (start 16 (seconds 60) (seconds 3600)) [requestTick]).2).2 [audioTick]).1,
        ∀ w ∈ cs.clientWrites, w.requestId ≠ "r" :=
  ⟨by decide,
    (cancellation_final_iff sampleEnv 16 (seconds 60) (seconds 3600) [requestTick] [audioTick]
      cancelTick [] [] { requestId := "r" } (by decide) rfl ⟨_, rfl⟩).mpr
      (by simp [messagesOf, audioTick, TickInput.batch, Message.answerId?])⟩

/-- A request that was handed to the local engine is cancelled while it is pending, and
answered in the next tick, once. -/
theorem cancelled_local_answered :
    let hb := (run sampleLocalEnv (start 16 (seconds 60) (seconds 3600)) [requestTick]).2
    ((messagesOf [requestTick, cancelTick, answerTick]).filterMap Message.requestId?).Nodup ∧
      ((messagesOf [requestTick, cancelTick, answerTick]).filterMap Message.answerId?).Nodup ∧
      (hb.board.pending.get "r").isSome = true ∧
      ∃ cs ∈ (run sampleLocalEnv (tick sampleLocalEnv cancelTick hb).2 [answerTick]).1,
        ∃ w ∈ cs.clientWrites, w.requestId = "r" := by
  refine ⟨by decide, by decide, by decide, _, List.mem_singleton_self _, ?_⟩
  exact ⟨completeWrite { requestId := "r" }, List.mem_singleton_self _, rfl⟩

end Heartbeat

end TtsServer
