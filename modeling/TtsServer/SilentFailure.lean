import Mathlib.Data.List.Induction
import TtsServer.Routing

/-!
# Requests that leave the store

A pending request leaves the store on four paths: an answer of the local engine, the
emission of its audio, and the sweep of cancelled and of failed requests. Both
answer and emission write a final response to the client. The sweep writes
nothing, so a request whose session fails or is lost disappears without a word to
its client, unless the client has given it up.
-/

namespace TtsServer

open Lib Heartbeat

namespace History

variable {env : Env} {hb : Heartbeat} {inp : TickInput} {inputs : List TickInput}
  {maxSize : Nat} {idleTimeout maxLifetime : Duration}

/-- The property holds at some moment of the tick while its batch is handled. -/
def DuringTick (env : Env) (inp : TickInput) (hb : Heartbeat) (P : Heartbeat → Prop) : Prop :=
  ∃ ms, ms <+: inp.batch ∧ P (midTick env hb ms)

/-- The client of a pending request gives it up during the tick. -/
def Cancelled (env : Env) (inp : TickInput) (hb : Heartbeat) (rid : String) : Prop :=
  ∃ ms msg, ms ++ [.cancel msg] <+: inp.batch ∧ msg.requestId = rid ∧
    ((midTick env hb ms).board.pending.get rid).isSome = true

/-- Every request that is in the store at some moment of the tick, is not in the store after
it and was not cancelled has a final write in the change set of the tick, with a non-zero
status if the request had failed. -/
def NoSilentLoss (env : Env) (inp : TickInput) (hb : Heartbeat) : Prop :=
  ∀ rid, DuringTick env inp hb (fun hb' => (hb'.board.pending.get rid).isSome = true) →
    (tick env inp hb).2.board.pending.get rid = none → ¬Cancelled env inp hb rid →
    ∃ w ∈ (tick env inp hb).1.clientWrites, w.requestId = rid ∧ w.isFinal = true ∧
      (DuringTick env inp hb (fun hb' => ∃ p, hb'.board.pending.get rid = some p ∧
        p.state = .failed) → w.statusCode ≠ 0)

/-- Every failure and every loss of a session during the tick finds only requests bound to
the session that are cancelled in the same tick. -/
def LosesNoRequest (env : Env) (inp : TickInput) (hb : Heartbeat) : Prop :=
  ∀ ms rsp, ms ++ [.response rsp] <+: inp.batch →
    rsp.kind = .taskFailed ∨ rsp.kind = .disconnected →
    ∀ rid p, (midTick env hb ms).board.pending.get rid = some p →
      p.sessionId = rsp.sessionId → Cancelled env inp hb rid

/-- The requests of a tick after some messages of its batch: those that are not cancelled
have not ended, and each that was in the store still is, or has its final write. -/
structure Accounted (env : Env) (inp : TickInput) (hb : Heartbeat) (ms : List Message) :
    Prop where
  poolWf : (midTick env hb ms).PoolWf
  alive : ∀ {rid p}, ¬Cancelled env inp hb rid →
    (midTick env hb ms).board.pending.get rid = some p → p.state.terminal = false
  answered : ∀ {rid ms'}, ms' <+: ms → ((midTick env hb ms').board.pending.get rid).isSome = true →
    ((midTick env hb ms).board.pending.get rid).isSome = true ∨
      ∃ w ∈ (midTick env hb ms).changeset.clientWrites, w.requestId = rid ∧ w.isFinal = true

/-- One more message. -/
theorem midTick_concat (ms : List Message) (m : Message) :
    midTick env hb (ms ++ [m]) = handleMessage env (midTick env hb ms) m := by
  simp [midTick]

/-- A request with the identifier of a pending one leaves it pending, and not ended unless it
had ended. -/
theorem pending_of_request (hwf : hb.PoolWf) {req : TtsRequestMsg} {p : PendingRequest}
    (hp : hb.board.pending.get req.requestId = some p) :
    ∃ p', (handleRequest env req hb).board.pending.get req.requestId = some p' ∧
      (p.state.terminal = false → p'.state.terminal = false) := by
  cases @step_request env { hb := hb } hwf req with
  | rejected heffect _ => exact ⟨p, heffect.pending ▸ hp, id⟩
  | onLocal heffect _ =>
    obtain ⟨p', hp', hstate, -⟩ := heffect.record
    exact ⟨p', hp', fun _ => by simp [hstate, PendingState.terminal]⟩
  | onSession handle s _ heffect _ =>
    obtain ⟨t, hrecord⟩ := heffect.record
    exact ⟨_, hrecord, fun _ => rfl⟩

/-- A pending request after one message is still pending or has a final write. -/
theorem answered_step (hwf : hb.PoolWf) {m : Message} {rid : String}
    (hsome : (hb.board.pending.get rid).isSome = true) :
    ((handleMessage env hb m).board.pending.get rid).isSome = true ∨
      ∃ w, answerWrite m = some w ∧ w.requestId = rid ∧ w.isFinal = true := by
  obtain ⟨p, hp⟩ := Option.isSome_iff_exists.mp hsome
  by_cases hanswer : m.answerId? = some rid
  · exact Or.inr (exists_answerWrite hanswer)
  · left
    rw [Option.isSome_iff_exists]
    by_cases hrequest : m.requestId? = some rid
    · obtain ⟨req, rfl, rfl⟩ := Message.requestId?_eq_some.mp hrequest
      obtain ⟨p', hp', -⟩ := @pending_of_request env hb hwf req p hp
      exact ⟨p', hp'⟩
    · obtain ⟨p', hp', -⟩ := @step_pending_kept env { hb := hb } hwf m rid p hp hrequest hanswer
      exact ⟨p', hp'⟩

/-- A request that becomes pending has not ended. -/
theorem alive_of_new (hwf : hb.PoolWf) {m : Message} {rid : String} {p' : PendingRequest}
    (hnew : hb.board.pending.get rid = none)
    (hp' : (handleMessage env hb m).board.pending.get rid = some p') :
    p'.state.terminal = false := by
  rcases @step_message_cases env { hb := hb } hwf m with ⟨req, rfl, hadmits⟩ | ⟨hrecedes, -⟩
  · have hpending : (step env { hb := hb } (.message (.request req))).hb.board.pending.get rid =
        some p' := hp'
    cases hadmits with
    | rejected heffect _ =>
      rw [heffect.pending, hnew] at hpending
      cases hpending
    | onLocal heffect _ =>
      by_cases hrid : rid = req.requestId
      · subst hrid
        obtain ⟨p, hp, hstate, -⟩ := heffect.record
        obtain rfl := Option.some.inj (hp.symm.trans hpending)
        simp [hstate, PendingState.terminal]
      · rw [heffect.others hrid, hnew] at hpending
        cases hpending
    | onSession handle s _ heffect _ =>
      by_cases hrid : rid = req.requestId
      · subst hrid
        obtain ⟨t, hrecord⟩ := heffect.record
        obtain rfl := Option.some.inj (hrecord.symm.trans hpending)
        rfl
      · rw [heffect.others hrid, hnew] at hpending
        cases hpending
  · obtain ⟨p, hp, -⟩ := hrecedes.pending hp'
    rw [hnew] at hp
    cases hp

/-- A request is pending and ended after a message only if the message ends it, or it had
ended before. -/
theorem ended_step (hwf : hb.PoolWf) {m : Message} {rid : String} {p' : PendingRequest}
    (hp' : (handleMessage env hb m).board.pending.get rid = some p')
    (hended : p'.state.terminal = true) :
    ∃ p, hb.board.pending.get rid = some p ∧ (EndsBy m rid p ∨ p.state.terminal = true) := by
  cases hp : hb.board.pending.get rid with
  | none =>
    rw [alive_of_new hwf hp hp'] at hended
    cases hended
  | some p =>
    refine ⟨p, rfl, ?_⟩
    by_cases hrequest : m.requestId? = some rid
    · obtain ⟨req, rfl, rfl⟩ := Message.requestId?_eq_some.mp hrequest
      obtain ⟨p'', hp'', halive⟩ := @pending_of_request env hb hwf req p hp
      obtain rfl := Option.some.inj (hp''.symm.trans hp')
      right
      by_contra hnot
      rw [halive (by simpa using hnot)] at hended
      cases hended
    · by_cases hanswer : m.answerId? = some rid
      · -- an answered request is no longer pending
        obtain ⟨w, hw, rfl, -⟩ := exists_answerWrite hanswer
        rw [(@answer_effect env hb m w hw).2.pending, PendingRequestStore.get_remove,
          if_pos rfl] at hp'
        cases hp'
      · obtain ⟨p'', hp'', -, hstate⟩ :=
          @step_pending_kept env { hb := hb } hwf m rid p hp hrequest hanswer
        obtain rfl := Option.some.inj (hp''.symm.trans hp')
        by_cases hends : EndsBy m rid p
        · exact Or.inl hends
        · exact Or.inr (hstate hends ▸ hended)

/-- The requests of a tick that loses none are accounted for at every moment. -/
theorem accounted_of_losesNoRequest (hbetween : BetweenTicks hb)
    (hloses : LosesNoRequest env inp hb) {ms : List Message} (hms : ms <+: inp.batch) :
    Accounted env inp hb ms := by
  have hbegin := hbetween.poolWf.beginTick
  induction ms using List.reverseRecOn with
  | nil =>
    refine ⟨hbegin, fun _ hp => hbetween.alive hp, fun hms' hsome => Or.inl ?_⟩
    rwa [List.prefix_nil.mp hms'] at hsome
  | append_singleton ms m ih =>
    have haccounted := ih ((List.prefix_append ms [m]).trans hms)
    refine ⟨foldl_handleMessage_poolWf hbegin _, ?_, ?_⟩
    · intro rid p' hnot hp'
      by_contra hended
      rw [Bool.not_eq_false] at hended
      rw [midTick_concat] at hp'
      obtain ⟨p, hp, hends | hold⟩ := ended_step haccounted.poolWf hp' hended
      · rcases hends with hcancel | ⟨rsp, rfl, hkind, hsession⟩
        · obtain ⟨msg, rfl, hid⟩ := Message.cancelId?_eq_some.mp hcancel
          exact hnot ⟨ms, msg, hms, hid, by rw [hp]; rfl⟩
        · exact hnot (hloses ms rsp hms hkind rid p hp hsession)
      · rw [haccounted.alive hnot hp] at hold
        cases hold
    · intro rid ms' hms' hsome
      rcases List.prefix_concat_iff.mp hms' with rfl | hms'
      · exact Or.inl hsome
      · have hwrites : (handleMessage env (midTick env hb ms) m).changeset.clientWrites =
            (midTick env hb ms).changeset.clientWrites ++ (answerWrite m).toList :=
          handleMessage_clientWrites m
        rw [midTick_concat, hwrites]
        rcases haccounted.answered hms' hsome with hsome | ⟨w, hw, hid, hfinal⟩
        · rcases @answered_step env _ haccounted.poolWf m rid hsome with hsome | ⟨w, hw, hwrite⟩
          · exact Or.inl hsome
          · exact Or.inr ⟨w, List.mem_append_right _ (by simp [hw]), hwrite⟩
        · exact Or.inr ⟨w, List.mem_append_left _ hw, hid, hfinal⟩

/-- On every reachable board, a tick in which no failure and no loss of a session finds a
request bound to it, apart from requests cancelled in the same tick, loses no request
silently. -/
theorem no_silent_loss
    (hloses : LosesNoRequest env inp (run env (start maxSize idleTimeout maxLifetime) inputs).2) :
    NoSilentLoss env inp (run env (start maxSize idleTimeout maxLifetime) inputs).2 := by
  have hbetween := @betweenTicks_run env inputs maxSize idleTimeout maxLifetime
  set hb := (run env (start maxSize idleTimeout maxLifetime) inputs).2
  have haccounted : ∀ {ms}, ms <+: inp.batch → Accounted env inp hb ms :=
    fun hms => accounted_of_losesNoRequest hbetween hloses hms
  have htick : tick env inp hb = finishTick inp (midTick env hb inp.batch) := rfl
  rintro rid ⟨ms, hms, hsome⟩ hgone hnot
  have hnever : ¬DuringTick env inp hb (fun hb' => ∃ p, hb'.board.pending.get rid = some p ∧
      p.state = .failed) := by
    rintro ⟨ms', hms', p, hp, hfailed⟩
    have halive := (haccounted hms').alive hnot hp
    simp [hfailed, PendingState.terminal] at halive
  have hend := haccounted (List.prefix_refl inp.batch)
  rw [htick] at hgone ⊢
  rw [finishTick_clientWrites]
  rcases hend.answered hms hsome with hsome | ⟨w, hw, hid, hfinal⟩
  · obtain ⟨p, hp⟩ := Option.isSome_iff_exists.mp hsome
    have hready : p.readyToEmit = true := by
      by_contra hready
      have hkept : (finishTick inp (midTick env hb inp.batch)).2.board.pending.get rid = some p :=
        finishTick_get_pending.mpr ⟨hp, by simpa using hready, hend.alive hnot hp⟩
      rw [hgone] at hkept
      cases hkept
    refine ⟨completedWrite rid p, List.mem_append_right _ ?_, rfl, ?_, fun h => absurd h hnever⟩
    · exact List.mem_map.mpr ⟨(rid, p), mem_emissions.mpr ⟨hp, hready⟩, rfl⟩
    · simp only [PendingRequest.readyToEmit, Bool.and_eq_true] at hready
      exact hready.2
  · exact ⟨w, List.mem_append_left _ hw, hid, hfinal, fun h => absurd h hnever⟩

/-- A tick that answers a request and reports the loss of a session that serves none. -/
def answeringTick : TickInput :=
  { requests := [.localComplete { requestId := "a" }]
    events := [.response { sessionId := "s", kind := .disconnected }] }

/-- The answered request of this tick is not lost silently. -/
theorem no_silent_loss_answeringTick :
    NoSilentLoss sampleLocalEnv answeringTick
      (run sampleLocalEnv (start 16 (seconds 60) (seconds 3600))
      [{ requests := [.request { requestId := "a" }] }]).2 := by
  apply no_silent_loss
  rintro ms rsp ⟨rest, hrest⟩ - rid p hp -
  exfalso
  cases ms with
  | nil => simp [answeringTick, TickInput.batch] at hrest
  | cons m ms =>
    cases ms with
    | nil =>
      obtain rfl : Message.localComplete { requestId := "a" } = m := by
        simp only [answeringTick, TickInput.batch, List.cons_append, List.cons.injEq] at hrest
        exact hrest.1.symm
      have hempty : (midTick sampleLocalEnv
          (run sampleLocalEnv (start 16 (seconds 60) (seconds 3600))
          [{ requests := [.request { requestId := "a" }] }]).2
          [.localComplete { requestId := "a" }]).board.pending.size = 0 := by decide +kernel
      rw [PendingRequestStore.size_eq_zero_iff.mp hempty rid] at hp
      cases hp
    | cons m' ms => simp [answeringTick, TickInput.batch] at hrest

/-- A tick that reports the loss of the first session. -/
def losingTick : TickInput :=
  { events := [.response { sessionId := "s-0000000000000000", kind := .disconnected }] }

/-- The request that waits for the lost session disappears without a write. -/
theorem losingTick_silent :
    ¬NoSilentLoss sampleEnv losingTick (run sampleEnv (start 16 (seconds 60) (seconds 3600))
      [{ requests := [.request { requestId := "r" }] }]).2 := by
  intro hnone
  have hpresent : DuringTick sampleEnv losingTick (run sampleEnv (start 16 (seconds 60)
      (seconds 3600)) [{ requests := [.request { requestId := "r" }] }]).2
      (fun hb' => (hb'.board.pending.get "r").isSome = true) :=
    ⟨[], List.nil_prefix, by decide +kernel⟩
  have hnot : ¬Cancelled sampleEnv losingTick (run sampleEnv (start 16 (seconds 60)
      (seconds 3600)) [{ requests := [.request { requestId := "r" }] }]).2 "r" := by
    rintro ⟨ms, msg, ⟨rest, hrest⟩, -⟩
    cases ms <;> simp [losingTick, TickInput.batch] at hrest
  have hsilent : (tick sampleEnv losingTick (run sampleEnv (start 16 (seconds 60) (seconds 3600))
      [{ requests := [.request { requestId := "r" }] }]).2).1.clientWrites = [] := by
    decide +kernel
  obtain ⟨w, hw, -⟩ := hnone "r" hpresent (by decide +kernel) hnot
  rw [hsilent] at hw
  cases hw

end History

end TtsServer
