import TtsServer.Routing

/-!
# Delivery of upstream results

A request that is bound to an upstream session is stored in the state
`AwaitingSession`, and the emission pass only looks at requests in the state
`Streaming`. No handler leads from the one to the other for a bound request:
`bind_session`, which would, is not called by the heartbeat. A request that is
neither cancelled nor lost therefore stays in the store, whatever audio arrives for
it, and nothing is ever written to its client.
-/

namespace TtsServer

open Lib Heartbeat

/-- A tick writes the final response of a request to its client, and the request leaves the
store. -/
def Delivered (cs : ChangeSet) (hb : Heartbeat) (rid : String) : Prop :=
  (∃ w ∈ cs.clientWrites, w.requestId = rid ∧ w.isFinal = true) ∧
    hb.board.pending.get rid = none

namespace History

/-- The premises of upstream delivery, on the small steps of a run: a request with a new
identifier is bound to a session, later a final chunk arrives on the session, and the tick
of this chunk ends. In between the request is not cancelled, the session does not fail, is
not lost, does not expire and is given no other request. The local engine answers only
requests that it was given. -/
structure UpstreamScenario (env : Env) (hb : Heartbeat) (inputs : List TickInput)
    (req : TtsRequestMsg) (handle : SessionHandle) (last : TtsResponseMsg) where
  before : List Step
  between : List Step
  after : List Message
  lastTick : TickInput
  steps_eq : stepsOf inputs = before ++ [Step.message (.request req)] ++ between ++
    [Step.message (.response last)] ++ after.map Step.message ++ [.finish lastTick]
  fresh : ∀ m, Step.message m ∈ before ++ between ++ after.map Step.message →
    m.requestId? ≠ some req.requestId
  bound : admission env req (before.foldl (step env) { hb := hb }).hb = .onSession handle
  chunk : last.sessionId = handle.sessionId ∧ last.kind = .audioChunk ∧ last.isFinal = true
  notCancelled : ∀ m, Step.message m ∈ between ++ after.map Step.message →
    m.cancelId? ≠ some req.requestId
  notLost : ∀ rsp, Step.message (.response rsp) ∈ between ++ after.map Step.message →
    rsp.sessionId = handle.sessionId → rsp.kind ≠ .taskFailed ∧ rsp.kind ≠ .disconnected
  keepsSession : Along (step env)
    (fun h _ => (h.hb.board.sessionPool.get handle.sessionId).map (·.currentRequestId) =
      some req.requestId)
    ((before ++ [Step.message (.request req)]).foldl (step env) { hb := hb })
    (between ++ [Step.message (.response last)])
  answersJobs : ∀ m ∈ messagesOf inputs, m.answerId? ≠ some req.requestId

variable {env : Env} {h : History} {rid sid : String}

/-- A request of which the heartbeat knows nothing. -/
structure Unknown (rid : String) (h : History) : Prop where
  poolWf : h.hb.PoolWf
  pending : h.hb.board.pending.get rid = none
  unwritten : ∀ w ∈ h.hb.changeset.clientWrites, w.requestId ≠ rid

/-- A request that waits for its session. -/
structure Waits (rid sid : String) (h : History) : Prop where
  poolWf : h.hb.PoolWf
  pending : ∃ p, h.hb.board.pending.get rid = some p ∧ p.state = .awaitingSession ∧
    p.sessionId = sid
  unwritten : ∀ w ∈ h.hb.changeset.clientWrites, w.requestId ≠ rid

/-- A message that does not answer a request leaves it unwritten. -/
theorem unwritten_step (hunwritten : ∀ w ∈ h.hb.changeset.clientWrites, w.requestId ≠ rid)
    {m : Message}
    (hanswer : m.answerId? ≠ some rid) :
    ∀ w ∈ (step env h (.message m)).hb.changeset.clientWrites, w.requestId ≠ rid := by
  intro w hw
  rw [step_clientWrites, List.mem_append, Option.mem_toList] at hw
  rcases hw with hw | hw
  · exact hunwritten w hw
  · intro heq
    exact hanswer (heq ▸ (@answer_effect env h.hb m w hw).1)

/-- A request remains unknown until it arrives. -/
theorem Unknown.message (hunknown : Unknown rid h) {m : Message} (hreq : m.requestId? ≠ some rid)
    (hanswer : m.answerId? ≠ some rid) : Unknown rid (step env h (.message m)) where
  poolWf := step_poolWf hunknown.poolWf _
  unwritten := unwritten_step hunknown.unwritten hanswer
  pending := by
    rcases @step_message_cases env h hunknown.poolWf m with ⟨req, rfl, hadmits⟩ | ⟨hstep, -⟩
    · have hne : rid ≠ req.requestId := fun heq => hreq (heq ▸ rfl)
      cases hadmits with
      | rejected heffect _ => rw [heffect.pending, hunknown.pending]
      | onLocal heffect _ => rw [heffect.others hne, hunknown.pending]
      | onSession handle s _ heffect _ => rw [heffect.others hne, hunknown.pending]
    · cases hget : (step env h (.message m)).hb.board.pending.get rid with
      | none => rfl
      | some p' =>
        obtain ⟨p, hp, -⟩ := hstep.pending hget
        rw [hunknown.pending] at hp
        cases hp

/-- The start of a tick leaves a request unknown. -/
theorem Unknown.begin (hunknown : Unknown rid h) : Unknown rid (step env h .begin) :=
  ⟨step_poolWf hunknown.poolWf _, hunknown.pending, hunknown.unwritten⟩

/-- The end of a tick leaves a request unknown. -/
theorem Unknown.finish (hunknown : Unknown rid h) (inp : TickInput) :
    Unknown rid (step env h (.finish inp)) where
  poolWf := step_poolWf hunknown.poolWf _
  pending := by
    cases hget : (finishTick inp h.hb).2.board.pending.get rid with
    | none => exact hget
    | some p =>
      have hp := (finishTick_get_pending.mp hget).1
      rw [hunknown.pending] at hp
      cases hp
  unwritten := fun w hw => absurd hw List.not_mem_nil

/-- A message that leaves a waiting request and its session alone. -/
structure Spares (rid sid : String) (m : Message) : Prop where
  request : m.requestId? ≠ some rid
  answer : m.answerId? ≠ some rid
  cancel : m.cancelId? ≠ some rid
  response : ∀ rsp, m = .response rsp → rsp.sessionId = sid →
    rsp.kind ≠ .taskFailed ∧ rsp.kind ≠ .disconnected

/-- A message that spares a request does not end it. -/
theorem Spares.not_endsBy {m : Message} (hm : Spares rid sid m) {p : PendingRequest}
    (hsession : p.sessionId = sid) : ¬EndsBy m rid p := by
  rintro (hcancel | ⟨rsp, hrsp, hkind, hlost⟩)
  · exact hm.cancel hcancel
  · obtain ⟨hfailed, hdisconnected⟩ := hm.response rsp hrsp (hlost.symm.trans hsession)
    exact hkind.elim hfailed hdisconnected

/-- A chunk does not end the wait of a request. -/
theorem Waits.message (hwaits : Waits rid sid h) {m : Message} (hm : Spares rid sid m) :
    Waits rid sid (step env h (.message m)) where
  poolWf := step_poolWf hwaits.poolWf _
  unwritten := unwritten_step hwaits.unwritten hm.answer
  pending := by
    obtain ⟨p, hp, hstate, hsession⟩ := hwaits.pending
    obtain ⟨p', hp', hsession', hstate'⟩ :=
      step_pending_kept hwaits.poolWf hp hm.request hm.answer
    exact ⟨p', hp', (hstate' (hm.not_endsBy hsession)).trans hstate, hsession'.trans hsession⟩

/-- The start of a tick does not end the wait. -/
theorem Waits.begin (hwaits : Waits rid sid h) : Waits rid sid (step env h .begin) :=
  ⟨step_poolWf hwaits.poolWf _, hwaits.pending, hwaits.unwritten⟩

/-- The end of a tick neither emits nor sweeps a waiting request. -/
theorem Waits.finish (hwaits : Waits rid sid h) (inp : TickInput) :
    Waits rid sid (step env h (.finish inp)) ∧
      ∀ w ∈ (finishTick inp h.hb).1.clientWrites, w.requestId ≠ rid := by
  obtain ⟨p, hp, hstate, hsession⟩ := hwaits.pending
  have hnot : p.readyToEmit = false := by simp [PendingRequest.readyToEmit, hstate]
  refine ⟨⟨step_poolWf hwaits.poolWf _, ⟨p, ?_, hstate, hsession⟩, fun w hw =>
    absurd hw List.not_mem_nil⟩, ?_⟩
  · exact finishTick_get_pending.mpr ⟨hp, hnot, by simp [hstate, PendingState.terminal]⟩
  · intro w hw
    rw [finishTick_clientWrites, List.mem_append] at hw
    rcases hw with hw | hw
    · exact hwaits.unwritten w hw
    · obtain ⟨⟨rid', p'⟩, hmem, rfl⟩ := List.mem_map.mp hw
      obtain ⟨hp', hready⟩ := mem_emissions.mp hmem
      rintro rfl
      obtain rfl := Option.some.inj (hp.symm.trans hp')
      rw [hnot] at hready
      cases hready

/-- Small steps that spare a waiting request. -/
theorem Waits.steps {ls : List Step} (hwaits : Waits rid sid h)
    (hls : ∀ m, Step.message m ∈ ls → Spares rid sid m) :
    Waits rid sid (ls.foldl (step env) h) := by
  induction ls generalizing h with
  | nil => exact hwaits
  | cons l ls ih =>
    refine ih ?_ fun m hm => hls m (List.mem_cons_of_mem _ hm)
    cases l with
    | begin => exact hwaits.begin
    | message m => exact hwaits.message (hls m List.mem_cons_self)
    | finish inp => exact (hwaits.finish inp).1

/-- Small steps before a request arrives. -/
theorem Unknown.steps {ls : List Step} (hunknown : Unknown rid h)
    (hls : ∀ m, Step.message m ∈ ls → m.requestId? ≠ some rid ∧ m.answerId? ≠ some rid) :
    Unknown rid (ls.foldl (step env) h) := by
  induction ls generalizing h with
  | nil => exact hunknown
  | cons l ls ih =>
    refine ih ?_ fun m hm => hls m (List.mem_cons_of_mem _ hm)
    cases l with
    | begin => exact hunknown.begin
    | message m =>
      obtain ⟨hreq, hanswer⟩ := hls m List.mem_cons_self
      exact hunknown.message hreq hanswer
    | finish inp => exact hunknown.finish inp

/-- A request that is bound to a session waits for it. -/
theorem Unknown.bind {req : TtsRequestMsg} {handle : SessionHandle}
    (hunknown : Unknown req.requestId h) (hbound : admission env req h.hb = .onSession handle) :
    Waits req.requestId handle.sessionId (step env h (.message (.request req))) where
  poolWf := step_poolWf hunknown.poolWf _
  unwritten := unwritten_step hunknown.unwritten (by simp [Message.answerId?])
  pending := by
    rcases @handleRequest_effect env h.hb req hunknown.poolWf.wellKeyed hunknown.poolWf.named with
      ⟨hdecision | hdecision, -⟩ | ⟨hdecision, -⟩ | ⟨handle', s, hdecision, heffect⟩
    · rw [hbound] at hdecision
      cases hdecision
    · rw [hbound] at hdecision
      cases hdecision
    · rw [hbound] at hdecision
      cases hdecision
    · rw [hbound] at hdecision
      obtain rfl := Admission.onSession.inj hdecision
      obtain ⟨t, hrecord⟩ := heffect.record
      exact ⟨_, hrecord, rfl, rfl⟩

variable {inputs : List TickInput} {maxSize : Nat} {idleTimeout maxLifetime : Duration}
  {req : TtsRequestMsg} {handle : SessionHandle} {last : TtsResponseMsg}

/-- The steps of a scenario after the binding spare the request. -/
theorem UpstreamScenario.spares {hb : Heartbeat}
    (sc : UpstreamScenario env hb inputs req handle last) {m : Message}
    (hm : Step.message m ∈ sc.between ++ [Step.message (.response last)] ++
      sc.after.map Step.message) : Spares req.requestId handle.sessionId m := by
  have hanswer : m.answerId? ≠ some req.requestId := by
    apply sc.answersJobs
    rw [mem_messagesOf, sc.steps_eq]
    simp only [List.mem_append] at hm ⊢
    tauto
  by_cases hlast : m = .response last
  · subst hlast
    obtain ⟨-, hkind, -⟩ := sc.chunk
    refine ⟨by simp [Message.requestId?], hanswer, by simp [Message.cancelId?], ?_⟩
    rintro rsp hrsp -
    obtain rfl := Message.response.inj hrsp
    simp [hkind]
  · have hrest : Step.message m ∈ sc.between ++ sc.after.map Step.message := by
      simp only [List.mem_append, List.mem_singleton, Step.message.injEq, hlast, or_false] at hm ⊢
      exact hm
    refine ⟨sc.fresh m ?_, hanswer, sc.notCancelled m hrest, ?_⟩
    · simp only [List.mem_append] at hrest ⊢
      tauto
    · rintro rsp rfl hsession
      exact sc.notLost rsp hrest hsession

/-- Whenever the premises of upstream delivery are met, the tick that processes the final
chunk writes nothing to the client of the request, and the request stays in the store. -/
theorem upstream_never_delivered
    (sc : UpstreamScenario env (start maxSize idleTimeout maxLifetime) inputs req handle last) :
    ∃ cs, (run env (start maxSize idleTimeout maxLifetime) inputs).1.getLast? = some cs ∧
      ¬Delivered cs (run env (start maxSize idleTimeout maxLifetime) inputs).2 req.requestId ∧
      (∀ w ∈ cs.clientWrites, w.requestId ≠ req.requestId) ∧
      ∃ p, (run env (start maxSize idleTimeout maxLifetime) inputs).2.board.pending.get
        req.requestId = some p ∧ p.state = .awaitingSession := by
  have hstart : Unknown req.requestId { hb := start maxSize idleTimeout maxLifetime } :=
    ⟨start_poolWf maxSize idleTimeout maxLifetime, rfl, fun w hw => absurd hw List.not_mem_nil⟩
  have hbefore : Unknown req.requestId
      (sc.before.foldl (step env) { hb := start maxSize idleTimeout maxLifetime }) := by
    refine hstart.steps fun m hm => ⟨sc.fresh m (by simp [hm]), sc.answersJobs m ?_⟩
    rw [mem_messagesOf, sc.steps_eq]
    simp [hm]
  have hbound := hbefore.bind sc.bound
  set rest := sc.between ++ [Step.message (.response last)] ++ sc.after.map Step.message with hrest
  have hwaits : Waits req.requestId handle.sessionId (rest.foldl (step env)
      (step env (sc.before.foldl (step env) { hb := start maxSize idleTimeout maxLifetime })
        (.message (.request req)))) :=
    hbound.steps fun m hm => sc.spares hm
  set h := rest.foldl (step env) _
  have hof : of env (start maxSize idleTimeout maxLifetime) inputs =
      step env h (.finish sc.lastTick) := by
    simp only [of, sc.steps_eq, h, hrest, List.foldl_append, List.foldl_cons, List.foldl_nil]
  obtain ⟨hend, hunwritten⟩ : Waits req.requestId handle.sessionId
      (step env h (.finish sc.lastTick)) ∧ _ := hwaits.finish sc.lastTick
  obtain ⟨p, hp, hstate, -⟩ := hend.pending
  obtain ⟨hhb, hsets⟩ := @of_eq_run env (start maxSize idleTimeout maxLifetime) inputs
  rw [hof] at hhb hsets
  rw [← hhb, ← hsets]
  refine ⟨(finishTick sc.lastTick h.hb).1, by simp [step], ?_, hunwritten, p, hp, hstate⟩
  rintro ⟨⟨w, hw, hid, -⟩, -⟩
  exact hunwritten w hw hid

/-- A request, then the connection of its session and its complete audio. -/
def answeredUpstream : List TickInput :=
  [{ requests := [.request { requestId := "r" }] },
   { events := [.response { sessionId := "s-0000000000000000", kind := .connected },
      .response { sessionId := "s-0000000000000000", audioHex := ascii "00ff", isFinal := true }] }]

/-- The sample run meets the premises of upstream delivery. -/
theorem answeredUpstream_scenario :
    Nonempty (UpstreamScenario sampleEnv (start 16 (seconds 60) (seconds 3600)) answeredUpstream
      { requestId := "r" } ⟨"s-0000000000000000", false⟩
      { sessionId := "s-0000000000000000", audioHex := ascii "00ff", isFinal := true }) :=
  ⟨{
    before := [.begin]
    between := [.finish { requests := [.request { requestId := "r" }] }, .begin,
      .message (.response { sessionId := "s-0000000000000000", kind := .connected })]
    after := []
    lastTick := answeredUpstream[1]
    steps_eq := rfl
    fresh := by simp [Message.requestId?]
    bound := rfl
    chunk := ⟨rfl, rfl, rfl⟩
    notCancelled := by simp [Message.cancelId?]
    notLost := by simp
    keepsSession := by decide +kernel
    answersJobs := by simp [answeredUpstream, messagesOf, TickInput.batch, Message.answerId?] }⟩

/-- The sample run ends with the request still waiting. -/
theorem upstream_never_delivered_answered :
    ∃ p, (run sampleEnv (start 16 (seconds 60) (seconds 3600)) answeredUpstream).2.board.pending.get
      "r" = some p ∧ p.state = .awaitingSession := by
  obtain ⟨scenario⟩ := answeredUpstream_scenario
  obtain ⟨cs, -, -, -, hpending⟩ := upstream_never_delivered scenario
  exact hpending

/-- The sample run meets the premises of upstream delivery, and nothing is delivered. -/
theorem answeredUpstream_undelivered :
    Nonempty (UpstreamScenario sampleEnv (start 16 (seconds 60) (seconds 3600)) answeredUpstream
      { requestId := "r" } ⟨"s-0000000000000000", false⟩
      { sessionId := "s-0000000000000000", audioHex := ascii "00ff", isFinal := true }) ∧
    ∀ cs, (run sampleEnv (start 16 (seconds 60) (seconds 3600)) answeredUpstream).1.getLast? =
      some cs →
      ¬Delivered cs (run sampleEnv (start 16 (seconds 60) (seconds 3600)) answeredUpstream).2
        "r" := by
  refine ⟨answeredUpstream_scenario, fun cs _ hdelivered => ?_⟩
  have hpending : ((run sampleEnv (start 16 (seconds 60) (seconds 3600))
      answeredUpstream).2.board.pending.get "r").isSome = true := by decide +kernel
  rw [hdelivered.2] at hpending
  cases hpending

end History

end TtsServer
