import TtsServer.SessionStates

/-!
# Sessions that expire

At the end of a tick `evolve` closes the sessions that have reached their maximal
lifetime and the ready sessions that have been idle. Neither path looks at the
requests of a session, so a request can stay behind without the session it names;
failures and losses, in contrast, end the requests of their session. And the lifetime
is counted from a field that nothing sets: the reading of the clock, and not the age
of the session, decides.
-/

namespace TtsServer

open Lib Heartbeat

namespace History

variable {env : Env} {h : History} {inputs : List TickInput}

/-! ### Requests without a session -/

/-- Every pending request that was bound to a session names a session of the pool. -/
def NoOrphan (h : History) : Prop :=
  ∀ rid ∈ h.upstream, ∀ p ∈ h.hb.board.pending.get rid,
    (h.hb.board.sessionPool.get p.sessionId).isSome = true

/-- No tick leaves a request without its session. -/
def LeavesNoOrphan (env : Env) (h : History) : Step → Prop
  | .finish inp => (step env h (.finish inp)).NoOrphan
  | _ => True

/-- A tick at whose end no session expires that a live request is bound to. -/
def ExpiresUnused (h : History) : Step → Prop
  | .finish inp => ∀ rid ∈ h.upstream, ∀ p ∈ h.hb.board.pending.get rid,
      p.state.terminal = false → ∀ s ∈ h.hb.board.sessionPool.get p.sessionId,
        h.hb.board.sessionPool.lifetimeExpired inp.now s = false ∧
          h.hb.board.sessionPool.idleExpired inp.now s = false
  | _ => True

instance (env : Env) (h : History) : ∀ l, Decidable (LeavesNoOrphan env h l)
  | .finish _ => inferInstanceAs (Decidable (∀ rid ∈ _, ∀ p ∈ _, _))
  | .begin => .isTrue trivial
  | .message _ => .isTrue trivial

instance (h : History) : ∀ l, Decidable (ExpiresUnused h l)
  | .finish _ => inferInstanceAs (Decidable (∀ rid ∈ _, ∀ p ∈ _, _ → ∀ s ∈ _, _))
  | .begin => .isTrue trivial
  | .message _ => .isTrue trivial

/-- The live requests that were bound to a session have it, and it has not failed. -/
structure Sheltered (h : History) : Prop where
  routed : h.Routed
  session : ∀ {rid p}, h.hb.board.pending.get rid = some p → rid ∈ h.upstream →
    p.state.terminal = false →
    ∃ s, h.hb.board.sessionPool.get p.sessionId = some s ∧ s.failedOrClosed = false

/-- A session that has not failed stays, unless the event reports its failure or its loss. -/
theorem handleResponse_spares {hb : Heartbeat} {rsp : TtsResponseMsg} {sid : String}
    {s : SessionRecord} (hs : hb.board.sessionPool.get sid = some s)
    (hsound : s.failedOrClosed = false)
    (hother : sid = rsp.sessionId → rsp.kind ≠ .taskFailed ∧ rsp.kind ≠ .disconnected) :
    ∃ s', (handleResponse env rsp hb).board.sessionPool.get sid = some s' ∧
      s'.failedOrClosed = false := by
  rw [handleResponse_get_session, hs]
  split
  · split
    · exact ⟨_, rfl, rfl⟩
    · exact ⟨s, rfl, hsound⟩
  · rename_i hkind
    split
    · rename_i heq
      exact absurd hkind (hother heq).1
    · exact ⟨s, rfl, hsound⟩
  · rename_i hkind
    split
    · rename_i heq
      exact absurd hkind (hother heq).2
    · exact ⟨s, rfl, hsound⟩
  · exact ⟨s, rfl, hsound⟩

/-- An upstream event keeps live requests on their sessions: the requests of a session that
fails or is lost end. -/
theorem Sheltered.response (hsheltered : h.Sheltered) {rsp : TtsResponseMsg} {rid : String}
    {p' : PendingRequest}
    (hp' : (handleResponse env rsp h.hb).board.pending.get rid = some p')
    (hrid : rid ∈ h.upstream) (hlive : p'.state.terminal = false) :
    ∃ s, (handleResponse env rsp h.hb).board.sessionPool.get p'.sessionId = some s ∧
      s.failedOrClosed = false := by
  obtain ⟨p, hp, hsid, hstate, -⟩ :=
    (@handleResponse_recedes env h.hb hsheltered.routed.poolWf.wellKeyed rsp).pending hp'
  have hstate : p'.state = p.state := by
    rcases hstate with hsame | hterminal
    · exact hsame
    · rw [hlive] at hterminal
      cases hterminal
  obtain ⟨s, hs, hsound⟩ := hsheltered.session hp hrid (hstate ▸ hlive)
  rw [hsid]
  refine handleResponse_spares hs hsound fun heq => ?_
  rw [handleResponse_get_pending, hp] at hp'
  constructor
  · intro hkind
    simp only [hkind, Option.map_some, heq, if_true, Option.some.injEq] at hp'
    rw [← hp'] at hlive
    cases hlive
  · intro hkind
    simp only [hkind, Option.map_some, heq, if_true, Option.some.injEq] at hp'
    rw [← hp'] at hlive
    cases hlive

/-- A request with a new identifier keeps live requests on their sessions. -/
theorem Sheltered.request (hsheltered : h.Sheltered) {req : TtsRequestMsg}
    (hfresh : req.requestId ∉ h.requestIds) {rid : String} {p : PendingRequest}
    (hp : (step env h (.message (.request req))).hb.board.pending.get rid = some p)
    (hrid : rid ∈ (step env h (.message (.request req))).upstream)
    (hlive : p.state.terminal = false) :
    ∃ s, (step env h (.message (.request req))).hb.board.sessionPool.get p.sessionId = some s ∧
      s.failedOrClosed = false := by
  cases @step_request env h hsheltered.routed.poolWf req with
  | rejected heffect hupstream =>
    rw [hupstream] at hrid
    rw [heffect.pending] at hp
    rw [heffect.sessionPool]
    exact hsheltered.session hp hrid hlive
  | onLocal heffect hupstream =>
    rw [hupstream] at hrid
    have hne : rid ≠ req.requestId := fun heq =>
      hfresh (heq ▸ hsheltered.routed.upstream_seen hrid)
    rw [heffect.others hne] at hp
    rw [heffect.sessionPool]
    exact hsheltered.session hp hrid hlive
  | onSession handle s _ heffect hupstream =>
    have hsound : ({ s with currentRequestId := req.requestId } :
        SessionRecord).failedOrClosed = false := by
      rcases heffect.acquired with ⟨-, idle, -, -, rfl⟩ | ⟨-, -, rfl⟩ <;> rfl
    rw [heffect.session]
    by_cases heq : rid = req.requestId
    · subst heq
      obtain ⟨t, hrecord⟩ := heffect.record
      obtain rfl := Option.some.inj (hrecord.symm.trans hp)
      exact ⟨_, if_pos rfl, hsound⟩
    · rw [heffect.others heq] at hp
      rw [hupstream, List.mem_append, List.mem_singleton] at hrid
      by_cases hsid : p.sessionId = handle.sessionId
      · exact ⟨_, if_pos hsid, hsound⟩
      · rw [if_neg hsid]
        exact hsheltered.session hp (hrid.resolve_right heq) hlive

/-- An answer of the local engine keeps live requests on their sessions. -/
theorem Sheltered.answer (hsheltered : h.Sheltered) {hb' : Heartbeat} {id : String}
    {w : WriteToClient} (heffect : Answered id w h.hb hb') {rid : String} {p : PendingRequest}
    (hp : hb'.board.pending.get rid = some p) (hrid : rid ∈ h.upstream)
    (hlive : p.state.terminal = false) :
    ∃ s, hb'.board.sessionPool.get p.sessionId = some s ∧ s.failedOrClosed = false := by
  rw [heffect.pending, PendingRequestStore.get_remove] at hp
  rw [heffect.sessionPool]
  split at hp
  · cases hp
  · exact hsheltered.session hp hrid hlive

/-- A message with a new request identifier, if any, keeps live requests on their sessions. -/
theorem Sheltered.message (hsheltered : h.Sheltered) {m : Message} (hfresh : h.Fresh m) :
    (step env h (.message m)).Sheltered := by
  refine ⟨hsheltered.routed.message hfresh, fun {rid p'} hp' hrid hlive => ?_⟩
  cases m with
  | request req => exact hsheltered.request (hfresh req.requestId rfl) hp' hrid hlive
  | response rsp =>
    simp only [step, bindings, List.append_nil] at hrid
    exact hsheltered.response hp' hrid hlive
  | cancel msg =>
    simp only [step, bindings, List.append_nil] at hrid
    simp only [step, handleMessage, handleCancel_get_pending] at hp'
    split at hp'
    · obtain ⟨p, -, rfl⟩ := Option.map_eq_some_iff.mp hp'
      cases hlive
    · exact hsheltered.session hp' hrid hlive
  | localComplete c =>
    simp only [step, bindings, List.append_nil] at hrid
    exact hsheltered.answer (@answer_effect env h.hb (.localComplete c) _ rfl).2 hp' hrid hlive
  | localFailed f =>
    simp only [step, bindings, List.append_nil] at hrid
    exact hsheltered.answer (@answer_effect env h.hb (.localFailed f) _ rfl).2 hp' hrid hlive

/-- With pairwise distinct request identifiers, the end of a tick closes exactly the sessions
that have failed in it or expire. -/
theorem Routed.finish_get_session (hrouted : h.Routed) {inp : TickInput} {sid : String}
    {s : SessionRecord} :
    (step env h (.finish inp)).hb.board.sessionPool.get sid = some s ↔
      h.hb.board.sessionPool.get sid = some s ∧
        ¬(sid ∈ (emitReady h.hb).changedSessions ∧ s.failedOrClosed = true) ∧
        h.hb.board.sessionPool.lifetimeExpired inp.now s = false ∧
        h.hb.board.sessionPool.idleExpired inp.now s = false := by
  have hstep : (step env h (.finish inp)).hb.board.sessionPool.get sid = some s ↔ _ :=
    finishTick_get_session hrouted.poolWf.wellKeyed
  rw [hstep, emitReady_emitted.session, hrouted.emissions_eq_nil]
  simp only [List.map_nil, List.not_mem_nil, if_false, Option.map_id', SessionPool.closes,
    emitReady_lifetimeExpired, emitReady_idleExpired, not_or, Bool.not_eq_true]
  refine and_congr_right fun hs => ?_
  rw [hrouted.poolWf.wellKeyed.sessionId_eq hs]

/-- A pending request that is neither failed nor cancelled survives the end of a tick. -/
theorem Routed.finish_get_pending (hrouted : h.Routed) {inp : TickInput} {rid : String}
    {p : PendingRequest} :
    (step env h (.finish inp)).hb.board.pending.get rid = some p ↔
      h.hb.board.pending.get rid = some p ∧ p.state.terminal = false := by
  have hstep : (step env h (.finish inp)).hb.board.pending.get rid = some p ↔ _ :=
    finishTick_get_pending
  rw [hstep]
  refine and_congr_right fun hp => ?_
  simp [hrouted.not_readyToEmit hp]

/-- At the end of a tick that spares the sessions of live requests, live requests keep their
sessions. -/
theorem Sheltered.finish (hsheltered : h.Sheltered) {inp : TickInput}
    (hspares : ExpiresUnused h (.finish inp)) : (step env h (.finish inp)).Sheltered := by
  refine ⟨hsheltered.routed.finish inp, fun {rid p} hp hrid hlive => ?_⟩
  rw [upstream_finish] at hrid
  obtain ⟨hp, -⟩ := hsheltered.routed.finish_get_pending.mp hp
  obtain ⟨s, hs, hsound⟩ := hsheltered.session hp hrid hlive
  refine ⟨s, hsheltered.routed.finish_get_session.mpr ⟨hs, ?_, hspares rid hrid p hp hlive s hs⟩,
    hsound⟩
  rintro ⟨-, hfailed⟩
  rw [hsound] at hfailed
  cases hfailed

/-- A tick leaves no request behind exactly when it spares the sessions of live requests. -/
theorem leavesNoOrphan_finish_iff (hsheltered : h.Sheltered) (inp : TickInput) :
    LeavesNoOrphan env h (.finish inp) ↔ ExpiresUnused h (.finish inp) := by
  constructor
  · intro hnone rid hrid p hp hlive s hs
    have hkept : (step env h (.finish inp)).hb.board.pending.get rid = some p :=
      hsheltered.routed.finish_get_pending.mpr ⟨hp, hlive⟩
    have hsome := hnone rid (by rw [upstream_finish]; exact hrid) p hkept
    obtain ⟨s', hs'⟩ := Option.isSome_iff_exists.mp hsome
    obtain ⟨hsame, -, hspared⟩ := hsheltered.routed.finish_get_session.mp hs'
    obtain rfl := Option.some.inj (hsame.symm.trans hs)
    exact hspared
  · intro hspares rid hrid p hp
    have hlive := (hsheltered.routed.finish_get_pending.mp hp).2
    obtain ⟨s, hs, -⟩ := (hsheltered.finish hspares).session hp hrid hlive
    rw [hs]
    rfl

/-- In a run from an empty board with pairwise distinct request identifiers, every tick leaves
all pending requests that were bound to a session with their session exactly when no tick ends
with a session expiring that a live request is bound to. -/
theorem no_orphaned_request_iff {maxSize : Nat} {idleTimeout maxLifetime : Duration}
    (hids : ((messagesOf inputs).filterMap Message.requestId?).Nodup) :
    Along (step env) (LeavesNoOrphan env) { hb := start maxSize idleTimeout maxLifetime }
        (stepsOf inputs) ↔
      Along (step env) ExpiresUnused { hb := start maxSize idleTimeout maxLifetime }
        (stepsOf inputs) := by
  have hfresh : Handles env (start maxSize idleTimeout maxLifetime) inputs Fresh :=
    handles_fresh Message.requestId? hids
  have hstart : Sheltered { hb := start maxSize idleTimeout maxLifetime } :=
    ⟨start_routed maxSize idleTimeout maxLifetime, fun hp => by
      simp [start, DataBoard.empty, PendingRequestStore.get] at hp⟩
  have hiff (h : History) (l : Step) (hsheltered : h.Sheltered) :
      LeavesNoOrphan env h l ↔ ExpiresUnused h l := by
    cases l with
    | begin => exact Iff.rfl
    | message m => exact Iff.rfl
    | finish inp => exact leavesNoOrphan_finish_iff hsheltered inp
  have hrun := @along_congr_of_invariant _ _ (step env)
    (fun h l => (∀ m ∈ l.message?, Fresh h m) ∧ LeavesNoOrphan env h l)
    (fun h l => (∀ m ∈ l.message?, Fresh h m) ∧ ExpiresUnused h l) _ (stepsOf inputs) Sheltered
    hstart ?_ fun h l hsheltered => and_congr_right fun _ => hiff h l hsheltered
  · rw [along_and, along_and] at hrun
    exact ⟨fun hleaves => (hrun.mp ⟨hfresh, hleaves⟩).2,
      fun hspares => (hrun.mpr ⟨hfresh, hspares⟩).2⟩
  · rintro h l hsheltered ⟨hnew, hleaves⟩
    rw [hiff h l hsheltered] at hleaves
    cases l with
    | begin => exact ⟨hsheltered.routed.begin, hsheltered.session⟩
    | message m => exact hsheltered.message (hnew m rfl)
    | finish inp => exact hsheltered.finish hleaves

/-- A request that fails with its session, and one that waits. -/
def shelteredRun : List TickInput :=
  [{ requests := [.request { requestId := "a" }, .request { requestId := "b" }] },
   { events := [.response { sessionId := "s-0000000000000000", kind := .taskFailed }],
     now := seconds 30 }]

/-- In this run no tick leaves a request behind, and one request is still waiting. -/
theorem no_orphaned_request_shelteredRun :
    (Along (step sampleEnv) (LeavesNoOrphan sampleEnv)
        { hb := start 16 (seconds 60) (seconds 3600) } (stepsOf shelteredRun) ↔
      Along (step sampleEnv) ExpiresUnused { hb := start 16 (seconds 60) (seconds 3600) }
        (stepsOf shelteredRun)) ∧
    Along (step sampleEnv) ExpiresUnused { hb := start 16 (seconds 60) (seconds 3600) }
      (stepsOf shelteredRun) ∧
    (of sampleEnv (start 16 (seconds 60) (seconds 3600)) shelteredRun).hb.board.pending.size = 1 :=
  ⟨no_orphaned_request_iff (by decide), by decide +kernel, by decide +kernel⟩

/-- A session that connects and expires while its request waits. -/
def orphanedRun : List TickInput :=
  [{ requests := [.request { requestId := "a" }] },
   { events := [.response { sessionId := "s-0000000000000000", kind := .connected }] },
   { startedAt := seconds 120, now := seconds 120, endedAt := seconds 120 }]

/-- After this run the request is pending and its session is gone. -/
theorem orphanedRun_orphans :
    ((messagesOf orphanedRun).filterMap Message.requestId?).Nodup ∧
      ¬(of sampleEnv (start 16 (seconds 60) (seconds 3600)) orphanedRun).NoOrphan ∧
      ¬Along (step sampleEnv) (LeavesNoOrphan sampleEnv)
        { hb := start 16 (seconds 60) (seconds 3600) } (stepsOf orphanedRun) :=
  ⟨by decide, by unfold NoOrphan; decide +kernel, by decide +kernel⟩

end History

/-! ### The lifetime of a session -/

namespace Heartbeat

variable {env : Env} {hb : Heartbeat} {inputs : List TickInput}

/-- The sessions that a batch creates. -/
def createdIn (env : Env) : Heartbeat → List Message → List String
  | _, [] => []
  | hb, m :: ms => createdBy env hb m ++ createdIn env (handleMessage env hb m) ms

/-- The ticks of a run with a log of the sessions they create, each with the reading of the
injected clock at the start of the tick. -/
def aging (env : Env) :
    Heartbeat × List (String × TimePoint) → TickInput → Heartbeat × List (String × TimePoint) :=
  logged (fun hb inp => (tick env inp hb).2) fun hb inp =>
    (createdIn env hb.beginTick inp.batch).map fun sid => (sid, inp.startedAt)

/-- The reading of the clock when a session was last created. -/
def bornAt (births : List (String × TimePoint)) (sid : String) : Option TimePoint :=
  ((births.filter fun b => b.1 = sid).getLast?).map Prod.snd

/-- A tick closes for its age only a session that is at least as old as the maximal lifetime. -/
def ClosesOld (env : Env) (maxLifetime : Duration) (x : Heartbeat × List (String × TimePoint))
    (inp : TickInput) : Prop :=
  ∀ c ∈ (tick env inp x.1).1.closeSessions, c.reason = "lifetime_exceeded" →
    ∃ t ∈ bornAt (aging env x inp).2 c.sessionId, inp.now - t ≥ maxLifetime

/-- The state of a tick when the board evolves. -/
def beforeEvolve (env : Env) (inp : TickInput) (hb : Heartbeat) : Heartbeat :=
  emitReady (midTick env hb inp.batch)

/-- If the clock of a tick has reached the maximal lifetime, the sessions that have not failed
in the tick are at least that old. -/
def OldByThen (env : Env) (maxLifetime : Duration) (x : Heartbeat × List (String × TimePoint))
    (inp : TickInput) : Prop :=
  inp.now ≥ maxLifetime →
    ∀ sid s, (beforeEvolve env inp x.1).board.sessionPool.get sid = some s →
      ¬(sid ∈ (beforeEvolve env inp x.1).changedSessions ∧ s.failedOrClosed = true) →
      ∃ t ∈ bornAt (aging env x inp).2 sid, inp.now - t ≥ maxLifetime

/-- What the pool keeps throughout: the creation time of every session is the default, and the
maximal lifetime is fixed. -/
structure Unaged (maxLifetime : Duration) (hb : Heartbeat) : Prop where
  createdAt : ∀ {sid s}, hb.board.sessionPool.get sid = some s → s.createdAt = 0
  maxLifetime_eq : hb.board.sessionPool.maxLifetime = maxLifetime

/-- Every session after a batch was in the pool before or was created by it. -/
theorem foldl_handleMessage_sessions {ms : List Message} (hwf : hb.PoolWf) {sid : String}
    {s' : SessionRecord}
    (hs' : (ms.foldl (handleMessage env) hb).board.sessionPool.get sid = some s') :
    sid ∈ createdIn env hb ms ∨ ∃ s, hb.board.sessionPool.get sid = some s := by
  induction ms generalizing hb with
  | nil => exact Or.inr ⟨s', hs'⟩
  | cons m ms ih =>
    rcases ih (History.handleMessage_poolWf hwf m) hs' with hcreated | ⟨s, hs⟩
    · exact Or.inl (List.mem_append_right _ hcreated)
    · rcases @History.step_message_state env { hb := hb } sid s hwf m hs with
        ⟨hcreated, -⟩ | ⟨-, s₀, hs₀, -⟩
      · exact Or.inl (List.mem_append_left _ hcreated)
      · exact Or.inr ⟨s₀, hs₀⟩

/-- A batch keeps the creation times and the maximal lifetime. -/
theorem foldl_handleMessage_unaged {maxLifetime : Duration} {ms : List Message} (hwf : hb.PoolWf)
    (hunaged : Unaged maxLifetime hb) : Unaged maxLifetime (ms.foldl (handleMessage env) hb) := by
  induction ms generalizing hb with
  | nil => exact hunaged
  | cons m ms ih =>
    refine ih (History.handleMessage_poolWf hwf m)
      ⟨fun {sid s'} hs' => ?_, (handleMessage_maxLifetime m).trans hunaged.maxLifetime_eq⟩
    rcases @History.step_message_state env { hb := hb } sid s' hwf m hs' with
      ⟨-, hcreated, -⟩ | ⟨-, s, hs, hsame, -⟩
    · exact hcreated
    · exact hsame.trans (hunaged.createdAt hs)

/-- Every session of the pool has an entry in the log. -/
structure Aged (maxLifetime : Duration) (x : Heartbeat × List (String × TimePoint)) : Prop where
  between : History.BetweenTicks x.1
  unaged : Unaged maxLifetime x.1
  born : ∀ {sid s}, x.1.board.sessionPool.get sid = some s → sid ∈ x.2.map Prod.fst

variable {x : Heartbeat × List (String × TimePoint)} {maxLifetime : Duration} {inp : TickInput}

/-- When the board evolves, the sessions are as new as at the start of the tick, and each has
an entry in the log. -/
theorem Aged.beforeEvolve (haged : Aged maxLifetime x) :
    (beforeEvolve env inp x.1).board.sessionPool.WellKeyed ∧
      Unaged maxLifetime (beforeEvolve env inp x.1) ∧
      ∀ {sid s}, (Heartbeat.beforeEvolve env inp x.1).board.sessionPool.get sid = some s →
        sid ∈ (aging env x inp).2.map Prod.fst := by
  have hwf := haged.between.poolWf.beginTick
  have hunaged : Unaged maxLifetime x.1.beginTick :=
    ⟨haged.unaged.createdAt, haged.unaged.maxLifetime_eq⟩
  have hbatch := @foldl_handleMessage_unaged env _ _ inp.batch hwf hunaged
  have hkeyed := (@History.foldl_handleMessage_poolWf env _ hwf inp.batch).wellKeyed
  have hemitted := @emitReady_emitted (midTick env x.1 inp.batch)
  have hbefore {sid : String} {s : SessionRecord}
      (hs : (Heartbeat.beforeEvolve env inp x.1).board.sessionPool.get sid = some s) :
      ∃ s₀, (midTick env x.1 inp.batch).board.sessionPool.get sid = some s₀ ∧
        s.createdAt = s₀.createdAt := by
    have hmap := hemitted.session.symm.trans hs
    obtain ⟨s₀, hs₀, rfl⟩ := Option.map_eq_some_iff.mp hmap
    refine ⟨s₀, hs₀, ?_⟩
    split <;> rfl
  refine ⟨hemitted.wellKeyed hkeyed, ⟨fun {sid s} hs => ?_, ?_⟩, fun {sid s} hs => ?_⟩
  · obtain ⟨s₀, hs₀, hsame⟩ := hbefore hs
    exact hsame.trans (hbatch.createdAt hs₀)
  · exact hemitted.bounds.2.2.trans hbatch.maxLifetime_eq
  · obtain ⟨s₀, hs₀, -⟩ := hbefore hs
    simp only [aging, logged, List.map_append, List.map_map, List.mem_append]
    rcases foldl_handleMessage_sessions hwf hs₀ with hcreated | ⟨s₁, hs₁⟩
    · exact Or.inr (List.mem_map.mpr ⟨sid, hcreated, rfl⟩)
    · exact Or.inl (haged.born hs₁)

/-- The orders of a tick are those of `evolve`. -/
theorem tick_closeSessions (hbetween : History.BetweenTicks hb) :
    (tick env inp hb).1.closeSessions =
      (evolve ⟨(beforeEvolve env inp hb).changedSessions,
        (beforeEvolve env inp hb).changedRequests⟩ inp.now (beforeEvolve env inp hb).board).1 := by
  have hnone : hb.beginTick.changeset.closeSessions = [] :=
    congrArg ChangeSet.closeSessions hbetween.collector
  have hcollect := congrArg ChangeSet.closeSessions
    (@finishTick_collects (midTick env hb inp.batch) inp)
  refine hcollect.trans ?_
  simp only [emitReady_emitted.changeset, midTick, hnone, List.nil_append,
    History.foldl_handleMessage_closeSessions hbetween.poolWf.beginTick]
  rfl

/-- A tick keeps the log. -/
theorem Aged.tick (haged : Aged maxLifetime x) : Aged maxLifetime (aging env x inp) := by
  obtain ⟨hkeyed, hunaged, hborn⟩ := @Aged.beforeEvolve env _ _ inp haged
  have hafter : (aging env x inp).1 = (finishTick inp (midTick env x.1 inp.batch)).2 := rfl
  have hpool : (aging env x inp).1.board.sessionPool =
      (evolved inp (midTick env x.1 inp.batch)).2.sessionPool := by
    rw [hafter, finishTick_board.2.1]
  have hget {sid : String} {s : SessionRecord}
      (hs : (aging env x inp).1.board.sessionPool.get sid = some s) :
      (Heartbeat.beforeEvolve env inp x.1).board.sessionPool.get sid = some s := by
    rw [hpool] at hs
    exact ((evolve_get_session hkeyed).mp hs).1
  refine ⟨haged.between.tick inp, ⟨fun hs => hunaged.createdAt (hget hs), ?_⟩,
    fun hs => hborn (hget hs)⟩
  rw [hpool]
  exact evolve_maxLifetime.trans hunaged.maxLifetime_eq

/-- With the creation times unset, the reading of the clock alone decides which sessions are
closed for their age. -/
theorem Unaged.lifetimeExpired_iff (hunaged : Unaged maxLifetime hb) {sid : String}
    {s : SessionRecord} (hs : hb.board.sessionPool.get sid = some s) {now : TimePoint} :
    hb.board.sessionPool.lifetimeExpired now s = true ↔ now ≥ maxLifetime := by
  simp [SessionPool.lifetimeExpired, hunaged.createdAt hs, hunaged.maxLifetime_eq]

/-- The sessions that a tick closes for their age. -/
theorem Aged.mem_closeSessions_iff (haged : Aged maxLifetime x) {c : CloseSession}
    (hreason : c.reason = "lifetime_exceeded") :
    c ∈ (Heartbeat.tick env inp x.1).1.closeSessions ↔ inp.now ≥ maxLifetime ∧
      ∃ s, (Heartbeat.beforeEvolve env inp x.1).board.sessionPool.get c.sessionId = some s ∧
        ¬(c.sessionId ∈ (Heartbeat.beforeEvolve env inp x.1).changedSessions ∧
          s.failedOrClosed = true) := by
  obtain ⟨hkeyed, hunaged, -⟩ := @Aged.beforeEvolve env _ _ inp haged
  rw [tick_closeSessions haged.between, mem_evolve_closes hkeyed, hreason]
  have hsweep : ¬("lifetime_exceeded" = "request_failed_or_cancelled") := by decide
  simp only [hsweep, false_and, or_false]
  constructor
  · rintro ⟨s, hs, hcloses⟩
    have hsid := hkeyed.sessionId_eq hs
    unfold SessionPool.closeReason at hcloses
    split at hcloses
    · exact absurd (Option.some.inj hcloses) (by decide)
    · rename_i hfailed
      split at hcloses
      · rename_i hexpired
        rw [hsid] at hfailed
        exact ⟨(hunaged.lifetimeExpired_iff hs).mp hexpired, s, hs, hfailed⟩
      · split at hcloses
        · exact absurd (Option.some.inj hcloses) (by decide)
        · cases hcloses
  · rintro ⟨hnow, s, hs, hfailed⟩
    rw [← hkeyed.sessionId_eq hs] at hfailed
    refine ⟨s, hs, ?_⟩
    rw [SessionPool.closeReason, if_neg hfailed, if_pos]
    exact (hunaged.lifetimeExpired_iff hs).mpr hnow

/-- A tick closes only old sessions for their age exactly when, once the clock has reached the
maximal lifetime, all sessions are old. -/
theorem closesOld_iff (haged : Aged maxLifetime x) :
    ClosesOld env maxLifetime x inp ↔ OldByThen env maxLifetime x inp := by
  constructor
  · intro hcloses hnow sid s hs hfailed
    exact hcloses ⟨sid, "lifetime_exceeded"⟩
      ((haged.mem_closeSessions_iff rfl).mpr ⟨hnow, s, hs, hfailed⟩) rfl
  · intro hold c hc hreason
    obtain ⟨hnow, s, hs, hfailed⟩ := (haged.mem_closeSessions_iff hreason).mp hc
    exact hold hnow c.sessionId s hs hfailed

/-- In a run from an empty board every session that is closed for its age is at least as old as
the maximal lifetime exactly when, in every tick whose clock has reached the maximal lifetime,
all sessions that have not failed in the tick are that old. -/
theorem lifetime_cap_iff (env : Env) (maxSize : Nat) (idleTimeout maxLifetime : Duration)
    (inputs : List TickInput) :
    Along (aging env) (ClosesOld env maxLifetime) (start maxSize idleTimeout maxLifetime, [])
        inputs ↔
      Along (aging env) (OldByThen env maxLifetime) (start maxSize idleTimeout maxLifetime, [])
        inputs := by
  have hstart : Aged maxLifetime (start maxSize idleTimeout maxLifetime, []) := by
    refine ⟨History.start_betweenTicks maxSize idleTimeout maxLifetime, ⟨fun hs => ?_, rfl⟩,
      fun hs => ?_⟩
    · simp [start, DataBoard.empty, SessionPool.get] at hs
    · simp [start, DataBoard.empty, SessionPool.get] at hs
  exact along_congr_of_invariant hstart (fun x inp haged _ => haged.tick)
    fun x inp haged => closesOld_iff haged

instance (env : Env) (maxLifetime : Duration) (x : Heartbeat × List (String × TimePoint))
    (inp : TickInput) : Decidable (ClosesOld env maxLifetime x inp) :=
  inferInstanceAs (Decidable (∀ c ∈ _, _ → ∃ t ∈ _, _))

/-- One tick with a request, on a host that has been up for an hour. -/
def uptimeRun : List TickInput :=
  [{ requests := [.request { requestId := "a" }], startedAt := seconds 3600, now := seconds 3600,
     endedAt := seconds 3600 }]

/-- The session that this tick creates is closed for its age in the same tick. -/
theorem uptimeRun_closes_young :
    ((run sampleEnv (start 16 (seconds 60) (seconds 3600)) uptimeRun).1.map
        ChangeSet.closeSessions = [[⟨"s-0000000000000000", "lifetime_exceeded"⟩]]) ∧
      ¬Along (aging sampleEnv) (ClosesOld sampleEnv (seconds 3600))
        (start 16 (seconds 60) (seconds 3600), []) uptimeRun :=
  ⟨by decide +kernel, by decide +kernel⟩

end Heartbeat

end TtsServer
