import TtsServer.SessionFrames
import TtsServer.SessionStates

/-!
# Sessions that have been ordered closed

`evolve` orders sessions closed on four paths. Three of them remove the session from
the pool, and since identifiers are not generated twice it is never heard of again.
The sweep of failed and cancelled requests orders their session closed and leaves it
in the pool. Such a session can be handed out again exactly when it is ready: when
the sweep leaves it ready, or when it reports a connection later.
-/

namespace TtsServer

open Lib Heartbeat

namespace History

variable {env : Env} {h : History} {sid : String} {inputs : List TickInput}

/-- The sessions that have been ordered closed in earlier ticks. -/
def orderedClosed (h : History) : List String :=
  (h.changeSets.flatMap fun cs => cs.closeSessions.map CloseSession.sessionId).filter (· ≠ "")

/-- A failed or cancelled request whose session is not left ready by the end of the tick: the
session is gone or not ready, expires, or has a request to emit and will drain. -/
def LeavesNotReady (inp : TickInput) (hb : Heartbeat) (p : PendingRequest) : Prop :=
  ∀ s ∈ hb.board.sessionPool.get p.sessionId, s.state = .ready →
    hb.board.sessionPool.lifetimeExpired inp.now s = true ∨
      hb.board.sessionPool.idleExpired inp.now s = true ∨
      ∃ rid ∈ hb.board.pending.collectBySession p.sessionId,
        rid ∈ hb.board.pending.findReadyToEmit

/-- A step that leaves no session ready which has been ordered closed: no connection is
reported for such a session of the pool, and the end of a tick leaves no session of a failed
or cancelled request ready. -/
def RetiresClosed (h : History) : Step → Prop
  | .message (.response rsp) => rsp.kind = .connected → rsp.sessionId ∈ h.orderedClosed →
      (h.hb.board.sessionPool.get rsp.sessionId).isNone = true
  | .finish inp => ∀ rid ∈ h.hb.board.pending.collectTerminal,
      ∀ p ∈ h.hb.board.pending.get rid, LeavesNotReady inp h.hb p
  | _ => True

instance (inp : TickInput) (hb : Heartbeat) (p : PendingRequest) :
    Decidable (LeavesNotReady inp hb p) :=
  inferInstanceAs (Decidable (∀ s ∈ hb.board.sessionPool.get p.sessionId, _ → _))

instance (h : History) : ∀ l, Decidable (RetiresClosed h l)
  | .message (.response _) => inferInstanceAs (Decidable (_ → _ → _))
  | .finish _ => inferInstanceAs (Decidable (∀ rid ∈ _, ∀ p ∈ _, _))
  | .message (.request _) => .isTrue trivial
  | .message (.cancel _) => .isTrue trivial
  | .message (.localComplete _) => .isTrue trivial
  | .message (.localFailed _) => .isTrue trivial
  | .begin => .isTrue trivial

/-! ### Ready sessions -/

/-- Only a connection makes a session ready. -/
theorem step_message_ready (hwf : h.hb.PoolWf) {m : Message} {s' : SessionRecord}
    (hs' : (step env h (.message m)).hb.board.sessionPool.get sid = some s')
    (hready : s'.state = .ready) :
    ∃ s, h.hb.board.sessionPool.get sid = some s ∧
      (s.state = .ready ∨
        ∃ rsp, m = .response rsp ∧ rsp.kind = .connected ∧ rsp.sessionId = sid) := by
  rcases step_message_state hwf hs' with ⟨-, -, hnew⟩ | ⟨-, s, hs, -, hchange⟩
  · rw [hready] at hnew
    cases hnew
  · refine ⟨s, hs, ?_⟩
    rcases hchange with hsame | ⟨-, hreused⟩ | ⟨rsp, rfl, hsid, ⟨hkind, -⟩ | ⟨-, herrored⟩⟩
    · exact Or.inl (hsame.symm.trans hready)
    · rw [hready] at hreused
      cases hreused
    · exact Or.inr ⟨rsp, rfl, hkind, hsid⟩
    · rw [hready] at herrored
      cases herrored

/-- A session that is ready after a tick was ready before its end, was not closed, and had no
request to emit. -/
theorem finish_ready (hwf : h.hb.PoolWf) {inp : TickInput} {s : SessionRecord}
    (hs : (step env h (.finish inp)).hb.board.sessionPool.get sid = some s)
    (hready : s.state = .ready) :
    h.hb.board.sessionPool.get sid = some s ∧
      ¬(emitReady h.hb).board.sessionPool.closes
        ⟨(emitReady h.hb).changedSessions, (emitReady h.hb).changedRequests⟩ inp.now s ∧
      ∀ rid ∈ h.hb.board.pending.collectBySession sid,
        rid ∉ h.hb.board.pending.findReadyToEmit := by
  obtain ⟨hemitted, hcloses⟩ := (finishTick_get_session hwf.wellKeyed).mp hs
  rw [emitReady_emitted.session] at hemitted
  obtain ⟨s₀, hs₀, heq⟩ := Option.map_eq_some_iff.mp hemitted
  split at heq
  · rw [← heq] at hready
    cases hready
  · rename_i hnot
    subst heq
    refine ⟨hs₀, hcloses, fun rid hbound hemits => hnot ?_⟩
    obtain ⟨p, hp, hsid⟩ := PendingRequestStore.mem_collectBySession.mp hbound
    obtain ⟨p', hp', hemits⟩ := PendingRequestStore.mem_findReadyToEmit.mp hemits
    obtain rfl := Option.some.inj (hp.symm.trans hp')
    exact List.mem_map.mpr ⟨(rid, p), mem_emissions.mpr ⟨hp, hemits⟩, hsid⟩

/-! ### Orders -/

/-- A frame that a later tick may not hold: one for a session that was ordered closed. -/
def NoLaterFrame (cs cs' : ChangeSet) : Prop :=
  ∀ c ∈ cs.closeSessions, c.sessionId ≠ "" → ∀ f ∈ cs'.wsFrames, f.sessionId ≠ c.sessionId

/-- The orders of a tick: for the sessions that `evolve` closes, and for the sessions of the
failed and cancelled requests. -/
theorem mem_finish_closeSessions (hwf : h.hb.PoolWf) (hnone : h.hb.changeset.closeSessions = [])
    {inp : TickInput} {c : CloseSession} (hc : c ∈ (finishTick inp h.hb).1.closeSessions) :
    (∃ s, (emitReady h.hb).board.sessionPool.get c.sessionId = some s ∧
      (emitReady h.hb).board.sessionPool.closes
        ⟨(emitReady h.hb).changedSessions, (emitReady h.hb).changedRequests⟩ inp.now s) ∨
    ∃ rid p, h.hb.board.pending.get rid = some p ∧ p.state.terminal = true ∧
      p.sessionId = c.sessionId := by
  rw [finishTick_collects, emitReady_emitted.changeset, hnone, List.nil_append, evolved,
    mem_evolve_closes (emitReady_emitted.wellKeyed hwf.wellKeyed)] at hc
  rcases hc with ⟨s, hs, hreason⟩ | ⟨-, rid, p, hp, hterminal, hsid⟩
  · exact Or.inl ⟨s, hs, SessionPool.closes_iff_closeReason.mpr ⟨_, hreason⟩⟩
  · exact Or.inr ⟨rid, p, (emitReady_get_pending.mp hp).1, hterminal, hsid⟩

/-- No session that has been ordered closed is ready, and none has been sent a frame since. -/
structure Retired (env : Env) (h : History) : Prop where
  drawn : ∀ {sid}, sid ∈ h.orderedClosed → sid ∈ drawn env h.hb
  not_ready : ∀ {sid s}, sid ∈ h.orderedClosed → h.hb.board.sessionPool.get sid = some s →
    s.state ≠ .ready
  no_orders : h.hb.changeset.closeSessions = []
  frames : ∀ {f}, f ∈ h.hb.changeset.wsFrames → f.sessionId ∉ h.orderedClosed
  earlier : h.changeSets.Pairwise NoLaterFrame

/-- The session given to a request has not been ordered closed: a reused session is ready, and
the identifier of a new one is new. -/
theorem Retired.handle_not_ordered {req : TtsRequestMsg} {handle : SessionHandle}
    {s : SessionRecord} (hretired : Retired env h)
    (hdecision : admission env req h.hb = .onSession handle)
    (hacquired : Acquired env h.hb handle s)
    (hnodup : (Heartbeat.drawn env (step env h (.message (.request req))).hb).Nodup) :
    handle.sessionId ∉ h.orderedClosed := by
  intro hordered
  rcases hacquired with ⟨-, idle, hidle, hready, -⟩ | ⟨hnew, hsid, -⟩
  · exact hretired.not_ready hordered hidle hready
  · exact (not_mem_drawn_of_new hdecision hnew hsid hnodup).1 (hretired.drawn hordered)

/-- A message keeps closed sessions out of use. -/
theorem Retired.message (hretired : Retired env h) (hstarted : Started env h) {m : Message}
    (hstep : RetiresClosed h (.message m))
    (hnodup : (Heartbeat.drawn env (step env h (.message m)).hb).Nodup) :
    Retired env (step env h (.message m)) := by
  have hwf := hstarted.poolWf
  have hordered : (step env h (.message m)).orderedClosed = h.orderedClosed := rfl
  constructor
  · intro sid hsid
    exact mem_drawn_step (hretired.drawn hsid)
  · intro sid s' hsid hs' hready
    obtain ⟨s, hs, hready | ⟨rsp, rfl, hkind, rfl⟩⟩ := step_message_ready hwf hs' hready
    · exact hretired.not_ready hsid hs hready
    · have hnone := hstep hkind hsid
      rw [hs] at hnone
      cases hnone
  · rw [closeSessions_message hwf, hretired.no_orders]
  · intro f hf
    rw [wsFrames_message hwf] at hf
    rcases List.mem_append.mp hf with hf | hf
    · exact hretired.frames hf
    · rcases @sends_cases env h hwf m with hnone | ⟨req, handle, s, rfl, hdecision, heffect, hsends⟩
      · rw [hnone] at hf
        cases hf
      · rw [hsends] at hf
        rw [sessionId_of_mem_taskFrames hf]
        exact hretired.handle_not_ordered hdecision heffect.acquired hnodup
  · exact hretired.earlier

/-- The end of a tick keeps closed sessions out of use. -/
theorem Retired.finish (hretired : Retired env h) (hstarted : Started env h) {inp : TickInput}
    (hstep : RetiresClosed h (.finish inp)) : Retired env (step env h (.finish inp)) := by
  have hwf := hstarted.poolWf
  have hordered : ∀ {sid}, sid ∈ (step env h (.finish inp)).orderedClosed →
      sid ∈ h.orderedClosed ∨ (sid ≠ "" ∧ ∃ c ∈ (finishTick inp h.hb).1.closeSessions,
        c.sessionId = sid) := by
    intro sid hsid
    simp only [orderedClosed, step, List.flatMap_append, List.flatMap_singleton,
      List.filter_append, List.mem_append] at hsid
    refine hsid.imp_right fun hnew => ?_
    obtain ⟨hmem, hne⟩ := List.mem_filter.mp hnew
    obtain ⟨c, hc, hsid⟩ := List.mem_map.mp hmem
    exact ⟨by simpa using hne, c, hc, hsid⟩
  constructor
  · intro sid hsid
    rcases hordered hsid with hold | ⟨hne, c, hc, rfl⟩
    · exact mem_drawn_step (hretired.drawn hold)
    · refine mem_drawn_step ?_
      rcases mem_finish_closeSessions hwf hretired.no_orders hc with
        ⟨s, hs, -⟩ | ⟨rid, p, hp, -, hsid⟩
      · rw [emitReady_emitted.session] at hs
        obtain ⟨s₀, hs₀, -⟩ := Option.map_eq_some_iff.mp hs
        exact hstarted.session_drawn hs₀
      · rw [← hsid] at hne ⊢
        exact (hstarted.pending_drawn hp).resolve_left hne
  · intro sid s hsid hs hready
    obtain ⟨hs₀, hcloses, hemits⟩ := finish_ready hwf hs hready
    rcases hordered hsid with hold | ⟨hne, c, hc, rfl⟩
    · exact hretired.not_ready hold hs₀ hready
    · have hs' := ((finishTick_get_session hwf.wellKeyed).mp hs).1
      rcases mem_finish_closeSessions hwf hretired.no_orders hc with
        ⟨s', hget, hclosed⟩ | ⟨rid, p, hp, hterminal, hsid⟩
      · obtain rfl := Option.some.inj (hs'.symm.trans hget)
        exact hcloses hclosed
      · have hmem := PendingRequestStore.mem_collectTerminal.mpr ⟨p, hp, hterminal⟩
        rw [← hsid] at hs₀ hemits
        rcases hstep rid hmem p hp s hs₀ hready with hexpired | hexpired | ⟨rid', hbound, hready'⟩
        · rw [← emitReady_lifetimeExpired] at hexpired
          exact hcloses (Or.inr (Or.inl hexpired))
        · rw [← emitReady_idleExpired] at hexpired
          exact hcloses (Or.inr (Or.inr hexpired))
        · exact hemits rid' hbound hready'
  · exact congrArg ChangeSet.closeSessions finishTick_changeset
  · intro f hf
    have hnone : (step env h (.finish inp)).hb.changeset = {} := finishTick_changeset
    rw [hnone] at hf
    cases hf
  · have hsets : (step env h (.finish inp)).changeSets =
        h.changeSets ++ [(finishTick inp h.hb).1] := by simp only [step]
    have hframes : (finishTick inp h.hb).1.wsFrames = h.hb.changeset.wsFrames := by
      rw [finishTick_collects, emitReady_emitted.changeset]
    rw [hsets, List.pairwise_append]
    refine ⟨hretired.earlier, List.pairwise_singleton _ _, ?_⟩
    intro cs hcs cs' hcs' c hc hne f hf heq
    rw [List.mem_singleton.mp hcs', hframes] at hf
    refine hretired.frames hf (List.mem_filter.mpr ⟨?_, by simpa [heq] using hne⟩)
    exact List.mem_flatMap.mpr ⟨cs, hcs, List.mem_map.mpr ⟨c, hc, heq.symm⟩⟩

/-- Every step that meets the condition keeps closed sessions out of use, as long as no session
identifier is generated twice. -/
theorem Retired.step (hstarted : Started env h)
    (hretired : (Heartbeat.drawn env h.hb).Nodup → Retired env h) {l : Step}
    (hstep : RetiresClosed h l) (hnodup : (Heartbeat.drawn env (step env h l).hb).Nodup) :
    Retired env (step env h l) := by
  have hbefore := hretired (drawn_nodup_of_step hnodup)
  cases l with
  | begin =>
    exact ⟨hbefore.drawn, hbefore.not_ready, hbefore.no_orders, hbefore.frames, hbefore.earlier⟩
  | message m => exact hbefore.message hstarted hstep hnodup
  | finish inp => exact hbefore.finish hstarted hstep

/-- In every run from an empty board in which no session identifier is generated twice and no
step leaves a session ready that has been ordered closed, no frame is sent to a session in a
tick after one that ordered it closed. -/
theorem closed_session_unused {maxSize : Nat} {idleTimeout maxLifetime : Duration}
    (hfresh : (drawn env (run env (start maxSize idleTimeout maxLifetime) inputs).2).Nodup)
    (hretires : Along (step env) RetiresClosed { hb := start maxSize idleTimeout maxLifetime }
      (stepsOf inputs)) :
    (run env (start maxSize idleTimeout maxLifetime) inputs).1.Pairwise fun cs cs' =>
      ∀ c ∈ cs.closeSessions, c.sessionId ≠ "" → ∀ f ∈ cs'.wsFrames, f.sessionId ≠ c.sessionId := by
  have hstart : Started env { hb := start maxSize idleTimeout maxLifetime } ∧
      ((drawn env (start maxSize idleTimeout maxLifetime)).Nodup →
        Retired env { hb := start maxSize idleTimeout maxLifetime }) := by
    refine ⟨start_started maxSize idleTimeout maxLifetime, fun _ => ?_⟩
    exact ⟨fun hsid => absurd hsid List.not_mem_nil, fun hsid => absurd hsid List.not_mem_nil, rfl,
      fun hf => absurd hf List.not_mem_nil, List.Pairwise.nil⟩
  have hend := (hretires.invariant (I := fun h => Started env h ∧
    ((drawn env h.hb).Nodup → Retired env h)) hstart
    fun h l hh hl => ⟨hh.1.step l, Retired.step hh.1 hh.2 hl⟩).2
  obtain ⟨hhb, hsets⟩ := @of_eq_run env (start maxSize idleTimeout maxLifetime) inputs
  have hretired : Retired env (of env (start maxSize idleTimeout maxLifetime) inputs) :=
    hend.2 (by rw [← hhb] at hfresh; exact hfresh)
  rw [← hsets]
  exact hretired.earlier

/-- A session that fails and is closed, and a request after that. -/
def retiredRun : List TickInput :=
  [{ requests := [.request { requestId := "a" }] },
   { events := [.response { sessionId := "s-0000000000000000", kind := .taskFailed }] },
   { requests := [.request { requestId := "b" }] }]

/-- The failed session is ordered closed twice in this run, and the later request gets another
session. -/
theorem closed_session_unused_retiredRun :
    let sets := (run sampleEnv (start 16 (seconds 60) (seconds 3600)) retiredRun).1
    sets.map (fun cs => (cs.closeSessions.length, cs.wsFrames.length)) = [(0, 2), (2, 0), (0, 2)] ∧
      sets.Pairwise fun cs cs' => ∀ c ∈ cs.closeSessions, c.sessionId ≠ "" →
        ∀ f ∈ cs'.wsFrames, f.sessionId ≠ c.sessionId :=
  ⟨by decide +kernel, closed_session_unused (by decide +kernel) (by decide +kernel)⟩

/-- A request that is cancelled when its session has connected, and a request after that. -/
def reopenedRun : List TickInput :=
  [{ requests := [.request { requestId := "a" }] },
   { events := [.response { sessionId := "s-0000000000000000", kind := .connected }] },
   { requests := [.cancel { requestId := "a" }] },
   { requests := [.request { requestId := "b" }] }]

/-- The cancelled request's session is ordered closed and then handed to the later request. -/
theorem reopenedRun_reuses_closed :
    (drawn sampleEnv (run sampleEnv (start 16 (seconds 60) (seconds 3600)) reopenedRun).2).Nodup ∧
    ¬(run sampleEnv (start 16 (seconds 60) (seconds 3600)) reopenedRun).1.Pairwise fun cs cs' =>
      ∀ c ∈ cs.closeSessions, c.sessionId ≠ "" → ∀ f ∈ cs'.wsFrames, f.sessionId ≠ c.sessionId :=
  ⟨by decide +kernel, by decide +kernel⟩

end History

end TtsServer
