import TtsServer.Routing

/-!
# Who a session works for

The binding of a request to a session is kept in two places: the request names its
session, and the session names its current request. They agree, and a session
serves one live request at a time, as long as no request is bound to a session
that still serves another one. The heartbeat does not ensure this: `Connected`
makes a session ready, and thereby available, although the request that created
the session is still waiting for it.
-/

namespace TtsServer

open Lib Heartbeat

namespace Heartbeat

/-- A session serves a request: the request names the session and has not ended. -/
def Serves (hb : Heartbeat) (sid rid : String) : Prop :=
  ∃ p, hb.board.pending.get rid = some p ∧ p.state.terminal = false ∧ p.sessionId = sid

/-- Every session of the pool serves at most one request, which is its current one. -/
structure Exclusive (hb : Heartbeat) : Prop where
  unique : ∀ {sid s rid rid'}, hb.board.sessionPool.get sid = some s →
    hb.Serves sid rid → hb.Serves sid rid' → rid = rid'
  current : ∀ {sid s rid}, hb.board.sessionPool.get sid = some s →
    hb.Serves sid rid → s.currentRequestId = rid

/-- A chunk on a session is appended at most to a request that names the session, and
not past another request that the session serves. -/
def ChunkReachesOwn (env : Env) (hb : Heartbeat) (rsp : TtsResponseMsg) : Prop :=
  ∀ rid, (handleResponse env rsp hb).board.pending.get rid ≠ hb.board.pending.get rid →
    (∃ p, hb.board.pending.get rid = some p ∧ p.sessionId = rsp.sessionId) ∧
      ∀ rid', hb.Serves rsp.sessionId rid' → rid' = rid

/-- The session that the next upstream request is bound to, if the pool allows it. -/
def nextSession (env : Env) (hb : Heartbeat) : String :=
  match hb.board.sessionPool.findIdleLeastRecentlyUsed with
  | some idle => idle.sessionId
  | none => generateSessionId (env.rng hb.rngDraws)

/-- A request that takes the upstream branch finds its session without a live request. -/
def BindsFreeSession (env : Env) (hb : Heartbeat) : Message → Prop
  | .request req => (evaluate env hb.board.metrics).1.admitted = true →
      shouldUseLocal env req = false → ∀ rid, ¬hb.Serves (nextSession env hb) rid
  | _ => True

/-- Whether a session serves no request can be decided from the pending requests. -/
instance (hb : Heartbeat) (sid : String) : Decidable (∀ rid, ¬hb.Serves sid rid) :=
  decidable_of_iff (hb.board.pending.store.collect
      (fun _ p => !p.state.terminal && p.sessionId = sid) = []) (by
    simp only [List.eq_nil_iff_forall_not_mem, Table.mem_collect, Serves,
      PendingRequestStore.get, Bool.and_eq_true, Bool.not_eq_true', decide_eq_true_eq])

instance (env : Env) (hb : Heartbeat) : ∀ m, Decidable (BindsFreeSession env hb m)
  | .request _ => inferInstanceAs (Decidable (_ → _ → ∀ rid, ¬hb.Serves _ rid))
  | .response _ => .isTrue trivial
  | .cancel _ => .isTrue trivial
  | .localComplete _ => .isTrue trivial
  | .localFailed _ => .isTrue trivial

/-- The session of a successful acquisition. -/
theorem acquire_sessionId (env : Env) (hb : Heartbeat)
    (hne : (acquireOrCreateSession env hb).1.sessionId ≠ "") :
    (acquireOrCreateSession env hb).1.sessionId = nextSession env hb := by
  unfold acquireOrCreateSession nextSession at *
  cases hfind : hb.board.sessionPool.findIdleLeastRecentlyUsed with
  | some idle => rfl
  | none =>
    rw [hfind] at hne
    simp only at hne ⊢
    split
    · rfl
    · rename_i hadd
      simp [hadd] at hne

end Heartbeat

namespace History

variable {env : Env} {h h' : History} {inputs : List TickInput}
  {maxSize : Nat} {idleTimeout maxLifetime : Duration}

/-- The bindings of a history with distinct requests agree. -/
structure Agrees (h : History) : Prop where
  routed : h.Routed
  current : ∀ {sid s rid}, h.hb.board.sessionPool.get sid = some s →
    h.hb.Serves sid rid → s.currentRequestId = rid

/-- A step that takes away leaves the sessions with the requests they served. -/
theorem Agrees.recedes (hagrees : h.Agrees) (hstep : Recedes h.hb h'.hb)
    (hrouted : h'.Routed) : h'.Agrees where
  routed := hrouted
  current := by
    rintro sid s' rid hs' ⟨p', hp', hlive, hsid⟩
    obtain ⟨s, hs, hcurrent⟩ := hstep.session hs'
    obtain ⟨p, hp, hsession, hstate, -⟩ := hstep.pending hp'
    rw [hcurrent]
    refine hagrees.current hs ⟨p, hp, ?_, hsession ▸ hsid⟩
    rcases hstate with heq | hterminal
    · exact heq ▸ hlive
    · rw [hlive] at hterminal
      cases hterminal

/-- A request with a new identifier that is bound to a session without a live request
keeps the bindings in agreement. -/
theorem Agrees.admits {req : TtsRequestMsg} (hagrees : h.Agrees) (hadmits : Admits env req h h')
    (hfresh : req.requestId ∉ h.requestIds)
    (hfree : BindsFreeSession env h.hb (.request req)) (hrouted : h'.Routed) : h'.Agrees where
  routed := hrouted
  current := by
    rintro sid s' rid hs' ⟨p', hp', hlive, hsid⟩
    have hnone := hagrees.routed.get_fresh hfresh
    cases hadmits with
    | rejected heffect _ =>
      rw [heffect.sessionPool] at hs'
      rw [heffect.pending] at hp'
      exact hagrees.current hs' ⟨p', hp', hlive, hsid⟩
    | onLocal heffect _ =>
      have hnamed := hrouted.poolWf.named hs'
      rw [heffect.sessionPool] at hs'
      by_cases heq : rid = req.requestId
      · subst heq
        obtain ⟨p, hp, -, hrecord⟩ := heffect.record
        obtain rfl := Option.some.inj (hp.symm.trans hp')
        rw [hnone] at hrecord
        exact absurd (hsid.symm.trans hrecord.1) hnamed
      · rw [heffect.others heq] at hp'
        exact hagrees.current hs' ⟨p', hp', hlive, hsid⟩
    | onSession handle s hdecision heffect _ =>
      have hnext : handle.sessionId = nextSession env h.hb := by
        have hne := heffect.named
        rw [← heffect.handle] at hne ⊢
        exact acquire_sessionId env h.hb hne
      rw [heffect.session] at hs'
      by_cases hself : sid = handle.sessionId
      · rw [if_pos hself] at hs'
        obtain rfl := Option.some.inj hs'
        by_contra hne
        rw [heffect.others (Ne.symm hne)] at hp'
        refine hfree ((admission_eq_onSession_iff.mp hdecision).1) heffect.useLocal rid
          ⟨p', hp', hlive, ?_⟩
        rw [← hnext, hsid, hself]
      · rw [if_neg hself] at hs'
        by_cases heq : rid = req.requestId
        · subst heq
          obtain ⟨t, hrecord⟩ := heffect.record
          obtain rfl := Option.some.inj (hrecord.symm.trans hp')
          exact absurd hsid.symm hself
        · rw [heffect.others heq] at hp'
          exact hagrees.current hs' ⟨p', hp', hlive, hsid⟩

/-- Handling a message keeps the bindings in agreement. -/
theorem Agrees.message (hagrees : h.Agrees) {m : Message} (hfresh : h.Fresh m)
    (hfree : BindsFreeSession env h.hb m) : (step env h (.message m)).Agrees := by
  have hrouted : (step env h (.message m)).Routed := hagrees.routed.message hfresh
  rcases @step_message_cases env h hagrees.routed.poolWf m with ⟨req, rfl, hadmits⟩ | ⟨hrecedes, -⟩
  · exact hagrees.admits hadmits (hfresh req.requestId rfl) hfree hrouted
  · exact hagrees.recedes hrecedes hrouted

/-- Agreeing bindings are exclusive. -/
theorem Agrees.exclusive (hagrees : h.Agrees) : h.hb.Exclusive where
  unique := fun hs hserves hserves' =>
    (hagrees.current hs hserves).symm.trans (hagrees.current hs hserves')
  current := hagrees.current

/-- With agreeing bindings, a chunk reaches the request its session works for. -/
theorem Agrees.chunkReachesOwn (hagrees : h.Agrees) {rsp : TtsResponseMsg}
    (hkind : rsp.kind = .audioChunk) : ChunkReachesOwn env h.hb rsp := by
  intro rid hchanged
  rw [handleResponse_get_pending, hkind] at hchanged
  simp only at hchanged
  split at hchanged
  · rename_i hcurrent
    obtain ⟨hrid, hne⟩ := hcurrent
    unfold currentOf at hrid
    cases hs : h.hb.board.sessionPool.get rsp.sessionId with
    | none => simp [hs, hne] at hrid
    | some s =>
      have heq : s.currentRequestId = rid := by simp [hrid, hs]
      constructor
      · cases hp : h.hb.board.pending.get rid with
        | none => simp [hp] at hchanged
        | some p => exact ⟨p, rfl, hagrees.routed.bound hs (heq ▸ hp)⟩
      · intro rid' hserves
        exact (hagrees.current hs hserves).symm.trans heq
  · exact absurd rfl hchanged

/-- In a run from an empty board whose requests have pairwise distinct identifiers and are
only bound to sessions without a live request, every session serves at most one request
after every tick, namely its current one, and every chunk reaches the request its session
works for. -/
theorem session_exclusivity
    (hdistinct : ((messagesOf inputs).filterMap Message.requestId?).Nodup)
    (hfree : Handles env (start maxSize idleTimeout maxLifetime) inputs
      fun h m => BindsFreeSession env h.hb m) :
    (∀ ticks rest, inputs = ticks ++ rest →
      (run env (start maxSize idleTimeout maxLifetime) ticks).2.Exclusive) ∧
    Handles env (start maxSize idleTimeout maxLifetime) inputs fun h m =>
      ∀ rsp, m = .response rsp → rsp.kind = .audioChunk → ChunkReachesOwn env h.hb rsp := by
  have hrun := (handles_fresh Message.requestId? hdistinct).and hfree
  have hstart : Agrees { hb := start maxSize idleTimeout maxLifetime } :=
    ⟨start_routed maxSize idleTimeout maxLifetime, fun hs => by
      simp [start, DataBoard.empty, SessionPool.get] at hs⟩
  have hkept : ∀ ticks, Handles env (start maxSize idleTimeout maxLifetime) ticks
      (fun h m => h.Fresh m ∧ BindsFreeSession env h.hb m) →
      Handles env (start maxSize idleTimeout maxLifetime) ticks
        (fun h m => h.Agrees ∧ h.Fresh m ∧ BindsFreeSession env h.hb m) ∧
      (of env (start maxSize idleTimeout maxLifetime) ticks).Agrees := by
    intro ticks hticks
    refine hticks.invariant hstart ?_ ?_ ?_
    · intro h hagrees
      exact hagrees.recedes (beginTick_recedes hagrees.routed.poolWf.wellKeyed)
        hagrees.routed.begin
    · intro h m hagrees hm
      exact hagrees.message hm.1 hm.2
    · intro h inp hagrees
      exact hagrees.recedes (finishTick_recedes hagrees.routed.poolWf.wellKeyed inp)
        (hagrees.routed.finish inp)
  constructor
  · rintro ticks rest rfl
    rw [← of_eq_run.1]
    exact (hkept ticks hrun.of_append).2.exclusive
  · refine (hkept inputs hrun).1.mono ?_
    rintro h m ⟨hagrees, -⟩ rsp - hkind
    exact hagrees.chunkReachesOwn hkind

/-- Two requests on two sessions, a chunk on the first session, and a third request after
the first one is cancelled, on the session that has become free. -/
def separateSessions : List TickInput :=
  [{ requests := [.request { requestId := "a" }, .request { requestId := "b" }] },
   { events := [.response { sessionId := "s-0000000000000000", kind := .connected },
      .response { sessionId := "s-0000000000000000", audioHex := ascii "00ff" }] },
   { requests := [.cancel { requestId := "a" }] },
   { requests := [.request { requestId := "c" }] }]

/-- The conditions of exclusivity are met by a run that uses a session twice. -/
theorem session_exclusivity_separateSessions :
    (run sampleEnv (start 16 (seconds 60) (seconds 3600)) separateSessions).2.Exclusive :=
  (session_exclusivity (by decide +kernel) (by decide +kernel)).1 separateSessions [] rfl

/-- A request, the connection of its session, and a second request. -/
def sharedSession : List TickInput :=
  [{ requests := [.request { requestId := "a" }] },
   { events := [.response { sessionId := "s-0000000000000000", kind := .connected }] },
   { requests := [.request { requestId := "b" }] }]

/-- The second request is bound to the session that the first one is waiting for. -/
theorem sharedSession_not_exclusive :
    ((messagesOf sharedSession).filterMap Message.requestId?).Nodup ∧
      ¬(run sampleEnv (start 16 (seconds 60) (seconds 3600)) sharedSession).2.Exclusive := by
  refine ⟨by decide, fun hexclusive => ?_⟩
  have hserves : ∀ rid ∈ ["a", "b"],
      (run sampleEnv (start 16 (seconds 60) (seconds 3600)) sharedSession).2.Serves
        "s-0000000000000000" rid := by
    intro rid hrid
    rcases List.mem_pair.mp hrid with rfl | rfl
    · exact ⟨_, rfl, rfl, rfl⟩
    · exact ⟨_, rfl, rfl, rfl⟩
  have heq : "a" = "b" := hexclusive.unique rfl (hserves "a" (by simp)) (hserves "b" (by simp))
  exact absurd heq (by decide)

end History

end TtsServer
