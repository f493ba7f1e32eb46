import Mathlib.Algebra.GroupWithZero.Nat
import TtsServer.Lib.Interleavings
import TtsServer.Reception
import TtsServer.Routing

/-!
# Sessions do not interfere

Upstream events name a session. Those that do not report a connection act on the record
of that session and on the requests bound to it, and nothing else they read or write
distinguishes the order in which events of different sessions arrive: the recency list
only loses entries, the counter of failed requests only adds, and the set of touched
sessions only grows. So a tick that handles the same events of every session in the same
order has the same outcome, however the sessions are interleaved.
-/

namespace TtsServer

open Lib

/-- Two pools that no operation tells apart. -/
structure SessionPool.Same (pool pool' : SessionPool) : Prop where
  get : ∀ sid, pool.get sid = pool'.get sid
  lru : pool.lru = pool'.lru
  maxSize : pool.maxSize = pool'.maxSize
  idleTimeout : pool.idleTimeout = pool'.idleTimeout
  maxLifetime : pool.maxLifetime = pool'.maxLifetime

/-- Two stores that agree but for the times of the last chunks. -/
def PendingRequestStore.Same (pending pending' : PendingRequestStore) : Prop :=
  ∀ rid, (pending.get rid).map PendingRequest.untimed =
    (pending'.get rid).map PendingRequest.untimed

/-- A request of one store is in the other, with a record that differs in the time only. -/
theorem PendingRequestStore.Same.exists_get {pending pending' : PendingRequestStore}
    (hsame : pending.Same pending') {rid : String} {p : PendingRequest}
    (hp : pending.get rid = some p) :
    ∃ p', pending'.get rid = some p' ∧ p'.untimed = p.untimed := by
  have hrid := hsame rid
  rw [hp, Option.map_some, eq_comm, Option.map_eq_some_iff] at hrid
  exact hrid

namespace Heartbeat

/-- Two ticks with the same outcome: the board they leave, and what they put out as sets. -/
structure SameOutcome (r r' : ChangeSet × Heartbeat) : Prop where
  pool : r.2.board.sessionPool.Same r'.2.board.sessionPool
  pending : r.2.board.pending.Same r'.2.board.pending
  metrics : r.2.board.metrics = r'.2.board.metrics
  clientWrites : ∀ w, w ∈ r.1.clientWrites ↔ w ∈ r'.1.clientWrites
  closeSessions : ∀ c, c ∈ r.1.closeSessions ↔ c ∈ r'.1.closeSessions

/-- Two moments inside a tick that differ in nothing the end of the tick depends on. -/
structure Alike (hb hb' : Heartbeat) : Prop where
  pool : hb.board.sessionPool.Same hb'.board.sessionPool
  pending : hb.board.pending.Same hb'.board.pending
  metrics : hb.board.metrics = hb'.board.metrics
  changedSessions : ∀ sid, sid ∈ hb.changedSessions ↔ sid ∈ hb'.changedSessions
  changeset : hb.changeset = hb'.changeset

/-! ### The end of a tick -/

section Evolution

variable {board board' : DataBoard} {inputs inputs' : EvolveInputs} {now : TimePoint}

/-- The reason to close a session depends on its record, the bounds of the pool and the
set of touched sessions. -/
theorem closeReason_congr (hpool : board.sessionPool.Same board'.sessionPool)
    (hchanged : ∀ sid, sid ∈ inputs.changedSessions ↔ sid ∈ inputs'.changedSessions)
    (s : SessionRecord) :
    board.sessionPool.closeReason inputs now s = board'.sessionPool.closeReason inputs' now s := by
  have hlife : board.sessionPool.lifetimeExpired now s =
      board'.sessionPool.lifetimeExpired now s := by
    rw [SessionPool.lifetimeExpired, SessionPool.lifetimeExpired, hpool.maxLifetime]
  have hidle : board.sessionPool.idleExpired now s = board'.sessionPool.idleExpired now s := by
    rw [SessionPool.idleExpired, SessionPool.idleExpired, hpool.idleTimeout]
  unfold SessionPool.closeReason
  rw [hlife, hidle]
  exact if_congr (and_congr_left' (hchanged s.sessionId)) rfl rfl

/-- Evolution leaves pools that no operation tells apart so. -/
theorem evolve_pool_same (hpool : board.sessionPool.Same board'.sessionPool)
    (hkeyed : board.sessionPool.WellKeyed) (hkeyed' : board'.sessionPool.WellKeyed)
    (hchanged : ∀ sid, sid ∈ inputs.changedSessions ↔ sid ∈ inputs'.changedSessions) :
    (evolve inputs now board).2.sessionPool.Same (evolve inputs' now board').2.sessionPool where
  get := by
    intro sid
    refine Option.ext fun s => ?_
    rw [evolve_get_session hkeyed, evolve_get_session hkeyed', hpool.get,
      SessionPool.closes_iff_closeReason, SessionPool.closes_iff_closeReason,
      closeReason_congr hpool hchanged]
  lru := by
    rw [evolve_lru hkeyed, evolve_lru hkeyed', hpool.lru]
    simp only [hpool.get, closeReason_congr hpool hchanged]
  maxSize := by rw [evolve_maxSize, evolve_maxSize, hpool.maxSize]
  idleTimeout := by rw [evolve_idleTimeout, evolve_idleTimeout, hpool.idleTimeout]
  maxLifetime := by rw [evolve_maxLifetime, evolve_maxLifetime, hpool.maxLifetime]

/-- The sweep removes the same requests from both stores. -/
theorem evolve_pending_same (hpending : board.pending.Same board'.pending) :
    (evolve inputs now board).2.pending.Same (evolve inputs' now board').2.pending := by
  have hkept {board : DataBoard} {inputs : EvolveInputs} (rid : String) :
      ((evolve inputs now board).2.pending.get rid).map PendingRequest.untimed =
        ((board.pending.get rid).map PendingRequest.untimed).filter
          fun p => !p.state.terminal := by
    refine Option.ext fun q => ?_
    simp only [Option.map_eq_some_iff, evolve_get_pending, Option.filter_eq_some_iff,
      Bool.not_eq_true']
    constructor
    · rintro ⟨p, ⟨hp, hlive⟩, rfl⟩
      exact ⟨⟨p, hp, rfl⟩, hlive⟩
    · rintro ⟨⟨p, hp, rfl⟩, hlive⟩
      exact ⟨p, ⟨hp, hlive⟩, rfl⟩
  intro rid
  rw [hkept, hkept, hpending rid]

/-- Evolution reports the same closes. -/
theorem evolve_closes_same (hpool : board.sessionPool.Same board'.sessionPool)
    (hkeyed : board.sessionPool.WellKeyed) (hkeyed' : board'.sessionPool.WellKeyed)
    (hpending : board.pending.Same board'.pending)
    (hchanged : ∀ sid, sid ∈ inputs.changedSessions ↔ sid ∈ inputs'.changedSessions)
    (c : CloseSession) : c ∈ (evolve inputs now board).1 ↔ c ∈ (evolve inputs' now board').1 := by
  have hswept {board board' : DataBoard} (hpending : board.pending.Same board'.pending) :
      (∃ rid p, board.pending.get rid = some p ∧ p.state.terminal = true ∧
        p.sessionId = c.sessionId) →
      ∃ rid p, board'.pending.get rid = some p ∧ p.state.terminal = true ∧
        p.sessionId = c.sessionId := by
    rintro ⟨rid, p, hp, hterminal, hsid⟩
    obtain ⟨p', hp', heq⟩ := hpending.exists_get hp
    have hstate : p'.untimed.state = p.untimed.state := by rw [heq]
    have hsession : p'.untimed.sessionId = p.untimed.sessionId := by rw [heq]
    have hterminal' : p'.state.terminal = true := (congrArg PendingState.terminal hstate).trans
      hterminal
    exact ⟨rid, p', hp', hterminal', hsession.trans hsid⟩
  rw [mem_evolve_closes hkeyed, mem_evolve_closes hkeyed']
  simp only [hpool.get, closeReason_congr hpool hchanged]
  exact or_congr_right (and_congr_right fun _ =>
    ⟨hswept hpending, hswept fun rid => (hpending rid).symm⟩)

end Evolution

end Heartbeat

namespace History

open Heartbeat

variable {env : Env} {h h' : History} {es es' : List TtsResponseMsg}

/-- In a run with pairwise distinct request identifiers the emission pass does nothing. -/
theorem Routed.emitReady_eq (hrouted : h.Routed) : emitReady h.hb = h.hb := by
  have hnone : h.hb.board.pending.findReadyToEmit = [] :=
    Table.collect_eq_nil_iff.mpr fun rid p hp => hrouted.not_readyToEmit hp
  rw [emitReady, hnone, List.foldl_nil]

/-- Moments that the end of a tick cannot tell apart lead to the same outcome. -/
theorem finishTick_sameOutcome (hrouted : h.Routed) (hrouted' : h'.Routed)
    (halike : Alike h.hb h'.hb) {inp inp' : TickInput} (hstart : inp.startedAt = inp'.startedAt)
    (hnow : inp.now = inp'.now) (hend : inp.endedAt = inp'.endedAt) :
    SameOutcome (finishTick inp h.hb) (finishTick inp' h'.hb) := by
  have hkeyed := hrouted.poolWf.wellKeyed
  have hkeyed' := hrouted'.poolWf.wellKeyed
  have hevolved : evolved inp h.hb =
      evolve ⟨h.hb.changedSessions, h.hb.changedRequests⟩ inp.now h.hb.board := by
    rw [evolved, hrouted.emitReady_eq]
  have hevolved' : evolved inp' h'.hb =
      evolve ⟨h'.hb.changedSessions, h'.hb.changedRequests⟩ inp.now h'.hb.board := by
    rw [evolved, hrouted'.emitReady_eq, hnow]
  refine ⟨?_, ?_, ?_, fun w => ?_, fun c => ?_⟩
  · rw [finishTick_board.2.1, finishTick_board.2.1, hevolved, hevolved']
    exact evolve_pool_same halike.pool hkeyed hkeyed' halike.changedSessions
  · rw [finishTick_board.1, finishTick_board.1, hevolved, hevolved']
    exact evolve_pending_same halike.pending
  · simp only [finishTick, hrouted.emitReady_eq, hrouted'.emitReady_eq, evolve_metrics,
      halike.metrics, hstart, hend]
  · rw [finishTick_collects, finishTick_collects, hrouted.emitReady_eq, hrouted'.emitReady_eq,
      halike.changeset]
  · rw [finishTick_collects, finishTick_collects, hrouted.emitReady_eq, hrouted'.emitReady_eq,
      halike.changeset, hevolved, hevolved', List.mem_append, List.mem_append]
    exact or_congr_right
      (evolve_closes_same halike.pool hkeyed hkeyed' halike.pending halike.changedSessions c)

/-! ### The events of a batch -/

/-- Handle one upstream event. -/
def hearEvent (env : Env) (h : History) (e : TtsResponseMsg) : History :=
  step env h (.message (.response e))

/-- What the events of one session can change: its record, and the requests bound to it. -/
def sessionView (sid : String) (h : History) :
    Option SessionRecord × (String → Option PendingRequest) :=
  (h.hb.board.sessionPool.get sid, fun rid =>
    ((h.hb.board.pending.get rid).filter fun p => p.sessionId = sid).map PendingRequest.untimed)

/-- An upstream event keeps the routing. -/
theorem Routed.hearEvent (hrouted : h.Routed) (e : TtsResponseMsg) : (hearEvent env h e).Routed :=
  hrouted.message fun _ hid => by cases hid

/-- Upstream events keep the routing. -/
theorem Routed.foldl_hearEvent (hrouted : h.Routed) (es : List TtsResponseMsg) :
    (es.foldl (History.hearEvent env) h).Routed := by
  induction es generalizing h with
  | nil => exact hrouted
  | cons e es ih => exact ih (hrouted.hearEvent e)

/-- The events of other sessions leave the view of a session alone. An audio chunk goes to
the current request of its own session, which by the routing is bound to that session. -/
theorem sessionView_other {sid : String} {e : TtsResponseMsg} (hrouted : h.Routed)
    (hne : e.sessionId ≠ sid) : sessionView sid (hearEvent env h e) = sessionView sid h := by
  have hsession : (handleResponse env e h.hb).board.sessionPool.get sid =
      h.hb.board.sessionPool.get sid := by
    rw [handleResponse_get_session]
    split <;> simp [Ne.symm hne]
  have hpending (rid : String) :
      (((handleResponse env e h.hb).board.pending.get rid).filter fun p => p.sessionId = sid) =
        (h.hb.board.pending.get rid).filter fun p => p.sessionId = sid := by
    rw [handleResponse_get_pending]
    cases hp : h.hb.board.pending.get rid with
    | none => split <;> simp
    | some p =>
      split
      · split
        · rename_i hcurrent
          -- the chunk is for the current request of the session of the event
          obtain ⟨hrid, hrid_ne⟩ := hcurrent
          have hbound : p.sessionId = e.sessionId := by
            unfold currentOf at hrid
            cases hs : h.hb.board.sessionPool.get e.sessionId with
            | none => exact absurd (by simpa [hs] using hrid) hrid_ne
            | some s =>
              have heq : rid = s.currentRequestId := by simpa [hs] using hrid
              exact hrouted.bound hs (heq ▸ hp)
          have hother : ¬p.sessionId = sid := by rwa [hbound]
          simp [Option.filter, PendingRequest.append, hother]
        · rfl
      all_goals
        by_cases hown : p.sessionId = e.sessionId
        · simp [Option.filter, hown, hne]
        · simp [hown]
  unfold sessionView
  simp only [hearEvent, step, handleMessage, hsession, hpending]

/-- A change of requests that keeps their sessions and does not read the time of the last
chunk, seen through the view of a session. -/
private theorem filter_map_untimed {o : Option PendingRequest} {sid : String}
    {f g : PendingRequest → PendingRequest} (hsession : ∀ p, (f p).sessionId = p.sessionId)
    (huntimed : ∀ p, (f p).untimed = g p.untimed) :
    ((o.map f).filter fun p => p.sessionId = sid).map PendingRequest.untimed =
      ((o.filter fun p => p.sessionId = sid).map PendingRequest.untimed).map g := by
  cases o with
  | none => rfl
  | some p => by_cases hp : p.sessionId = sid <;> simp [Option.filter, hsession, huntimed, hp]

/-- The events of a session, connections apart, change its view in a way that depends on
nothing else. -/
theorem sessionView_own {sid : String} {e : TtsResponseMsg} (hkind : e.kind ≠ .connected)
    (hsid : e.sessionId = sid) (hview : sessionView sid h = sessionView sid h') :
    sessionView sid (hearEvent env h e) = sessionView sid (hearEvent env h' e) := by
  subst hsid
  have hsession : h.hb.board.sessionPool.get e.sessionId =
      h'.hb.board.sessionPool.get e.sessionId := congrArg Prod.fst hview
  have hpending (rid : String) :
      (((h.hb.board.pending.get rid).filter fun p => p.sessionId = e.sessionId).map
        PendingRequest.untimed) =
        ((h'.hb.board.pending.get rid).filter fun p => p.sessionId = e.sessionId).map
          PendingRequest.untimed := congrFun (congrArg Prod.snd hview) rid
  have hcurrent : h.hb.currentOf e.sessionId = h'.hb.currentOf e.sessionId := by
    rw [currentOf, currentOf, hsession]
  refine Prod.ext ?_ (funext fun rid => ?_)
  · simp only [sessionView, hearEvent, step, handleMessage, handleResponse_get_session, hsession]
    cases hcase : e.kind with
    | connected => exact absurd hcase hkind
    | _ => rfl
  · simp only [sessionView, hearEvent, step, handleMessage, handleResponse_get_pending, hcurrent]
    cases hcase : e.kind with
    | audioChunk =>
      by_cases hrid : rid = h'.hb.currentOf e.sessionId ∧ rid ≠ ""
      · -- the time of the chunk is all that the two records may differ in
        have happend (t : TimePoint) (o : Option PendingRequest) := @filter_map_untimed o
          e.sessionId (fun p => p.append (hexDecode e.audioHex) e.isFinal e.usageCharacters t)
          (fun p => p.append (hexDecode e.audioHex) e.isFinal e.usageCharacters 0)
          (fun _ => rfl) fun _ => rfl
        simp only [if_pos hrid, happend, hpending]
      · simp only [if_neg hrid, hpending]
    | taskFailed =>
      have hfail (o : Option PendingRequest) := @filter_map_untimed o e.sessionId
        (fun p => if p.sessionId = e.sessionId then { p with
          state := .failed, statusCode := e.statusCode, statusMsg := e.statusMsg } else p)
        (fun p => if p.sessionId = e.sessionId then { p with
          state := .failed, statusCode := e.statusCode, statusMsg := e.statusMsg } else p)
        (fun p => by split <;> rfl) fun p => by
          by_cases hp : p.sessionId = e.sessionId <;> simp [PendingRequest.untimed, hp]
      simp only [hfail, hpending]
    | disconnected =>
      have hlost (o : Option PendingRequest) := @filter_map_untimed o e.sessionId
        (fun p => if p.sessionId = e.sessionId then { p with state := .failed } else p)
        (fun p => if p.sessionId = e.sessionId then { p with state := .failed } else p)
        (fun p => by split <;> rfl) fun p => by
          by_cases hp : p.sessionId = e.sessionId <;> simp [PendingRequest.untimed, hp]
      simp only [hlost, hpending]
    | connected => exact absurd hcase hkind
    | _ => exact hpending rid

/-! ### What all sessions share -/

/-- The pool as a whole after events: the recency list loses the sessions that are lost. -/
theorem foldl_hearEvent_pool (hes : ∀ e ∈ es, e.kind ≠ .connected) :
    (es.foldl (hearEvent env) h).hb.board.sessionPool.lru =
        h.hb.board.sessionPool.lru.filter (fun sid => !es.any fun e => e.loses sid) ∧
      (es.foldl (hearEvent env) h).hb.board.sessionPool.maxSize =
        h.hb.board.sessionPool.maxSize ∧
      (es.foldl (hearEvent env) h).hb.board.sessionPool.idleTimeout =
        h.hb.board.sessionPool.idleTimeout ∧
      (es.foldl (hearEvent env) h).hb.board.sessionPool.maxLifetime =
        h.hb.board.sessionPool.maxLifetime := by
  induction es generalizing h with
  | nil => simp
  | cons e es ih =>
    obtain ⟨hlru, hsize, hidle, hlife⟩ :=
      @ih (hearEvent env h e) fun e' he' => hes e' (List.mem_cons_of_mem e he')
    have hpool : (hearEvent env h e).hb.board.sessionPool = _ :=
      handleResponse_sessionPool (hes e List.mem_cons_self)
    rw [List.foldl_cons, hlru, hsize, hidle, hlife, hpool]
    cases hcase : e.kind with
    | disconnected =>
      refine ⟨?_, rfl, rfl, rfl⟩
      simp only [SessionPool.markClosed, List.filter_filter]
      refine List.filter_congr fun sid _ => ?_
      by_cases hsid : sid = e.sessionId
      · simp [TtsResponseMsg.loses, hsid, hcase]
      · simp [TtsResponseMsg.loses, hsid, Ne.symm hsid]
    | _ => exact ⟨by simp [TtsResponseMsg.loses, hcase, SessionPool.markErrored, SessionPool.mark],
        rfl, rfl, rfl⟩

/-- The number of requests that an event adds to the failed ones. -/
def charge (h : History) (e : TtsResponseMsg) : Nat :=
  if e.kind = .taskFailed then (h.hb.board.pending.collectBySession e.sessionId).length else 0

/-- The metrics after events. -/
theorem foldl_hearEvent_metrics (hes : ∀ e ∈ es, e.kind ≠ .connected) :
    (es.foldl (hearEvent env) h).hb.board.metrics = { h.hb.board.metrics with
      failedRequests := h.hb.board.metrics.failedRequests +
        UInt64.ofNat (es.map (charge h)).sum } := by
  induction es generalizing h with
  | nil => simp
  | cons e es ih =>
    have hmetrics : (hearEvent env h e).hb.board.metrics = _ :=
      handleResponse_metrics (hes e List.mem_cons_self)
    have hcharge : charge (hearEvent env h e) = charge h := by
      funext e'
      have hlength : ((hearEvent env h e).hb.board.pending.collectBySession e'.sessionId).length =
          (h.hb.board.pending.collectBySession e'.sessionId).length :=
        handleResponse_length_collectBySession
      rw [charge, charge, hlength]
    rw [List.foldl_cons, ih fun e' he' => hes e' (List.mem_cons_of_mem e he'), hcharge, hmetrics,
      List.map_cons, List.sum_cons, UInt64.ofNat_add, ← UInt64.add_assoc]
    rfl

/-- The touched sessions after events. -/
theorem mem_foldl_hearEvent_changedSessions {sid : String} :
    sid ∈ (es.foldl (hearEvent env) h).hb.changedSessions ↔ sid ∈ h.hb.changedSessions ∨
      ∃ e ∈ es, sid = e.sessionId ∧ e.kind ≠ .taskStarted ∧ e.kind ≠ .audioChunk := by
  induction es generalizing h with
  | nil => simp
  | cons e es ih =>
    have hstep : sid ∈ (hearEvent env h e).hb.changedSessions ↔ _ :=
      handleResponse_changedSessions
    rw [List.foldl_cons, ih, hstep, List.exists_mem_cons_iff, or_assoc]

/-- Records that every session sees alike are alike. -/
private theorem map_untimed_of_filter {o o' : Option PendingRequest}
    (hview : ∀ sid, (o.filter fun p => p.sessionId = sid).map PendingRequest.untimed =
      (o'.filter fun p => p.sessionId = sid).map PendingRequest.untimed) :
    o.map PendingRequest.untimed = o'.map PendingRequest.untimed := by
  cases o with
  | none =>
    cases o' with
    | none => rfl
    | some p' => simpa [Option.filter] using hview p'.sessionId
  | some p =>
    have hp := hview p.sessionId
    cases o' with
    | none => simp [Option.filter] at hp
    | some p' =>
      by_cases heq : p'.sessionId = p.sessionId
      · simpa [Option.filter, heq] using hp
      · simp [Option.filter, heq] at hp

/-- Interleavings of the same events lead to moments that the end of a tick cannot tell
apart. -/
theorem Routed.alike (hrouted : h.Routed) (hes : ∀ e ∈ es, e.kind ≠ .connected)
    (hsame : Interleave TtsResponseMsg.sessionId es es') :
    Alike (es.foldl (History.hearEvent env) h).hb (es'.foldl (History.hearEvent env) h).hb := by
  have hperm := hsame.perm
  have hes' : ∀ e ∈ es', e.kind ≠ .connected := fun e he => hes e (hperm.mem_iff.mpr he)
  have hview (sid : String) : sessionView sid (es.foldl (History.hearEvent env) h) =
      sessionView sid (es'.foldl (History.hearEvent env) h) :=
    hsame.view_eq (fun h e hrouted => hrouted.hearEvent e)
      (fun e _ h hrouted hne => sessionView_other hrouted hne)
      (fun e he h h' hsid hview => sessionView_own (hes e he) hsid hview) hrouted
  obtain ⟨hlru, hsize, hidle, hlife⟩ := @foldl_hearEvent_pool env h es hes
  obtain ⟨hlru', hsize', hidle', hlife'⟩ := @foldl_hearEvent_pool env h es' hes'
  have hquiet (es : List TtsResponseMsg) :
      (es.foldl (History.hearEvent env) h).hb.changeset = h.hb.changeset :=
    foldl_proj (fun h : History => h.hb.changeset) fun _ _ => handleResponse_quiet.changeset
  refine ⟨⟨fun sid => congrArg Prod.fst (hview sid), ?_, ?_, ?_, ?_⟩, fun rid => ?_, ?_,
    fun sid => ?_, ?_⟩
  · rw [hlru, hlru']
    simp only [hperm.any_eq]
  · rw [hsize, hsize']
  · rw [hidle, hidle']
  · rw [hlife, hlife']
  · exact map_untimed_of_filter fun sid => congrFun (congrArg Prod.snd (hview sid)) rid
  · rw [foldl_hearEvent_metrics hes, foldl_hearEvent_metrics hes', (hperm.map _).sum_nat]
  · rw [mem_foldl_hearEvent_changedSessions, mem_foldl_hearEvent_changedSessions]
    simp only [hperm.mem_iff]
  · rw [hquiet, hquiet]

/-- The history inside a tick, when the request channel has been handled. -/
def afterRequests (env : Env) (h : History) (inp : TickInput) : History :=
  (inp.requests.map Step.message).foldl (step env) (step env h .begin)

/-- A tick handles its upstream events after the request channel, and then ends. -/
theorem tick_events (inp : TickInput) (es : List TtsResponseMsg) :
    tick env { inp with events := es.map .response } h.hb =
      finishTick { inp with events := es.map .response }
        (es.foldl (hearEvent env) (afterRequests env h inp)).hb := by
  have hrequests : (afterRequests env h inp).hb =
      inp.requests.foldl (handleMessage env) h.hb.beginTick := by
    rw [afterRequests, List.foldl_map]
    exact (List.foldl_hom History.hb fun _ _ => rfl).symm
  have hevents : (es.foldl (hearEvent env) (afterRequests env h inp)).hb =
      es.foldl (fun hb e => handleMessage env hb (.response e)) (afterRequests env h inp).hb :=
    (List.foldl_hom History.hb fun _ _ => rfl).symm
  rw [tick, TickInput.batch, List.foldl_append, List.foldl_map, hevents, hrequests]

/-- With pairwise distinct request identifiers, the request channel keeps the routing. -/
theorem afterRequests_routed {maxSize : Nat} {idleTimeout maxLifetime : Duration}
    {inputs : List TickInput} {inp : TickInput}
    (hids : ((messagesOf inputs ++ inp.requests).filterMap Message.requestId?).Nodup) :
    (afterRequests env (of env (start maxSize idleTimeout maxLifetime) inputs) inp).Routed := by
  exact during_invariant hids (start_routed maxSize idleTimeout maxLifetime)
    (fun _ hrouted => hrouted.begin) (fun _ _ hrouted hfresh => hrouted.message hfresh)
    fun _ inp hrouted => hrouted.finish inp

/-- Sessions do not interfere. Take any state that a run with pairwise distinct request
identifiers reaches, and any two lists of upstream events without connections that hold
the same events of every session in the same order. Handled in one tick, after the same
requests and at the same readings of the clock, they have the same outcome. -/
theorem sessions_do_not_interfere (env : Env) (maxSize : Nat)
    (idleTimeout maxLifetime : Duration) {inputs : List TickInput} {inp : TickInput}
    (hids : ((messagesOf inputs ++ inp.requests).filterMap Message.requestId?).Nodup)
    (hes : ∀ e ∈ es, e.kind ≠ .connected)
    (hsame : Interleave TtsResponseMsg.sessionId es es') :
    SameOutcome
      (tick env { inp with events := es.map .response }
        (run env (start maxSize idleTimeout maxLifetime) inputs).2)
      (tick env { inp with events := es'.map .response }
        (run env (start maxSize idleTimeout maxLifetime) inputs).2) := by
  have hrouted := @afterRequests_routed env maxSize idleTimeout maxLifetime inputs inp hids
  rw [← of_eq_run.1, tick_events, tick_events]
  exact finishTick_sameOutcome (hrouted.foldl_hearEvent es) (hrouted.foldl_hearEvent es')
    (hrouted.alike hes hsame) rfl rfl rfl

/-- Two requests on two sessions. -/
def twoSessions : List TickInput :=
  [{ requests := [.request { requestId := "a" }, .request { requestId := "b" }] }]

/-- One session receives a chunk and is lost, the other receives a chunk and fails. -/
def sessionBySession : List TtsResponseMsg :=
  [{ sessionId := "s-0000000000000000" },
    { sessionId := "s-0000000000000000", kind := .disconnected },
    { sessionId := "s-0000000000000001" },
    { sessionId := "s-0000000000000001", kind := .taskFailed }]

/-- The same events, alternating between the sessions. -/
def alternating : List TtsResponseMsg :=
  [{ sessionId := "s-0000000000000001" },
    { sessionId := "s-0000000000000000" },
    { sessionId := "s-0000000000000001", kind := .taskFailed },
    { sessionId := "s-0000000000000000", kind := .disconnected }]

/-- Both sessions exist, both lists touch them, and the outcome is the same. -/
theorem sessions_do_not_interfere_alternating :
    (run sampleEnv (start 16 (seconds 60) (seconds 3600)) twoSessions).2.board.sessionPool.lru =
        ["s-0000000000000001", "s-0000000000000000"] ∧
      sessionBySession ≠ alternating ∧
      SameOutcome
        (tick sampleEnv { events := sessionBySession.map .response }
          (run sampleEnv (start 16 (seconds 60) (seconds 3600)) twoSessions).2)
        (tick sampleEnv { events := alternating.map .response }
          (run sampleEnv (start 16 (seconds 60) (seconds 3600)) twoSessions).2) :=
  ⟨by decide +kernel, by decide, @sessions_do_not_interfere sessionBySession alternating sampleEnv
    16 (seconds 60) (seconds 3600) twoSessions {} (by decide) (by decide) (by decide)⟩

end History

end TtsServer
