import TtsServer.Evolution
import TtsServer.PoolRefinement

/-!
# Evolution in one piece

`evolve` works in four passes over stores that it changes on the way. Here its result is
given in one piece, as a function of the board before it: which sessions are closed and for
which reason, which requests are removed, and in which order both are reported. What a pass
removes never makes another pass act, so a second evaluation at the same time finds nothing
to do.
-/

namespace TtsServer

open Lib

namespace SessionPool

variable (pool : SessionPool)

/-- The pool without the sessions that a test names. -/
def without (gone : String → Bool) : SessionPool :=
  { pool with
    sessions := pool.sessions.keep fun id _ => !gone id
    lru := pool.lru.filter fun id => !gone id }

variable {pool} {gone gone' : String → Bool} {id : String}

/-- The records that are left. -/
@[simp] theorem get_without :
    (pool.without gone).get id = if gone id then none else pool.get id := by
  have hlookup : (pool.without gone).get id = (pool.get id).filter fun _ => !gone id :=
    Table.lookup_keep
  rw [hlookup]
  cases pool.get id <;> cases gone id <;> rfl

/-- Sessions removed one test after the other. -/
theorem without_without :
    (pool.without gone).without gone' = pool.without fun id => gone id || gone' id := by
  simp only [without, Table.keep_keep, List.filter_filter, Bool.not_or, Bool.and_comm]

/-- Closing a session removes it alone. -/
theorem markClosed_eq_without : pool.markClosed id = pool.without fun id' => id' = id := by
  simp only [markClosed, without, Table.erase_eq_keep, ne_eq, decide_not]

/-- Removing nothing. -/
@[simp] theorem without_false : (pool.without fun _ => false) = pool := by
  have hkeep : (pool.sessions.keep fun _ _ => true) = pool.sessions :=
    Table.keep_eq_self fun _ _ _ => rfl
  simp [without, hkeep]

/-- Only the answers of a test on the sessions of the pool matter. -/
theorem without_congr (hpool : pool.WellFormed)
    (hsame : ∀ id s, pool.get id = some s → gone id = gone' id) :
    pool.without gone = pool.without gone' := by
  have hsessions : (pool.sessions.keep fun id _ => !gone id) =
      pool.sessions.keep fun id _ => !gone' id :=
    Table.keep_congr fun id s hs => congrArg not (hsame id s hs)
  have hlru : (pool.lru.filter fun id => !gone id) = pool.lru.filter fun id => !gone' id := by
    refine List.filter_congr fun id hid => ?_
    obtain ⟨s, hs⟩ := hpool.backed hid
    rw [hsame id s hs]
  rw [without, without, hsessions, hlru]

/-- Removing sessions keeps the pool well formed. -/
theorem WellFormed.without (hpool : pool.WellFormed) : (pool.without gone).WellFormed where
  sessionId_eq := by
    intro id s hs
    rw [get_without] at hs
    split at hs
    · cases hs
    · exact hpool.sessionId_eq hs
  listed := by
    intro id s hs
    rw [get_without] at hs
    split at hs
    · cases hs
    · rename_i hkept
      exact List.mem_filter.mpr ⟨hpool.listed hs, by simpa using hkept⟩
  nodup := hpool.nodup.filter _
  backed := by
    intro id hid
    obtain ⟨hmem, hkept⟩ := List.mem_filter.mp hid
    obtain ⟨s, hs⟩ := hpool.backed hmem
    rw [Bool.not_eq_true'] at hkept
    exact ⟨s, by simp [hkept, hs]⟩

/-- A session of the pool is ready. -/
def isReady (pool : SessionPool) (id : String) : Bool :=
  (pool.get id).any fun s => s.state = .ready

/-- The sessions that `evolve` closes for a reason. -/
def closedFor (pool : SessionPool) (inputs : EvolveInputs) (now : TimePoint) (reason : String)
    (id : String) : Bool :=
  (pool.get id).any fun s => pool.closeReason inputs now s = some reason

/-- The sessions that `evolve` closes. -/
def closed (pool : SessionPool) (inputs : EvolveInputs) (now : TimePoint) (id : String) : Bool :=
  (pool.get id).any fun s => (pool.closeReason inputs now s).isSome

/-- A session that is closed for a reason has a record with this reason. -/
theorem closedFor_iff {inputs : EvolveInputs} {now : TimePoint} {reason : String} :
    pool.closedFor inputs now reason id = true ↔
      ∃ s, pool.get id = some s ∧ pool.closeReason inputs now s = some reason := by
  unfold closedFor
  cases pool.get id <;> simp

end SessionPool

/-- The session to close for a request that the sweep removes. -/
def PendingRequestStore.sweptClose (pending : PendingRequestStore) (rid : String) :
    Option CloseSession :=
  (pending.get rid).map fun p => ⟨p.sessionId, "request_failed_or_cancelled"⟩

/-- The sessions that `evolve` closes, with the reasons, in the order of its passes. -/
def sessionCloses (inputs : EvolveInputs) (now : TimePoint) (pool : SessionPool) :
    List CloseSession :=
  (inputs.changedSessions.filter (pool.closedFor inputs now "evolve_session_closed")).map
      (⟨·, "evolve_session_closed"⟩) ++
    (pool.sessions.keys.filter (pool.closedFor inputs now "lifetime_exceeded")).map
      (⟨·, "lifetime_exceeded"⟩) ++
    (pool.lru.reverse.filter (pool.closedFor inputs now "idle_timeout")).map (⟨·, "idle_timeout"⟩)

/-- `evolve` in one piece: every decision is taken on the board before it. -/
def evolveOnce (inputs : EvolveInputs) (now : TimePoint) (board : DataBoard) :
    List CloseSession × DataBoard :=
  (sessionCloses inputs now board.sessionPool ++
      board.pending.collectTerminal.filterMap board.pending.sweptClose,
    { board with
      sessionPool := board.sessionPool.without (board.sessionPool.closed inputs now)
      pending := ⟨board.pending.store.keep fun _ p => !p.state.terminal⟩ })

/-! ### The passes -/

section Passes

variable {acc : List CloseSession × SessionPool} {ids : List String} {reason : String}

/-- Closing a list of sessions. -/
theorem closeAll_eq :
    closeAll reason ids acc =
      (acc.1 ++ ids.map (⟨·, reason⟩), acc.2.without fun id => decide (id ∈ ids)) := by
  refine Prod.ext closeAll_fst ?_
  unfold closeAll
  induction ids generalizing acc with
  | nil => simp
  | cons id ids ih =>
    rw [List.foldl_cons, ih]
    simp only [SessionPool.markClosed_eq_without, SessionPool.without_without, List.mem_cons,
      Bool.decide_or]

/-- A session of the first pass. -/
def SessionPool.failed (pool : SessionPool) (id : String) : Bool :=
  (pool.get id).any SessionRecord.failedOrClosed

/-- One iteration of the first pass. -/
theorem closeIfFailed_eq {id : String} :
    closeIfFailed acc id =
      if acc.2.failed id then
        (acc.1 ++ [⟨id, "evolve_session_closed"⟩], acc.2.without fun id' => id' = id)
      else acc := by
  unfold closeIfFailed SessionPool.failed
  cases acc.2.get id with
  | none => rfl
  | some s => simp only [Option.any_some, SessionPool.markClosed_eq_without]

/-- The first pass over a set of sessions. -/
theorem foldl_closeIfFailed_eq (hids : ids.Nodup) :
    ids.foldl closeIfFailed acc =
      (acc.1 ++ (ids.filter acc.2.failed).map (⟨·, "evolve_session_closed"⟩),
        acc.2.without fun id => decide (id ∈ ids) && acc.2.failed id) := by
  induction ids generalizing acc with
  | nil => simp
  | cons id ids ih =>
    obtain ⟨hnot, hids⟩ := List.nodup_cons.mp hids
    rw [List.foldl_cons, ih hids, closeIfFailed_eq]
    by_cases hfailed : acc.2.failed id = true
    · -- the sessions named later are tested on a pool that has lost only this one
      have hlater : ∀ id' ∈ ids,
          (acc.2.without fun id' => id' = id).failed id' = acc.2.failed id' := by
        intro id' hid'
        have hne : id' ≠ id := fun heq => hnot (heq ▸ hid')
        simp [SessionPool.failed, hne]
      simp only [hfailed, if_true, List.filter_congr hlater, SessionPool.without_without,
        List.filter_cons_of_pos hfailed, List.map_cons, List.append_assoc, List.singleton_append,
        Prod.mk.injEq, true_and]
      congr 1
      funext id'
      by_cases hid : id' = id
      · simp [hid, hfailed]
      · simp [hid, SessionPool.failed]
    · simp only [hfailed, Bool.false_eq_true, if_false, List.filter_cons_of_neg hfailed,
        Prod.mk.injEq, true_and]
      congr 1
      funext id'
      by_cases hid : id' = id
      · simp [hid, hnot, hfailed]
      · simp [hid]

/-- The terminal sweep over a set of requests. -/
theorem foldl_sweepTerminal_eq {acc : List CloseSession × PendingRequestStore}
    (hids : ids.Nodup) :
    ids.foldl sweepTerminal acc =
      (acc.1 ++ ids.filterMap acc.2.sweptClose,
        ⟨acc.2.store.keep fun id _ => decide (id ∉ ids)⟩) := by
  induction ids generalizing acc with
  | nil =>
    have hkeep : (acc.2.store.keep fun _ _ => true) = acc.2.store :=
      Table.keep_eq_self fun _ _ _ => rfl
    simp [hkeep]
  | cons id ids ih =>
    obtain ⟨hnot, hids⟩ := List.nodup_cons.mp hids
    rw [List.foldl_cons, ih hids]
    unfold sweepTerminal
    cases hid : acc.2.get id with
    | none =>
      have hnone : acc.2.sweptClose id = none := by simp [PendingRequestStore.sweptClose, hid]
      have hkeep : (acc.2.store.keep fun id' _ => decide (id' ∉ ids)) =
          acc.2.store.keep fun id' _ => decide (id' ∉ id :: ids) := by
        refine Table.keep_congr fun id' p hp => ?_
        have hne : id' ≠ id := by
          rintro rfl
          exact absurd (hid.symm.trans hp) (by simp)
        simp [hne]
      simp only [List.filterMap_cons_none hnone, hkeep]
    | some p =>
      have hsome : acc.2.sweptClose id = some ⟨p.sessionId, "request_failed_or_cancelled"⟩ := by
        simp [PendingRequestStore.sweptClose, hid]
      have hlater : ∀ id' ∈ ids, (acc.2.remove id).sweptClose id' = acc.2.sweptClose id' := by
        intro id' hid'
        have hne : id' ≠ id := fun heq => hnot (heq ▸ hid')
        simp [PendingRequestStore.sweptClose, hne]
      have hkeep : ((acc.2.remove id).store.keep fun id' _ => decide (id' ∉ ids)) =
          acc.2.store.keep fun id' _ => decide (id' ∉ id :: ids) := by
        rw [PendingRequestStore.remove, Table.erase_eq_keep, Table.keep_keep]
        simp only [List.mem_cons, not_or, ne_eq, Bool.decide_and]
      simp only [List.filterMap_cons_some hsome, List.filterMap_congr hlater, hkeep,
        List.append_assoc, List.singleton_append]

end Passes

/-! ### The whole -/

section Whole

variable {inputs : EvolveInputs} {now : TimePoint} {board : DataBoard} {pool : SessionPool}
  {id : String} {s : SessionRecord}

/-- The reason of the first pass. -/
theorem SessionPool.closeReason_eq_failed :
    pool.closeReason inputs now s = some "evolve_session_closed" ↔
      s.sessionId ∈ inputs.changedSessions ∧ s.failedOrClosed = true := by
  unfold closeReason
  split_ifs <;> simp_all

/-- The reason of the second pass. -/
theorem SessionPool.closeReason_eq_lifetime :
    pool.closeReason inputs now s = some "lifetime_exceeded" ↔
      ¬(s.sessionId ∈ inputs.changedSessions ∧ s.failedOrClosed = true) ∧
        pool.lifetimeExpired now s = true := by
  unfold closeReason
  split_ifs <;> simp_all

/-- The reason of the third pass. -/
theorem SessionPool.closeReason_eq_idle :
    pool.closeReason inputs now s = some "idle_timeout" ↔
      ¬(s.sessionId ∈ inputs.changedSessions ∧ s.failedOrClosed = true) ∧
        pool.lifetimeExpired now s = false ∧ pool.idleExpired now s = true := by
  unfold closeReason
  split_ifs <;> simp_all

/-- There are no other reasons. -/
theorem SessionPool.closeReason_isSome :
    (pool.closeReason inputs now s).isSome = true ↔
      pool.closeReason inputs now s = some "evolve_session_closed" ∨
        pool.closeReason inputs now s = some "lifetime_exceeded" ∨
        pool.closeReason inputs now s = some "idle_timeout" := by
  unfold closeReason
  split_ifs <;> simp

/-- The sessions beyond their lifetime in what is left of a pool. -/
theorem SessionPool.collectLifetimeExpired_without {gone : String → Bool} :
    (pool.without gone).collectLifetimeExpired now =
      pool.sessions.keys.filter fun id =>
        !gone id && (pool.get id).any (pool.lifetimeExpired now) := by
  rw [← Table.collect_key]
  have hkeep : (pool.without gone).collectLifetimeExpired now =
      (pool.sessions.keep fun id _ => !gone id).collect fun _ s => pool.lifetimeExpired now s := rfl
  rw [hkeep, Table.collect_keep]
  refine Table.collect_congr fun id s hs => ?_
  have hget : pool.get id = some s := hs
  rw [hget, Option.any_some]

/-- The idle sessions in what is left of a pool. -/
theorem SessionPool.collectIdleExpired_without {gone : String → Bool} :
    (pool.without gone).collectIdleExpired now =
      pool.lru.reverse.filter fun id => !gone id && (pool.get id).any (pool.idleExpired now) := by
  have hlru : (pool.without gone).collectIdleExpired now =
      ((pool.lru.filter fun id => !gone id).reverse.filter fun id =>
        ((pool.without gone).get id).any (pool.idleExpired now)) := rfl
  rw [hlru, ← List.filter_reverse, List.filter_filter]
  refine List.filter_congr fun id _ => ?_
  cases hgone : gone id <;> simp [hgone]

/-- The first pass leaves the sessions that are not closed for its reason. -/
private theorem failed_eq_closedFor (hpool : pool.WellKeyed) :
    (fun id => decide (id ∈ inputs.changedSessions) && pool.failed id) =
      pool.closedFor inputs now "evolve_session_closed" := by
  funext id
  unfold SessionPool.failed SessionPool.closedFor
  cases hs : pool.get id with
  | none => simp
  | some s =>
    obtain rfl := hpool.sessionId_eq hs
    rw [Bool.eq_iff_iff]
    simp [SessionPool.closeReason_eq_failed]

/-- The test of the second pass on what the first has left. -/
private theorem lifetime_eq_closedFor :
    (fun id => !pool.closedFor inputs now "evolve_session_closed" id &&
      (pool.get id).any (pool.lifetimeExpired now)) =
      pool.closedFor inputs now "lifetime_exceeded" := by
  funext id
  unfold SessionPool.closedFor
  cases pool.get id with
  | none => rfl
  | some s =>
    rw [Bool.eq_iff_iff]
    simp [SessionPool.closeReason_eq_lifetime, SessionPool.closeReason_eq_failed]

/-- The test of the third pass on what the first two have left. -/
private theorem idle_eq_closedFor :
    (fun id => !(pool.closedFor inputs now "evolve_session_closed" id ||
      pool.closedFor inputs now "lifetime_exceeded" id) &&
      (pool.get id).any (pool.idleExpired now)) =
      pool.closedFor inputs now "idle_timeout" := by
  funext id
  unfold SessionPool.closedFor
  cases pool.get id with
  | none => rfl
  | some s =>
    rw [Bool.eq_iff_iff]
    simp only [Option.any_some, Bool.and_eq_true, Bool.not_eq_true', Bool.or_eq_false_iff,
      decide_eq_false_iff_not, decide_eq_true_eq, SessionPool.closeReason_eq_idle,
      SessionPool.closeReason_eq_lifetime, SessionPool.closeReason_eq_failed]
    by_cases hfailed : s.sessionId ∈ inputs.changedSessions ∧ s.failedOrClosed = true
    · simp [hfailed]
    · simp [hfailed]

/-- A session is closed for one of the three reasons. -/
private theorem closed_eq_closedFor :
    (fun id => (pool.closedFor inputs now "evolve_session_closed" id ||
      pool.closedFor inputs now "lifetime_exceeded" id) ||
      pool.closedFor inputs now "idle_timeout" id) = pool.closed inputs now := by
  funext id
  unfold SessionPool.closedFor SessionPool.closed
  cases pool.get id with
  | none => rfl
  | some s =>
    rw [Bool.eq_iff_iff]
    simp [SessionPool.closeReason_isSome, or_assoc]

/-- A session that is closed for a reason is in every list of all sessions. -/
private theorem mem_filter_closedFor {all : List String} {reason : String}
    (hall : ∀ id s, pool.get id = some s → id ∈ all) :
    (fun id => decide (id ∈ all.filter (pool.closedFor inputs now reason))) =
      pool.closedFor inputs now reason := by
  funext id
  rw [Bool.eq_iff_iff, decide_eq_true_eq, List.mem_filter, and_iff_right_iff_imp]
  intro hclosed
  obtain ⟨s, hs, -⟩ := SessionPool.closedFor_iff.mp hclosed
  exact hall id s hs

/-- The list of the map. -/
private theorem mem_keys_of_closedFor {reason : String} :
    (fun id => decide (id ∈ pool.sessions.keys.filter (pool.closedFor inputs now reason))) =
      pool.closedFor inputs now reason :=
  mem_filter_closedFor fun _ s hs => AList.mem_keys.mp (Table.mem_iff_lookup.mpr ⟨s, hs⟩)

/-- The recency list. -/
private theorem mem_lru_of_closedFor (hpool : pool.WellKeyed) {reason : String} :
    (fun id => decide (id ∈ pool.lru.reverse.filter (pool.closedFor inputs now reason))) =
      pool.closedFor inputs now reason :=
  mem_filter_closedFor fun _ _ hs => List.mem_reverse.mpr (hpool.listed hs)

/-- The sweep keeps the requests that have neither failed nor been cancelled. -/
private theorem keep_not_mem_collectTerminal {pending : PendingRequestStore} :
    (pending.store.keep fun id _ => decide (id ∉ pending.collectTerminal)) =
      pending.store.keep fun _ p => !p.state.terminal := by
  refine Table.keep_congr fun id p hp => ?_
  have hget : pending.get id = some p := hp
  rw [Bool.eq_iff_iff, decide_eq_true_eq, PendingRequestStore.mem_collectTerminal, hget]
  simp

/-- `evolve` does in four passes what `evolveOnce` decides at once. -/
theorem evolve_eq_evolveOnce (hpool : board.sessionPool.WellKeyed)
    (hset : inputs.changedSessions.Nodup) :
    evolve inputs now board = evolveOnce inputs now board := by
  have hfirst : inputs.changedSessions.filter board.sessionPool.failed =
      inputs.changedSessions.filter
        (board.sessionPool.closedFor inputs now "evolve_session_closed") := by
    refine List.filter_congr fun id hid => ?_
    rw [← failed_eq_closedFor hpool]
    simp [hid]
  have hsweep := fun acc => @foldl_sweepTerminal_eq board.pending.collectTerminal acc
    (Table.nodup_collect _ _)
  unfold evolve
  simp only [foldl_closeIfFailed_eq hset, closeAll_eq, hsweep,
    @failed_eq_closedFor inputs now board.sessionPool hpool,
    hfirst, SessionPool.collectLifetimeExpired_without, lifetime_eq_closedFor,
    mem_keys_of_closedFor, SessionPool.without_without, SessionPool.collectIdleExpired_without,
    idle_eq_closedFor, mem_lru_of_closedFor hpool, closed_eq_closedFor,
    keep_not_mem_collectTerminal]
  simp only [evolveOnce, sessionCloses, List.nil_append]

/-- The sessions that `evolve` closes, each reported with its reason. -/
theorem mem_sessionCloses (hpool : pool.WellKeyed) {c : CloseSession} :
    c ∈ sessionCloses inputs now pool ↔
      ∃ s, pool.get c.sessionId = some s ∧ pool.closeReason inputs now s = some c.reason := by
  have hreport (reason : String) (ids : List String) :
      c ∈ (ids.filter (pool.closedFor inputs now reason)).map (⟨·, reason⟩) ↔
        c.reason = reason ∧ c.sessionId ∈ ids ∧
          pool.closedFor inputs now c.reason c.sessionId = true := by
    obtain ⟨sid, why⟩ := c
    simp only [List.mem_map, List.mem_filter, CloseSession.mk.injEq]
    constructor
    · rintro ⟨sid', ⟨hmem, hclosed⟩, rfl, rfl⟩
      exact ⟨rfl, hmem, hclosed⟩
    · rintro ⟨rfl, hmem, hclosed⟩
      exact ⟨sid, ⟨hmem, hclosed⟩, rfl, rfl⟩
  unfold sessionCloses
  rw [List.mem_append, List.mem_append, hreport, hreport, hreport, ← SessionPool.closedFor_iff]
  constructor
  · rintro ((⟨-, -, hclosed⟩ | ⟨-, -, hclosed⟩) | ⟨-, -, hclosed⟩) <;> exact hclosed
  · intro hclosed
    obtain ⟨s, hs, hreason⟩ := SessionPool.closedFor_iff.mp hclosed
    have hsome : (pool.closeReason inputs now s).isSome = true := by simp [hreason]
    rcases SessionPool.closeReason_isSome.mp hsome with hr | hr | hr
    · refine Or.inl (Or.inl ⟨Option.some.inj (hreason.symm.trans hr), ?_, hclosed⟩)
      rw [← hpool.sessionId_eq hs]
      exact (SessionPool.closeReason_eq_failed.mp hr).1
    · refine Or.inl (Or.inr ⟨Option.some.inj (hreason.symm.trans hr), ?_, hclosed⟩)
      exact AList.mem_keys.mp (Table.mem_iff_lookup.mpr ⟨s, hs⟩)
    · refine Or.inr ⟨Option.some.inj (hreason.symm.trans hr), ?_, hclosed⟩
      exact List.mem_reverse.mpr (hpool.listed hs)

/-- No ready session stands twice in the recency list. An insertion under an identifier that
the pool holds already lists it twice, but then the session is not ready. -/
def SessionPool.ReadyOnce (pool : SessionPool) : Prop := (pool.lru.filter pool.isReady).Nodup

/-- No session is reported twice. -/
theorem nodup_sessionCloses (hready : pool.ReadyOnce) (hset : inputs.changedSessions.Nodup) :
    ((sessionCloses inputs now pool).map CloseSession.sessionId).Nodup := by
  -- a session is closed for one reason, and each pass names it once
  have hone {reason reason' : String} {id : String} (h : pool.closedFor inputs now reason id = true)
      (h' : pool.closedFor inputs now reason' id = true) : reason = reason' := by
    obtain ⟨s, hs, hreason⟩ := SessionPool.closedFor_iff.mp h
    obtain ⟨s', hs', hreason'⟩ := SessionPool.closedFor_iff.mp h'
    obtain rfl := Option.some.inj (hs.symm.trans hs')
    exact Option.some.inj (hreason.symm.trans hreason')
  have hdisjoint {reason reason' : String} (hne : reason ≠ reason') (ids ids' : List String) :
      ∀ a ∈ ids.filter (pool.closedFor inputs now reason),
        ∀ b ∈ ids'.filter (pool.closedFor inputs now reason'), a ≠ b := by
    rintro a ha b hb rfl
    exact hne (hone (List.mem_filter.mp ha).2 (List.mem_filter.mp hb).2)
  have hids (reason : String) (ids : List String) :
      ((ids.map fun id => (⟨id, reason⟩ : CloseSession)).map CloseSession.sessionId) = ids := by
    rw [List.map_map]
    exact List.map_id ids
  unfold sessionCloses
  rw [List.map_append, List.map_append, hids, hids, hids]
  have hidle : (pool.lru.reverse.filter (pool.closedFor inputs now "idle_timeout")).Nodup := by
    rw [List.filter_reverse, List.nodup_reverse]
    refine (List.monotone_filter_right _ fun id hclosed => ?_).nodup hready
    obtain ⟨s, hs, hreason⟩ := SessionPool.closedFor_iff.mp hclosed
    have hexpired := (SessionPool.closeReason_eq_idle.mp hreason).2.2
    rw [SessionPool.idleExpired, Bool.and_eq_true] at hexpired
    rw [SessionPool.isReady, hs, Option.any_some, hexpired.1]
  refine List.nodup_append.mpr ⟨?_, hidle, ?_⟩
  · exact List.nodup_append.mpr ⟨hset.filter _, pool.sessions.keys_nodup.filter _,
      hdisjoint (by decide) _ _⟩
  · intro a ha b hb
    rcases List.mem_append.mp ha with ha | ha
    · exact hdisjoint (by decide) _ _ a ha b hb
    · exact hdisjoint (by decide) _ _ a ha b hb

/-- On a board without anything to close or to remove `evolve` does nothing. -/
theorem evolveOnce_eq_self (hpool : board.sessionPool.WellFormed)
    (hsessions : ∀ id s, board.sessionPool.get id = some s →
      board.sessionPool.closeReason inputs now s = none)
    (hpending : ∀ rid p, board.pending.get rid = some p → p.state.terminal = false) :
    evolveOnce inputs now board = ([], board) := by
  have hcloses : sessionCloses inputs now board.sessionPool = [] := by
    rw [List.eq_nil_iff_forall_not_mem]
    intro c hc
    obtain ⟨s, hs, hreason⟩ := (mem_sessionCloses hpool.toWellKeyed).mp hc
    simp [hsessions _ s hs] at hreason
  have hterminal : board.pending.collectTerminal = [] := by
    refine Table.collect_eq_nil_iff.mpr fun rid p hp => hpending rid p hp
  have hpoolSame : board.sessionPool.without (board.sessionPool.closed inputs now) =
      board.sessionPool := by
    refine (SessionPool.without_congr hpool fun id s hs => ?_).trans SessionPool.without_false
    simp [SessionPool.closed, hs, hsessions id s hs]
  have hkeep : (board.pending.store.keep fun _ p => !p.state.terminal) = board.pending.store :=
    Table.keep_eq_self fun rid p hp => by simp [hpending rid p hp]
  unfold evolveOnce
  rw [hcloses, hterminal, hpoolSame, hkeep]
  rfl

/-- `evolve` is exact and works in a single layer: every decision is taken on the board before
it, every closed session is reported once with the first reason that applies, and a second
evaluation finds nothing to do. -/
theorem evolve_single_layer (inputs : EvolveInputs) (now : TimePoint) (board : DataBoard)
    (hpool : board.sessionPool.WellFormed) (hset : inputs.changedSessions.Nodup) :
    let evolved := evolve inputs now board
    evolved = evolveOnce inputs now board ∧
    (∀ id s, evolved.2.sessionPool.get id = some s ↔
      board.sessionPool.get id = some s ∧ ¬board.sessionPool.closes inputs now s) ∧
    evolved.2.sessionPool.lru =
      board.sessionPool.lru.filter (fun id => !board.sessionPool.closed inputs now id) ∧
    (∀ rid p, evolved.2.pending.get rid = some p ↔
      board.pending.get rid = some p ∧ p.state.terminal = false) ∧
    (∃ closes, evolved.1 =
        closes ++ board.pending.collectTerminal.filterMap board.pending.sweptClose ∧
      (closes.map CloseSession.sessionId).Nodup ∧
      ∀ c, c ∈ closes ↔ ∃ s, board.sessionPool.get c.sessionId = some s ∧
        board.sessionPool.closeReason inputs now s = some c.reason) ∧
    evolve inputs now evolved.2 = ([], evolved.2) := by
  intro evolved
  have honce : evolved = evolveOnce inputs now board := evolve_eq_evolveOnce hpool.toWellKeyed hset
  have hleft : evolved.2.sessionPool =
      board.sessionPool.without (board.sessionPool.closed inputs now) := by rw [honce, evolveOnce]
  have hsessions : ∀ id s, evolved.2.sessionPool.get id = some s ↔
      board.sessionPool.get id = some s ∧ ¬board.sessionPool.closes inputs now s :=
    fun id s => evolve_get_session hpool.toWellKeyed
  have hpending : ∀ rid p, evolved.2.pending.get rid = some p ↔
      board.pending.get rid = some p ∧ p.state.terminal = false := fun rid p => evolve_get_pending
  refine ⟨honce, hsessions, ?_, hpending,
    ⟨sessionCloses inputs now board.sessionPool, ?_,
      nodup_sessionCloses (hpool.nodup.filter _) hset,
      fun c => mem_sessionCloses hpool.toWellKeyed⟩, ?_⟩
  · rw [hleft, SessionPool.without]
  · rw [honce, evolveOnce]
  · have hpool' : evolved.2.sessionPool.WellFormed := hleft ▸ hpool.without
    rw [evolve_eq_evolveOnce hpool'.toWellKeyed hset]
    refine evolveOnce_eq_self hpool' (fun id s hs => ?_) fun rid p hp => ((hpending rid p).mp hp).2
    have hreason : evolved.2.sessionPool.closeReason inputs now s =
        board.sessionPool.closeReason inputs now s := by rw [hleft]; rfl
    rw [hreason, ← Option.not_isSome_iff_eq_none, Option.isSome_iff_exists,
      ← SessionPool.closes_iff_closeReason]
    exact ((hsessions id s).mp hs).2

/-- Four sessions: one that has failed, one beyond its lifetime, one idle and one in use. -/
def mixedOps : List PoolOp :=
  [.add { sessionId := "a", state := .errored, createdAt := 3990 },
    .add { sessionId := "b", state := .streaming, createdAt := 0 },
    .add { sessionId := "c", state := .ready, createdAt := 3900, lastActiveAt := 3900 },
    .add { sessionId := "d", state := .ready, createdAt := 3990, lastActiveAt := 3990 }]

/-- A board with these sessions and a request that has been cancelled. -/
def mixedBoard : DataBoard where
  sessionPool := mixedOps.foldl SessionPool.apply (.empty 4 60 3600)
  pending := ({} : PendingRequestStore).add
    { requestId := "r", sessionId := "d", state := .cancelled } 0

/-- Every pass closes its session, and a second evaluation does nothing. -/
theorem evolve_single_layer_mixedBoard :
    (evolve ⟨["a"], ["r"]⟩ 4000 mixedBoard).1 =
        [⟨"a", "evolve_session_closed"⟩, ⟨"b", "lifetime_exceeded"⟩, ⟨"c", "idle_timeout"⟩,
          ⟨"d", "request_failed_or_cancelled"⟩] ∧
      evolve ⟨["a"], ["r"]⟩ 4000 (evolve ⟨["a"], ["r"]⟩ 4000 mixedBoard).2 =
        ([], (evolve ⟨["a"], ["r"]⟩ 4000 mixedBoard).2) := by
  have hpool : mixedBoard.sessionPool.WellFormed :=
    ((SessionPool.Refines.empty 4 60 3600).foldl (by decide)).wellFormed
  exact ⟨by decide,
    (evolve_single_layer ⟨["a"], ["r"]⟩ 4000 mixedBoard hpool (by decide)).2.2.2.2.2⟩

end Whole

end TtsServer
