import TtsServer.DataBoard

/-!
# Single-layer evolution of the board

After a batch has been handled, `evolve` closes sessions in three passes (changed
sessions that have failed, sessions beyond their lifetime, idle sessions) and then
removes failed and cancelled requests. The effect of the whole is stated record by
record: which sessions and requests survive, and that survivors are unchanged.
-/

namespace TtsServer

/-- The identifiers touched by the current batch. -/
structure EvolveInputs where
  changedSessions : List String
  changedRequests : List String

/-- A session that the first pass closes. -/
def SessionRecord.failedOrClosed (s : SessionRecord) : Bool :=
  s.state = .errored || s.state = .closed

/-- One iteration of the first pass of `evolve`. -/
def closeIfFailed (acc : List CloseSession × SessionPool) (sid : String) :
    List CloseSession × SessionPool :=
  match acc.2.get sid with
  | none => acc
  | some s =>
    if s.failedOrClosed then (acc.1 ++ [⟨sid, "evolve_session_closed"⟩], acc.2.markClosed sid)
    else acc

/-- Close every session of a list for one reason, as the second and third pass do. -/
def closeAll (reason : String) (ids : List String) (acc : List CloseSession × SessionPool) :
    List CloseSession × SessionPool :=
  ids.foldl (fun acc sid => (acc.1 ++ [⟨sid, reason⟩], acc.2.markClosed sid)) acc

/-- One iteration of the terminal sweep. -/
def sweepTerminal (acc : List CloseSession × PendingRequestStore) (rid : String) :
    List CloseSession × PendingRequestStore :=
  match acc.2.get rid with
  | none => acc
  | some p => (acc.1 ++ [⟨p.sessionId, "request_failed_or_cancelled"⟩], acc.2.remove rid)

/-- `DataEvolutionEngine::evolve` at a reading of the injected clock. -/
def evolve (inputs : EvolveInputs) (now : TimePoint) (board : DataBoard) :
    List CloseSession × DataBoard :=
  let failed := inputs.changedSessions.foldl closeIfFailed ([], board.sessionPool)
  let aged := closeAll "lifetime_exceeded" (failed.2.collectLifetimeExpired now) failed
  let idle := closeAll "idle_timeout" (aged.2.collectIdleExpired now) aged
  let swept := board.pending.collectTerminal.foldl sweepTerminal (idle.1, board.pending)
  (swept.1, { board with sessionPool := idle.2, pending := swept.2 })

section Passes

variable {acc : List CloseSession × SessionPool} {sid : String} {ids : List String}
  {reason : String} {s : SessionRecord}

/-- Closing a list of sessions removes exactly these. -/
theorem closeAll_get :
    (closeAll reason ids acc).2.get sid = some s ↔ acc.2.get sid = some s ∧ sid ∉ ids := by
  unfold closeAll
  induction ids generalizing acc with
  | nil => simp
  | cons id ids ih =>
    rw [List.foldl_cons, ih]
    by_cases h : sid = id
    · simp [h]
    · simp [h]

/-- Closing sessions leaves the bounds of the pool alone. -/
theorem closeAll_bounds :
    (closeAll reason ids acc).2.maxSize = acc.2.maxSize ∧
      (closeAll reason ids acc).2.idleTimeout = acc.2.idleTimeout ∧
      (closeAll reason ids acc).2.maxLifetime = acc.2.maxLifetime := by
  unfold closeAll
  induction ids generalizing acc with
  | nil => exact ⟨rfl, rfl, rfl⟩
  | cons id ids ih => exact ih

/-- Closing sessions keeps the pool well keyed. -/
theorem closeAll_wellKeyed (h : acc.2.WellKeyed) : (closeAll reason ids acc).2.WellKeyed := by
  unfold closeAll
  induction ids generalizing acc with
  | nil => exact h
  | cons id ids ih => exact ih h.markClosed

/-- One iteration of the first pass removes the named session if it has failed. -/
theorem closeIfFailed_get {id : String} :
    (closeIfFailed acc id).2.get sid = some s ↔
      acc.2.get sid = some s ∧ ¬(sid = id ∧ s.failedOrClosed = true) := by
  unfold closeIfFailed
  split
  · rename_i hnone
    constructor
    · intro h
      refine ⟨h, ?_⟩
      rintro ⟨rfl, _⟩
      rw [hnone] at h
      cases h
    · exact And.left
  · rename_i s' hs'
    split
    · rename_i hfailed
      rw [SessionPool.get_markClosed]
      by_cases h : sid = id
      · subst h
        simp only [if_true, reduceCtorEq, true_and, false_iff, not_and, not_not]
        intro h
        rw [hs'] at h
        obtain rfl := Option.some.inj h
        exact hfailed
      · simp [h]
    · rename_i hfailed
      constructor
      · intro h
        refine ⟨h, ?_⟩
        rintro ⟨rfl, hs⟩
        rw [hs'] at h
        obtain rfl := Option.some.inj h
        exact hfailed hs
      · exact And.left

/-- The first pass closes exactly the listed sessions that have failed. -/
theorem foldl_closeIfFailed_get :
    (ids.foldl closeIfFailed acc).2.get sid = some s ↔
      acc.2.get sid = some s ∧ ¬(sid ∈ ids ∧ s.failedOrClosed = true) := by
  induction ids generalizing acc with
  | nil => simp
  | cons id ids ih =>
    rw [List.foldl_cons, ih, closeIfFailed_get, List.mem_cons]
    tauto

/-- The first pass leaves the bounds of the pool alone. -/
theorem foldl_closeIfFailed_bounds :
    (ids.foldl closeIfFailed acc).2.maxSize = acc.2.maxSize ∧
      (ids.foldl closeIfFailed acc).2.idleTimeout = acc.2.idleTimeout ∧
      (ids.foldl closeIfFailed acc).2.maxLifetime = acc.2.maxLifetime := by
  induction ids generalizing acc with
  | nil => exact ⟨rfl, rfl, rfl⟩
  | cons id ids ih =>
    have hstep : (closeIfFailed acc id).2.maxSize = acc.2.maxSize ∧
        (closeIfFailed acc id).2.idleTimeout = acc.2.idleTimeout ∧
        (closeIfFailed acc id).2.maxLifetime = acc.2.maxLifetime := by
      unfold closeIfFailed
      repeat' split
      all_goals exact ⟨rfl, rfl, rfl⟩
    rw [List.foldl_cons]
    obtain ⟨hsize, hidle, hlife⟩ := @ih (closeIfFailed acc id)
    exact ⟨hsize.trans hstep.1, hidle.trans hstep.2.1, hlife.trans hstep.2.2⟩

/-- The first pass keeps the pool well keyed. -/
theorem foldl_closeIfFailed_wellKeyed (h : acc.2.WellKeyed) :
    (ids.foldl closeIfFailed acc).2.WellKeyed := by
  induction ids generalizing acc with
  | nil => exact h
  | cons id ids ih =>
    apply ih
    unfold closeIfFailed
    split
    · exact h
    · split
      · exact h.markClosed
      · exact h

/-- Closing a list of sessions drops exactly these from the recency list. -/
theorem closeAll_lru :
    (closeAll reason ids acc).2.lru = acc.2.lru.filter fun id => decide (id ∉ ids) := by
  unfold closeAll
  induction ids generalizing acc with
  | nil => simp
  | cons id ids ih =>
    rw [List.foldl_cons, ih]
    simp only [SessionPool.markClosed, List.filter_filter]
    refine List.filter_congr fun id' _ => ?_
    by_cases h : id' = id
    · simp [h]
    · simp [h]

/-- The first pass drops the sessions it closes from the recency list. -/
theorem foldl_closeIfFailed_lru :
    (ids.foldl closeIfFailed acc).2.lru = acc.2.lru.filter fun id =>
      !(decide (id ∈ ids) && (acc.2.get id).any SessionRecord.failedOrClosed) := by
  induction ids generalizing acc with
  | nil => simp
  | cons id ids ih =>
    rw [List.foldl_cons, ih]
    unfold closeIfFailed
    cases hid : acc.2.get id with
    | none =>
      refine List.filter_congr fun id' _ => ?_
      by_cases h : id' = id
      · simp [h, hid]
      · simp [h]
    | some s =>
      by_cases hfailed : s.failedOrClosed = true
      · have hlru : (acc.2.markClosed id).lru = acc.2.lru.filter fun x => x ≠ id := rfl
        simp only [hfailed, if_true, SessionPool.get_markClosed, hlru, List.filter_filter]
        refine List.filter_congr fun id' _ => ?_
        by_cases h : id' = id
        · simp [h, hid, hfailed]
        · simp [h]
      · simp only [hfailed]
        refine List.filter_congr fun id' _ => ?_
        by_cases h : id' = id
        · simp [h, hid, hfailed]
        · simp [h]

/-- The sweep removes exactly the listed requests. -/
theorem foldl_sweepTerminal_get {acc : List CloseSession × PendingRequestStore} {rid : String}
    {p : PendingRequest} :
    (ids.foldl sweepTerminal acc).2.get rid = some p ↔ acc.2.get rid = some p ∧ rid ∉ ids := by
  induction ids generalizing acc with
  | nil => simp
  | cons id ids ih =>
    have hstep : (sweepTerminal acc id).2.get rid = some p ↔
        acc.2.get rid = some p ∧ rid ≠ id := by
      unfold sweepTerminal
      split
      · rename_i hnone
        refine ⟨fun h => ⟨h, ?_⟩, And.left⟩
        rintro rfl
        rw [hnone] at h
        cases h
      · simp [and_comm]
    rw [List.foldl_cons, ih, hstep, List.mem_cons, not_or, and_assoc]

/-- Closing a list of sessions reports each of them. -/
theorem closeAll_fst :
    (closeAll reason ids acc).1 = acc.1 ++ ids.map fun sid => ⟨sid, reason⟩ := by
  unfold closeAll
  induction ids generalizing acc with
  | nil => simp
  | cons id ids ih =>
    rw [List.foldl_cons, ih]
    simp

/-- The first pass reports exactly the sessions it closes. -/
theorem mem_foldl_closeIfFailed {c : CloseSession} :
    c ∈ (ids.foldl closeIfFailed acc).1 ↔ c ∈ acc.1 ∨
      (c.reason = "evolve_session_closed" ∧ c.sessionId ∈ ids ∧
        ∃ s, acc.2.get c.sessionId = some s ∧ s.failedOrClosed = true) := by
  induction ids generalizing acc with
  | nil => simp
  | cons id ids ih =>
    have hget : ∀ s, (closeIfFailed acc id).2.get c.sessionId = some s ↔ _ :=
      fun s => closeIfFailed_get
    have hstep : c ∈ (closeIfFailed acc id).1 ↔ c ∈ acc.1 ∨
        (c = ⟨id, "evolve_session_closed"⟩ ∧
          ∃ s, acc.2.get id = some s ∧ s.failedOrClosed = true) := by
      unfold closeIfFailed
      cases hid : acc.2.get id with
      | none => simp
      | some s => by_cases hfailed : s.failedOrClosed = true <;> simp [hfailed]
    rw [List.foldl_cons, ih, hstep]
    simp only [hget, List.mem_cons]
    obtain ⟨sid, reason⟩ := c
    simp only [CloseSession.mk.injEq]
    by_cases heq : sid = id
    · subst heq
      simp only [true_and, true_or]
      constructor
      · rintro ((h | h) | ⟨-, -, s, ⟨-, hnot⟩, hfailed⟩)
        · exact Or.inl h
        · exact Or.inr h
        · exact absurd hfailed hnot
      · rintro (h | h)
        · exact Or.inl (Or.inl h)
        · exact Or.inl (Or.inr h)
    · simp [heq]

/-- The sweep reports the sessions of the requests it removes. -/
theorem mem_foldl_sweepTerminal {acc : List CloseSession × PendingRequestStore}
    {c : CloseSession} :
    c ∈ (ids.foldl sweepTerminal acc).1 ↔ c ∈ acc.1 ∨
      ∃ rid ∈ ids, ∃ p, acc.2.get rid = some p ∧
        c = ⟨p.sessionId, "request_failed_or_cancelled"⟩ := by
  induction ids generalizing acc with
  | nil => simp
  | cons id ids ih =>
    rw [List.foldl_cons, ih]
    unfold sweepTerminal
    cases hid : acc.2.get id with
    | none => simp [hid]
    | some p =>
      simp only [PendingRequestStore.get_remove, List.mem_append, List.mem_singleton,
        List.exists_mem_cons_iff, hid, Option.some.injEq, exists_eq_left']
      rw [or_assoc]
      refine or_congr_right ⟨?_, ?_⟩
      · rintro (h | ⟨rid, hrid, p', hp', h⟩)
        · exact Or.inl h
        · split at hp'
          · cases hp'
          · exact Or.inr ⟨rid, hrid, p', hp', h⟩
      · rintro (h | ⟨rid, hrid, p', hp', h⟩)
        · exact Or.inl h
        · by_cases heq : rid = id
          · -- a repeated identifier reports the session it reported first
            rw [heq, hid] at hp'
            obtain rfl := Option.some.inj hp'
            exact Or.inl h
          · exact Or.inr ⟨rid, hrid, p', by rw [if_neg heq, hp'], h⟩

end Passes

variable {inputs : EvolveInputs} {now : TimePoint} {board : DataBoard}

/-- The sessions that `evolve` closes, on the pool before it. -/
def SessionPool.closes (pool : SessionPool) (inputs : EvolveInputs) (now : TimePoint)
    (s : SessionRecord) : Prop :=
  (s.sessionId ∈ inputs.changedSessions ∧ s.failedOrClosed = true) ∨
    pool.lifetimeExpired now s = true ∨ pool.idleExpired now s = true

/-- The reason for which `evolve` closes a session: the first pass that finds it. -/
def SessionPool.closeReason (pool : SessionPool) (inputs : EvolveInputs) (now : TimePoint)
    (s : SessionRecord) : Option String :=
  if s.sessionId ∈ inputs.changedSessions ∧ s.failedOrClosed = true then
    some "evolve_session_closed"
  else if pool.lifetimeExpired now s then some "lifetime_exceeded"
  else if pool.idleExpired now s then some "idle_timeout"
  else none

/-- A session is closed exactly when there is a reason for it. -/
theorem SessionPool.closes_iff_closeReason {pool : SessionPool} {s : SessionRecord} :
    pool.closes inputs now s ↔ ∃ reason, pool.closeReason inputs now s = some reason := by
  unfold SessionPool.closes SessionPool.closeReason
  split_ifs <;> simp_all

section Stages

/-- The pool and the reports after the first pass. -/
private def failedPass (inputs : EvolveInputs) (board : DataBoard) :
    List CloseSession × SessionPool :=
  inputs.changedSessions.foldl closeIfFailed ([], board.sessionPool)

/-- The pool and the reports after the second pass. -/
private def agedPass (inputs : EvolveInputs) (now : TimePoint) (board : DataBoard) :
    List CloseSession × SessionPool :=
  closeAll "lifetime_exceeded" ((failedPass inputs board).2.collectLifetimeExpired now)
    (failedPass inputs board)

variable {sid : String} {s : SessionRecord}

/-- The sessions left by the first pass. -/
private theorem failedPass_get (hpool : board.sessionPool.WellKeyed) :
    (failedPass inputs board).2.get sid = some s ↔ board.sessionPool.get sid = some s ∧
      ¬(s.sessionId ∈ inputs.changedSessions ∧ s.failedOrClosed = true) := by
  refine Iff.trans foldl_closeIfFailed_get (and_congr_right fun hs => ?_)
  rw [hpool.sessionId_eq hs]

/-- The second pass finds the sessions left by the first that are beyond their lifetime. -/
private theorem mem_failedPass_collect :
    sid ∈ (failedPass inputs board).2.collectLifetimeExpired now ↔
      ∃ s, (failedPass inputs board).2.get sid = some s ∧
        board.sessionPool.lifetimeExpired now s = true := by
  have hlife : (failedPass inputs board).2.maxLifetime = board.sessionPool.maxLifetime :=
    foldl_closeIfFailed_bounds.2.2
  unfold SessionPool.collectLifetimeExpired SessionPool.lifetimeExpired
  rw [Lib.Table.mem_collect, hlife]
  rfl

/-- The sessions left by the second pass. -/
private theorem agedPass_get (hpool : board.sessionPool.WellKeyed) :
    (agedPass inputs now board).2.get sid = some s ↔ board.sessionPool.get sid = some s ∧
      ¬(s.sessionId ∈ inputs.changedSessions ∧ s.failedOrClosed = true) ∧
      ¬board.sessionPool.lifetimeExpired now s = true := by
  rw [agedPass, closeAll_get, ← and_assoc, ← failedPass_get hpool]
  refine and_congr_right fun hs => not_congr (mem_failedPass_collect.trans ?_)
  refine ⟨fun ⟨s', hs', hexpired⟩ => ?_, fun hexpired => ⟨s, hs, hexpired⟩⟩
  obtain rfl := Option.some.inj (hs.symm.trans hs')
  exact hexpired

/-- The third pass finds the sessions left by the second that have been idle. -/
private theorem mem_agedPass_collect (hpool : board.sessionPool.WellKeyed) :
    sid ∈ (agedPass inputs now board).2.collectIdleExpired now ↔
      ∃ s, (agedPass inputs now board).2.get sid = some s ∧
        board.sessionPool.idleExpired now s = true := by
  have hkeyed : (agedPass inputs now board).2.WellKeyed :=
    closeAll_wellKeyed (foldl_closeIfFailed_wellKeyed hpool)
  have hidle : (agedPass inputs now board).2.idleTimeout = board.sessionPool.idleTimeout :=
    closeAll_bounds.2.1.trans foldl_closeIfFailed_bounds.2.1
  have hexpired : (agedPass inputs now board).2.idleExpired now =
      board.sessionPool.idleExpired now := by
    funext s
    rw [SessionPool.idleExpired, SessionPool.idleExpired, hidle]
  rw [SessionPool.collectIdleExpired, List.mem_filter, List.mem_reverse, hexpired]
  cases hs : (agedPass inputs now board).2.get sid with
  | none => simp
  | some s => simp [hkeyed.listed hs]

/-- `evolve` closes exactly the sessions that have failed or expired; the records of
the others are unchanged. -/
theorem evolve_get_session (hpool : board.sessionPool.WellKeyed) :
    (evolve inputs now board).2.sessionPool.get sid = some s ↔
      board.sessionPool.get sid = some s ∧ ¬board.sessionPool.closes inputs now s := by
  have hevolve : (evolve inputs now board).2.sessionPool =
      (closeAll "idle_timeout" ((agedPass inputs now board).2.collectIdleExpired now)
        (agedPass inputs now board)).2 := rfl
  have hidle : sid ∈ (agedPass inputs now board).2.collectIdleExpired now ↔ _ :=
    mem_agedPass_collect hpool
  rw [hevolve, closeAll_get, hidle]
  simp only [agedPass_get hpool, SessionPool.closes]
  constructor
  · rintro ⟨⟨hs, hfailed, hlife⟩, hidle⟩
    refine ⟨hs, ?_⟩
    rintro (h | h | h)
    · exact hfailed h
    · exact hlife h
    · exact hidle ⟨s, ⟨hs, hfailed, hlife⟩, h⟩
  · rintro ⟨hs, hcloses⟩
    refine ⟨⟨hs, fun h => hcloses (Or.inl h), fun h => hcloses (Or.inr (Or.inl h))⟩, ?_⟩
    rintro ⟨s', ⟨hs', -⟩, h⟩
    obtain rfl := Option.some.inj (hs.symm.trans hs')
    exact hcloses (Or.inr (Or.inr h))

/-- `evolve` drops exactly the sessions it closes from the recency list. -/
theorem evolve_lru (hpool : board.sessionPool.WellKeyed) :
    (evolve inputs now board).2.sessionPool.lru = board.sessionPool.lru.filter fun id =>
      (board.sessionPool.get id).all fun s =>
        (board.sessionPool.closeReason inputs now s).isNone := by
  have hevolve : (evolve inputs now board).2.sessionPool.lru =
      (closeAll "idle_timeout" ((agedPass inputs now board).2.collectIdleExpired now)
        (agedPass inputs now board)).2.lru := rfl
  have hfailed : (failedPass inputs board).2.lru = board.sessionPool.lru.filter fun id =>
      !(decide (id ∈ inputs.changedSessions) &&
        (board.sessionPool.get id).any SessionRecord.failedOrClosed) := foldl_closeIfFailed_lru
  have haged : (agedPass inputs now board).2.lru = (failedPass inputs board).2.lru.filter
      fun id => decide (id ∉ (failedPass inputs board).2.collectLifetimeExpired now) := closeAll_lru
  rw [hevolve, closeAll_lru, haged, hfailed, List.filter_filter, List.filter_filter]
  refine List.filter_congr fun id _ => ?_
  have hlife : id ∈ (failedPass inputs board).2.collectLifetimeExpired now ↔ _ :=
    mem_failedPass_collect
  have hidle : id ∈ (agedPass inputs now board).2.collectIdleExpired now ↔ _ :=
    mem_agedPass_collect hpool
  rw [Bool.eq_iff_iff]
  simp only [Bool.and_eq_true, decide_eq_true_eq, hlife, hidle, agedPass_get hpool,
    failedPass_get hpool]
  cases hs : board.sessionPool.get id with
  | none => simp
  | some s =>
    obtain rfl := hpool.sessionId_eq hs
    unfold SessionPool.closeReason
    by_cases hf : s.sessionId ∈ inputs.changedSessions ∧ s.failedOrClosed = true
    · simp [hf]
    · have hkept : (!(decide (s.sessionId ∈ inputs.changedSessions) &&
          s.failedOrClosed)) = true := by
        by_contra hnot
        exact hf (by simpa using hnot)
      simp only [Option.some.injEq, Option.any_some, Option.all_some, hkept, and_true, if_neg hf]
      by_cases hold : board.sessionPool.lifetimeExpired now s = true
      · simp [hold, hf]
      · by_cases hunused : board.sessionPool.idleExpired now s = true
        · simp [hold, hunused, hf]
        · simp [hold, hunused]

/-- `evolve` reports every session it closes, with the reason, and the session of every
request it removes. -/
theorem mem_evolve_closes (hpool : board.sessionPool.WellKeyed) {c : CloseSession} :
    c ∈ (evolve inputs now board).1 ↔
      (∃ s, board.sessionPool.get c.sessionId = some s ∧
        board.sessionPool.closeReason inputs now s = some c.reason) ∨
      (c.reason = "request_failed_or_cancelled" ∧ ∃ rid p, board.pending.get rid = some p ∧
        p.state.terminal = true ∧ p.sessionId = c.sessionId) := by
  have hevolve : (evolve inputs now board).1 =
      (board.pending.collectTerminal.foldl sweepTerminal ((closeAll "idle_timeout"
        ((agedPass inputs now board).2.collectIdleExpired now) (agedPass inputs now board)).1,
        board.pending)).1 := rfl
  have hfailed : c ∈ (failedPass inputs board).1 ↔ c.reason = "evolve_session_closed" ∧
      ∃ s, board.sessionPool.get c.sessionId = some s ∧
        (s.sessionId ∈ inputs.changedSessions ∧ s.failedOrClosed = true) := by
    rw [failedPass, mem_foldl_closeIfFailed]
    simp only [List.not_mem_nil, false_or]
    refine and_congr_right fun _ => ⟨?_, ?_⟩
    · rintro ⟨hmem, s, hs, hfailed⟩
      exact ⟨s, hs, by rwa [hpool.sessionId_eq hs], hfailed⟩
    · rintro ⟨s, hs, hmem, hfailed⟩
      exact ⟨by rwa [hpool.sessionId_eq hs] at hmem, s, hs, hfailed⟩
  have hreport : ∀ (reason : String) (ids : List String),
      c ∈ ids.map (fun sid => (⟨sid, reason⟩ : CloseSession)) ↔
        c.reason = reason ∧ c.sessionId ∈ ids := by
    intro reason ids
    obtain ⟨sid, why⟩ := c
    simp [and_comm, eq_comm]
  have haged : (agedPass inputs now board).1 = (failedPass inputs board).1 ++
      ((failedPass inputs board).2.collectLifetimeExpired now).map
        fun sid => ⟨sid, "lifetime_exceeded"⟩ := closeAll_fst
  rw [hevolve, mem_foldl_sweepTerminal, closeAll_fst, haged]
  simp only [List.mem_append, hreport, hfailed, mem_failedPass_collect,
    mem_agedPass_collect hpool, failedPass_get hpool, agedPass_get hpool]
  refine or_congr ?_ ?_
  · unfold SessionPool.closeReason
    constructor
    · rintro ((⟨hreason, s, hs, hf⟩ | ⟨hreason, s, ⟨hs, hf⟩, hlife⟩) |
        ⟨hreason, s, ⟨hs, hf, hlife⟩, hidle⟩)
      · exact ⟨s, hs, by rw [if_pos hf, hreason]⟩
      · exact ⟨s, hs, by rw [if_neg hf, if_pos hlife, hreason]⟩
      · exact ⟨s, hs, by rw [if_neg hf, if_neg hlife, if_pos hidle, hreason]⟩
    · rintro ⟨s, hs, hreason⟩
      split at hreason
      · exact Or.inl (Or.inl ⟨(Option.some.inj hreason).symm, s, hs, ‹_›⟩)
      · split at hreason
        · exact Or.inl (Or.inr ⟨(Option.some.inj hreason).symm, s, ⟨hs, ‹_›⟩, ‹_›⟩)
        · split at hreason
          · exact Or.inr ⟨(Option.some.inj hreason).symm, s, ⟨hs, ‹_›, ‹_›⟩, ‹_›⟩
          · cases hreason
  · obtain ⟨sid, reason⟩ := c
    simp only [PendingRequestStore.mem_collectTerminal, CloseSession.mk.injEq]
    constructor
    · rintro ⟨rid, ⟨p, hp, hterminal⟩, p', hp', rfl, rfl⟩
      obtain rfl := Option.some.inj (hp.symm.trans hp')
      exact ⟨rfl, rid, p, hp, hterminal, rfl⟩
    · rintro ⟨rfl, rid, p, hp, hterminal, rfl⟩
      exact ⟨rid, ⟨p, hp, hterminal⟩, p, hp, rfl, rfl⟩

end Stages

/-- `evolve` keeps the pool well keyed. -/
theorem evolve_wellKeyed (hpool : board.sessionPool.WellKeyed) :
    (evolve inputs now board).2.sessionPool.WellKeyed :=
  closeAll_wellKeyed (closeAll_wellKeyed (foldl_closeIfFailed_wellKeyed hpool))

/-- `evolve` leaves the bounds of the pool alone. -/
theorem evolve_maxSize :
    (evolve inputs now board).2.sessionPool.maxSize = board.sessionPool.maxSize :=
  (closeAll_bounds.1.trans closeAll_bounds.1).trans foldl_closeIfFailed_bounds.1

/-- `evolve` leaves the idle timeout alone. -/
theorem evolve_idleTimeout :
    (evolve inputs now board).2.sessionPool.idleTimeout = board.sessionPool.idleTimeout :=
  (closeAll_bounds.2.1.trans closeAll_bounds.2.1).trans foldl_closeIfFailed_bounds.2.1

/-- `evolve` leaves the maximal lifetime alone. -/
theorem evolve_maxLifetime :
    (evolve inputs now board).2.sessionPool.maxLifetime = board.sessionPool.maxLifetime :=
  (closeAll_bounds.2.2.trans closeAll_bounds.2.2).trans foldl_closeIfFailed_bounds.2.2

/-- `evolve` removes exactly the failed and the cancelled requests; the records of
the others are unchanged. -/
theorem evolve_get_pending {rid : String} {p : PendingRequest} :
    (evolve inputs now board).2.pending.get rid = some p ↔
      board.pending.get rid = some p ∧ p.state.terminal = false := by
  refine Iff.trans foldl_sweepTerminal_get (and_congr_right fun hget => ?_)
  rw [PendingRequestStore.mem_collectTerminal, ← Bool.not_eq_true, not_iff_not]
  refine ⟨fun ⟨p', hp', hterminal⟩ => ?_, fun hterminal => ⟨p, hget, hterminal⟩⟩
  obtain rfl := Option.some.inj (hget.symm.trans hp')
  exact hterminal

/-- `evolve` does not touch the metrics. -/
@[simp] theorem evolve_metrics : (evolve inputs now board).2.metrics = board.metrics := rfl

end TtsServer
