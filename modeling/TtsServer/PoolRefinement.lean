import Mathlib.Data.Set.Card
import TtsServer.Lib.Recency
import TtsServer.Lib.Runs
import TtsServer.SessionPool

/-!
# The session pool as a timestamped pool

What the pool is for is said without a recency list: a partial map from identifiers to
records, and for every session the moment of its last promotion. The pool refines this
description under every sequence of its operations, provided that a session is inserted
only under an identifier which the pool does not hold. The queries that walk the recency
list then answer questions about the moments of promotion.
-/

namespace TtsServer

open Lib

/-- The operations that change the pool, with the clock readings they use. The heartbeat also
assigns requests through the pointer that `get` returns. -/
inductive PoolOp where
  | add (s : SessionRecord)
  | touchActive (id : String) (now : TimePoint)
  | markActive (id : String) (steadyNow : TimePoint)
  | markReady (id : String) (steadyNow : TimePoint)
  | markDraining (id : String)
  | markIdle (id : String) (steadyNow : TimePoint)
  | markErrored (id reason : String)
  | markClosed (id : String)
  | setCurrentRequest (id rid : String)

/-- One operation of the pool. -/
def SessionPool.apply (pool : SessionPool) : PoolOp → SessionPool
  | .add s => (pool.add s).2
  | .touchActive id now => pool.touchActive id now
  | .markActive id steadyNow => pool.markActive id steadyNow
  | .markReady id steadyNow => pool.markReady id steadyNow
  | .markDraining id => pool.markDraining id
  | .markIdle id steadyNow => pool.markIdle id steadyNow
  | .markErrored id reason => pool.markErrored id reason
  | .markClosed id => pool.markClosed id
  | .setCurrentRequest id rid => pool.setCurrentRequest id rid

/-! ### The abstract pool -/

/-- A pool of sessions with the moment at which each was promoted last. -/
structure TimestampedPool where
  maxSize : ℕ
  session : String → Option SessionRecord := fun _ => none
  promotedAt : String → ℕ := fun _ => 0
  /-- The number of operations so far, which serves as the clock. -/
  clock : ℕ := 0

namespace TimestampedPool

variable (spec : TimestampedPool)

/-- The number of sessions. -/
noncomputable def size : ℕ := {id | (spec.session id).isSome = true}.ncard

/-- The next moment. -/
def tick : TimestampedPool := { spec with clock := spec.clock + 1 }

/-- Change the record of a session, if there is one. -/
def amend (id : String) (f : SessionRecord → SessionRecord) : TimestampedPool :=
  { spec with session := Function.update spec.session id ((spec.session id).map f) }

/-- Promote a session at the present moment. -/
def promote (id : String) : TimestampedPool :=
  { spec with promotedAt := Function.update spec.promotedAt id spec.clock }

/-- Hold a record, or none, for an identifier. -/
def hold (id : String) (s : Option SessionRecord) : TimestampedPool :=
  { spec with session := Function.update spec.session id s }

open Classical in
/-- One operation: which record it changes and how, and whether it promotes the session. -/
noncomputable def apply : PoolOp → TimestampedPool
  | .add s =>
    if spec.size < spec.maxSize then ((spec.hold s.sessionId (some s)).promote s.sessionId).tick
    else spec.tick
  | .touchActive id now => ((spec.amend id fun s => { s with lastActiveAt := now }).promote id).tick
  | .markActive id steadyNow =>
    ((spec.amend id fun s =>
      { s with state := .streaming, lastActiveAt := steadyNow }).promote id).tick
  | .markReady id steadyNow =>
    ((spec.amend id fun s => { s with state := .ready, lastActiveAt := steadyNow }).promote id).tick
  | .markDraining id => (spec.amend id fun s => { s with state := .draining }).tick
  | .markIdle id steadyNow =>
    ((spec.amend id fun s => { s with
      state := .ready, currentRequestId := "", lastActiveAt := steadyNow }).promote id).tick
  | .markErrored id reason =>
    (spec.amend id fun s => { s with state := .errored, lastError := reason }).tick
  | .markClosed id => (spec.hold id none).tick
  | .setCurrentRequest id rid => (spec.amend id fun s => { s with currentRequestId := rid }).tick

/-- A session that is ready. -/
def Ready (id : String) (s : SessionRecord) : Prop := spec.session id = some s ∧ s.state = .ready

/-- A ready session that was promoted before every other ready session. -/
def OldestReady (s : SessionRecord) : Prop :=
  spec.Ready s.sessionId s ∧
    ∀ id s', spec.Ready id s' → spec.promotedAt s.sessionId ≤ spec.promotedAt id

end TimestampedPool

/-! ### Refinement -/

/-- The pool represents an abstract pool: the same records, and a recency list that names
the sessions by the moment of their last promotion. -/
structure SessionPool.Refines (pool : SessionPool) (spec : TimestampedPool) : Prop where
  maxSize : pool.maxSize = spec.maxSize
  session : ∀ id, pool.get id = spec.session id
  keyed : ∀ {id s}, pool.get id = some s → s.sessionId = id
  listed : ∀ id, id ∈ pool.lru ↔ (pool.get id).isSome = true
  recency : ByRecency spec.promotedAt pool.lru
  past : ∀ id ∈ pool.lru, spec.promotedAt id < spec.clock
  capacity : pool.size ≤ pool.maxSize

namespace SessionPool

variable {pool : SessionPool} {spec : TimestampedPool} {id : String} {s : SessionRecord}
  {f : SessionRecord → SessionRecord}

/-- The recency list of a pool that represents an abstract one satisfies the representation
invariant. -/
theorem Refines.wellFormed (h : pool.Refines spec) : pool.WellFormed where
  sessionId_eq := h.keyed
  listed := by
    intro id s hs
    exact (h.listed id).mpr (by simp [hs])
  nodup := h.recency.nodup
  backed := by
    intro id hid
    exact Option.isSome_iff_exists.mp ((h.listed id).mp hid)

/-- The keys of the map are the identifiers with a record. -/
theorem mem_keys_iff : id ∈ pool.sessions.keys ↔ (pool.get id).isSome = true := by
  rw [← AList.mem_keys, Table.mem_iff_lookup, Option.isSome_iff_exists]
  rfl

/-- The pool counts the sessions of the abstract pool. -/
theorem Refines.size_eq (h : pool.Refines spec) : pool.size = spec.size := by
  have hset : {id | (spec.session id).isSome = true} =
      (pool.sessions.keys.toFinset : Set String) := by
    ext id
    simp only [Set.mem_ofPred_eq, List.coe_toFinset, mem_keys_iff, h.session]
  rw [TimestampedPool.size, hset, Set.ncard_coe_finset,
    List.toFinset_card_of_nodup pool.sessions.keys_nodup, size]

/-- Time passes. -/
theorem Refines.tick (h : pool.Refines spec) : pool.Refines spec.tick where
  maxSize := h.maxSize
  session := h.session
  keyed := h.keyed
  listed := h.listed
  recency := h.recency
  past := fun id hid => Nat.lt_succ_of_lt (h.past id hid)
  capacity := h.capacity

/-- Changing a record in place. -/
theorem Refines.mark (h : pool.Refines spec) (hf : ∀ s, (f s).sessionId = s.sessionId) :
    (pool.mark id f).Refines (spec.amend id f) where
  maxSize := h.maxSize
  session := by
    intro id'
    rw [get_mark]
    simp only [TimestampedPool.amend, Function.update_apply, ← h.session]
    by_cases heq : id' = id
    · simp [heq]
    · simp [heq]
  keyed := by
    intro id' s hs
    rw [get_mark] at hs
    split at hs
    · obtain ⟨s', hs', rfl⟩ := Option.map_eq_some_iff.mp hs
      rw [hf]
      exact h.keyed hs'
    · exact h.keyed hs
  listed := by
    intro id'
    refine (h.listed id').trans ?_
    rw [get_mark]
    split <;> simp
  recency := h.recency
  past := h.past
  capacity := by
    have hkeys : (pool.mark id f).size = pool.size := congrArg List.length Table.keys_modify
    exact hkeys.trans_le h.capacity

/-- A new stamp for one identifier does not matter to a list without it. -/
private theorem promotedAt_promote {l : List String} (hid : id ∉ l) :
    ∀ id' ∈ l, (spec.promote id).promotedAt id' = spec.promotedAt id' := by
  intro id' hid'
  refine Function.update_of_ne ?_ spec.clock spec.promotedAt
  rintro rfl
  exact hid hid'

/-- Promoting a session. -/
theorem Refines.moveToFrontLocked (h : pool.Refines spec) (hid : (pool.get id).isSome = true) :
    (pool.moveToFrontLocked id).Refines (spec.promote id).tick := by
  have hothers : id ∉ pool.lru.filter fun x => x ≠ id := by simp
  have hpast : ∀ id' ∈ pool.lru.filter (fun x => x ≠ id), spec.promotedAt id' < spec.clock :=
    fun id' hid' => h.past id' (List.mem_of_mem_filter hid')
  exact
    { maxSize := h.maxSize
      session := h.session
      keyed := h.keyed
      listed := by
        intro id'
        refine Iff.trans ?_ (h.listed id')
        by_cases heq : id' = id
        · subst heq
          simp [SessionPool.moveToFrontLocked, (h.listed id').mpr hid]
        · simp [SessionPool.moveToFrontLocked, heq]
      recency := ByRecency.cons_update h.recency.filter hothers hpast
      past := by
        intro id' hid'
        rcases List.mem_cons.mp hid' with rfl | hid'
        · simp [TimestampedPool.tick, TimestampedPool.promote]
        · have hsame : (spec.promote id).tick.promotedAt id' = spec.promotedAt id' :=
            promotedAt_promote hothers id' hid'
          rw [hsame]
          exact Nat.lt_succ_of_lt (hpast id' hid')
      capacity := h.capacity }

/-- Changing a record and promoting its session. -/
theorem Refines.markAndPromote (h : pool.Refines spec) (hf : ∀ s, (f s).sessionId = s.sessionId) :
    (pool.markAndPromote id f).Refines ((spec.amend id f).promote id).tick := by
  unfold SessionPool.markAndPromote
  have hmark : (pool.mark id f).Refines (spec.amend id f) := h.mark hf
  cases hget : pool.get id with
  | none =>
    -- an unknown session is promoted in the description only, where nothing reads the moment
    have hid : id ∉ pool.lru := by
      rw [h.listed id, hget]
      simp
    have hstamp : ∀ id' ∈ pool.lru,
        ((spec.amend id f).promote id).tick.promotedAt id' = spec.promotedAt id' :=
      promotedAt_promote hid
    exact
      { maxSize := h.maxSize
        session := by
          intro id'
          refine Eq.trans ?_ (hmark.session id')
          rw [get_mark]
          by_cases heq : id' = id
          · simp [heq, hget]
          · simp [heq]
        keyed := h.keyed
        listed := h.listed
        recency := h.recency.congr hstamp
        past := by
          intro id' hid'
          rw [hstamp id' hid']
          exact Nat.lt_succ_of_lt (h.past id' hid')
        capacity := h.capacity }
  | some s => exact hmark.moveToFrontLocked (by simp [hget])

/-- Closing a session. -/
theorem Refines.markClosed (h : pool.Refines spec) :
    (pool.markClosed id).Refines (spec.hold id none) where
  maxSize := h.maxSize
  session := by
    intro id'
    simp [TimestampedPool.hold, Function.update_apply, h.session]
  keyed := by
    intro id' s hs
    rw [get_markClosed] at hs
    split at hs
    · cases hs
    · exact h.keyed hs
  listed := by
    intro id'
    rw [get_markClosed]
    by_cases heq : id' = id
    · simp [heq, SessionPool.markClosed]
    · simp [heq, SessionPool.markClosed, h.listed]
  recency := h.recency.filter
  past := fun id' hid' => h.past id' (List.mem_of_mem_filter hid')
  capacity := by
    have hkeys : (pool.markClosed id).size = (pool.sessions.keys.erase id).length :=
      congrArg List.length (AList.keys_erase id pool.sessions)
    exact hkeys.trans_le (List.length_erase_le.trans h.capacity)

/-- Inserting a session under an identifier that the pool does not hold. -/
theorem Refines.add (h : pool.Refines spec) (hnew : pool.get s.sessionId = none) :
    (pool.add s).2.Refines (spec.apply (.add s)) := by
  unfold TimestampedPool.apply
  simp only [← h.size_eq, ← h.maxSize]
  cases hadd : (pool.add s).1 with
  | false =>
    have hfull : ¬pool.size < pool.maxSize := by
      unfold SessionPool.add at hadd
      split at hadd
      · omega
      · cases hadd
    rw [add_refused hadd, if_neg hfull]
    exact h.tick
  | true =>
    have hroom : pool.size < pool.maxSize := by
      unfold SessionPool.add at hadd
      split at hadd
      · cases hadd
      · omega
    have hid : s.sessionId ∉ pool.lru := by
      rw [h.listed, hnew]
      simp
    have hadded : (pool.add s).2 = { pool with
        lru := s.sessionId :: pool.lru, sessions := pool.sessions.insert s.sessionId s } := by
      simp [SessionPool.add, Nat.not_le.mpr hroom]
    have hget (id : String) := @get_add pool id s hadd
    rw [if_pos hroom]
    exact
      { maxSize := by
          rw [hadded]
          exact h.maxSize
        session := by
          intro id
          rw [hget, h.session]
          simp [TimestampedPool.tick, TimestampedPool.promote, TimestampedPool.hold,
            Function.update_apply]
        keyed := by
          intro id s' hs'
          rw [hget] at hs'
          split at hs'
          · obtain rfl := Option.some.inj hs'
            exact Eq.symm ‹_›
          · exact h.keyed hs'
        listed := by
          intro id
          rw [hget, hadded]
          by_cases heq : id = s.sessionId
          · simp [heq]
          · simp [heq, h.listed]
        recency := by
          rw [hadded]
          exact h.recency.cons_update hid h.past
        past := by
          intro id hmem
          rw [hadded] at hmem
          rcases List.mem_cons.mp hmem with rfl | hmem
          · simp [TimestampedPool.tick, TimestampedPool.promote, TimestampedPool.hold]
          · have hsame : ((spec.hold s.sessionId (some s)).promote s.sessionId).tick.promotedAt id =
                spec.promotedAt id := promotedAt_promote hid id hmem
            rw [hsame]
            exact Nat.lt_succ_of_lt (h.past id hmem)
        capacity := by
          have hkeys : s.sessionId ∉ pool.sessions.keys := by
            rw [mem_keys_iff, hnew]
            simp
          have hsize : (pool.add s).2.size = pool.size + 1 := by
            rw [hadded, size, AList.keys_insert, List.erase_of_not_mem hkeys, List.length_cons,
              size]
          rw [hsize, hadded]
          exact hroom }

/-- A session is inserted only under an identifier that the pool does not hold. -/
def NewIfAdded (pool : SessionPool) : PoolOp → Prop
  | .add s => pool.get s.sessionId = none
  | _ => True

/-- Whether an operation inserts a session under a held identifier can be decided. -/
instance : ∀ (pool : SessionPool) (op : PoolOp), Decidable (pool.NewIfAdded op)
  | pool, .add s => inferInstanceAs (Decidable (pool.get s.sessionId = none))
  | _, .touchActive _ _ | _, .markActive _ _ | _, .markReady _ _ | _, .markDraining _
  | _, .markIdle _ _ | _, .markErrored _ _ | _, .markClosed _ | _, .setCurrentRequest _ _ =>
    .isTrue trivial

/-- Every operation of the pool does what its description says. -/
theorem Refines.apply {op : PoolOp} (h : pool.Refines spec) (hnew : pool.NewIfAdded op) :
    (pool.apply op).Refines (spec.apply op) := by
  cases op with
  | add s => exact h.add hnew
  | touchActive id now => exact h.markAndPromote fun _ => rfl
  | markActive id steadyNow => exact h.markAndPromote fun _ => rfl
  | markReady id steadyNow => exact h.markAndPromote fun _ => rfl
  | markDraining id =>
    apply Refines.tick
    exact h.mark fun _ => rfl
  | markIdle id steadyNow => exact h.markAndPromote fun _ => rfl
  | markErrored id reason =>
    apply Refines.tick
    exact h.mark fun _ => rfl
  | markClosed id => exact h.markClosed.tick
  | setCurrentRequest id rid =>
    apply Refines.tick
    exact h.mark fun _ => rfl

/-! ### The queries -/

/-- The search from the back of the recency list finds the ready session that was promoted
first. -/
theorem Refines.find_iff (h : pool.Refines spec) :
    pool.findIdleLeastRecentlyUsed = some s ↔ spec.OldestReady s := by
  have hready {id : String} {s : SessionRecord} :
      (pool.get id).filter (fun s => s.state = .ready) = some s ↔ spec.Ready id s := by
    rw [Option.filter_eq_some_iff, decide_eq_true_eq, h.session, TimestampedPool.Ready]
  have hlisted {id : String} {s : SessionRecord} (hs : spec.Ready id s) : id ∈ pool.lru := by
    rw [h.listed, h.session, hs.1]
    rfl
  unfold SessionPool.findIdleLeastRecentlyUsed
  rw [h.recency.findSome?_reverse]
  constructor
  · rintro ⟨id, -, hs, holdest⟩
    rw [hready] at hs
    obtain rfl := h.keyed ((h.session id).trans hs.1)
    refine ⟨hs, fun id' s' hs' => holdest id' (hlisted hs') ?_⟩
    rw [hready.mpr hs']
    rfl
  · rintro ⟨hs, holdest⟩
    refine ⟨s.sessionId, hlisted hs, hready.mpr hs, fun id' _ hsome => ?_⟩
    obtain ⟨s', hs'⟩ := Option.isSome_iff_exists.mp hsome
    exact holdest id' s' (hready.mp hs')

/-- The search fails exactly when no session is ready. -/
theorem Refines.find_eq_none_iff (h : pool.Refines spec) :
    pool.findIdleLeastRecentlyUsed = none ↔ ∀ id s, ¬spec.Ready id s := by
  constructor
  · rintro hnone id s ⟨hs, hready⟩
    have hget : pool.get id = some s := (h.session id).trans hs
    exact findIdleLeastRecentlyUsed_none hnone (h.wellFormed.listed hget) hget hready
  · intro hnone
    cases hfind : pool.findIdleLeastRecentlyUsed with
    | none => rfl
    | some s => exact absurd (h.find_iff.mp hfind).1 (hnone s.sessionId s)

/-- The expired sessions are listed by the moment of their last promotion. -/
theorem Refines.collectIdleExpired (h : pool.Refines spec) (now : TimePoint) :
    (∀ id, id ∈ pool.collectIdleExpired now ↔
      ∃ s, spec.Ready id s ∧ now - s.lastActiveAt ≥ pool.idleTimeout) ∧
    (pool.collectIdleExpired now).Pairwise fun a b => spec.promotedAt a < spec.promotedAt b := by
  refine ⟨fun id => ?_, h.recency.pairwise_reverse_filter⟩
  unfold SessionPool.collectIdleExpired TimestampedPool.Ready idleExpired
  rw [List.mem_filter, List.mem_reverse, h.listed, ← h.session]
  cases pool.get id with
  | none => simp
  | some s => simp

/-- The ready sessions are among all sessions. -/
theorem idleCount_le_size : pool.idleCount ≤ pool.size := by
  have hsub : (pool.sessions.collect fun _ s => s.state = .ready).Sublist pool.sessions.keys :=
    List.filter_sublist.map Sigma.fst
  exact hsub.length_le

/-! ### Sequences of operations -/

/-- The pool as it is constructed. -/
def empty (maxSize : ℕ) (idleTimeout maxLifetime : Duration) : SessionPool :=
  { maxSize, idleTimeout, maxLifetime }

/-- The constructed pool represents the empty abstract pool. -/
theorem Refines.empty (maxSize : ℕ) (idleTimeout maxLifetime : Duration) :
    (SessionPool.empty maxSize idleTimeout maxLifetime).Refines { maxSize } where
  maxSize := rfl
  session := fun _ => rfl
  keyed := fun hs => by cases hs
  listed := by simp [SessionPool.empty, get]
  recency := List.Pairwise.nil
  past := by simp [SessionPool.empty]
  capacity := Nat.zero_le maxSize

/-- The idle timeout is fixed. -/
theorem apply_idleTimeout (op : PoolOp) : (pool.apply op).idleTimeout = pool.idleTimeout := by
  have hpromote (id : String) (f : SessionRecord → SessionRecord) :
      (pool.markAndPromote id f).idleTimeout = pool.idleTimeout := by
    unfold SessionPool.markAndPromote
    split <;> rfl
  cases op with
  | add s =>
    simp only [SessionPool.apply, SessionPool.add]
    split <;> rfl
  | touchActive id now => exact hpromote id _
  | markActive id steadyNow => exact hpromote id _
  | markReady id steadyNow => exact hpromote id _
  | markDraining id => rfl
  | markIdle id steadyNow => exact hpromote id _
  | markErrored id reason => rfl
  | markClosed id => rfl
  | setCurrentRequest id rid => rfl

/-- Sequences of operations keep the pool in step with the abstract one. -/
theorem Refines.foldl {ops : List PoolOp} (h : pool.Refines spec)
    (hnew : Along SessionPool.apply NewIfAdded pool ops) :
    (ops.foldl SessionPool.apply pool).Refines (ops.foldl TimestampedPool.apply spec) := by
  induction ops generalizing pool spec with
  | nil => exact h
  | cons op ops ih => exact ih (h.apply hnew.1) hnew.2

/-- The pool refines a timestamped pool under every sequence of operations that inserts
sessions only under identifiers which the pool does not hold. -/
theorem refines_timestamped_pool (maxSize : ℕ) (idleTimeout maxLifetime : Duration)
    (ops : List PoolOp)
    (hnew : Along SessionPool.apply NewIfAdded (empty maxSize idleTimeout maxLifetime) ops) :
    let pool := ops.foldl SessionPool.apply (empty maxSize idleTimeout maxLifetime)
    let spec := ops.foldl TimestampedPool.apply { maxSize }
    (∀ id, pool.get id = spec.session id) ∧
    pool.lru.Nodup ∧ (∀ id, id ∈ pool.lru ↔ id ∈ pool.sessions) ∧
    pool.size ≤ maxSize ∧ pool.idleCount + pool.activeCount = pool.size ∧
    (∀ s, pool.findIdleLeastRecentlyUsed = some s ↔ spec.OldestReady s) ∧
    (pool.findIdleLeastRecentlyUsed = none ↔ ∀ id s, ¬spec.Ready id s) ∧
    ∀ now, (pool.collectIdleExpired now).Nodup ∧
      (∀ id, id ∈ pool.collectIdleExpired now ↔
        ∃ s, spec.Ready id s ∧ now - s.lastActiveAt ≥ idleTimeout) ∧
      (pool.collectIdleExpired now).Pairwise fun a b => spec.promotedAt a < spec.promotedAt b := by
  intro pool spec
  have hrefines : pool.Refines spec := (Refines.empty maxSize idleTimeout maxLifetime).foldl hnew
  have hsize : pool.maxSize = maxSize := by
    refine hrefines.maxSize.trans ?_
    refine foldl_proj TimestampedPool.maxSize fun spec op => ?_
    cases op with
    | add s =>
      simp only [TimestampedPool.apply]
      split <;> rfl
    | _ => rfl
  have hidle : pool.idleTimeout = idleTimeout :=
    foldl_proj SessionPool.idleTimeout fun pool op => apply_idleTimeout op
  have hcounts := @idleCount_le_size pool
  refine ⟨hrefines.session, hrefines.recency.nodup, fun id => ?_, hsize ▸ hrefines.capacity, ?_,
    fun s => hrefines.find_iff, hrefines.find_eq_none_iff, fun now => ?_⟩
  · rw [hrefines.listed, ← mem_keys_iff, AList.mem_keys]
  · unfold activeCount
    omega
  · obtain ⟨hmem, hordered⟩ := hrefines.collectIdleExpired now
    rw [hidle] at hmem
    refine ⟨?_, hmem, hordered⟩
    exact hordered.imp fun hlt heq => by simp [heq] at hlt

/-- Two ready sessions of which the first is then used again. -/
def touchedOps : List PoolOp :=
  [.add { sessionId := "a", state := .ready }, .add { sessionId := "b", state := .ready },
    .touchActive "a" 5]

/-- The session that was not used again is found. -/
theorem refines_timestamped_pool_touchedOps :
    (touchedOps.foldl TimestampedPool.apply { maxSize := 2 }).OldestReady
      { sessionId := "b", state := .ready } :=
  ((refines_timestamped_pool 2 60 3600 touchedOps (by decide)).2.2.2.2.2.1 _).mp (by decide)

end SessionPool

end TtsServer
