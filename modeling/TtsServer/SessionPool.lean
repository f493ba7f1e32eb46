import TtsServer.Lib.Table
import TtsServer.Messages

/-!
# The session pool

Upstream sessions are kept in a map by identifier together with a recency list,
most recently used first. The `mark_*` operations set the state of one session;
some of them also promote it to the front of the list. An operation that reads
the steady clock takes the reading as an argument.
-/

namespace TtsServer

open Lib

/-- The states of an upstream session. -/
inductive SessionState where
  | cold | connecting | ready | streaming | draining | closed | errored
  deriving DecidableEq, Repr

/-- The record of one upstream session. -/
structure SessionRecord where
  sessionId : String
  state : SessionState := .cold
  createdAt : TimePoint := 0
  lastActiveAt : TimePoint := 0
  currentRequestId : String := ""
  lastError : String := ""
  deriving DecidableEq, Repr

/-- The pool of upstream sessions. -/
structure SessionPool where
  maxSize : Nat
  idleTimeout : Duration
  maxLifetime : Duration
  sessions : Table String SessionRecord := ∅
  lru : List String := []

namespace SessionPool

variable (pool : SessionPool)

/-- The number of sessions in the pool. -/
def size : Nat := pool.sessions.keys.length

/-- `idle_count`: the number of sessions in state `ready`. -/
def idleCount : Nat := (pool.sessions.collect fun _ s => s.state = .ready).length

/-- `active_count`: the number of the other sessions. -/
def activeCount : Nat := pool.size - pool.idleCount

/-- Insert a session unless the pool is full; the result tells which. -/
def add (s : SessionRecord) : Bool × SessionPool :=
  if pool.size ≥ pool.maxSize then (false, pool)
  else (true, { pool with
    lru := s.sessionId :: pool.lru
    sessions := pool.sessions.insert s.sessionId s })

/-- The record of a session. -/
def get (id : String) : Option SessionRecord := pool.sessions.lookup id

/-- The least recently used session in state `ready`: the recency list is searched
from its back, skipping entries without a record. -/
def findIdleLeastRecentlyUsed : Option SessionRecord :=
  pool.lru.reverse.findSome? fun id => (pool.get id).filter fun s => s.state = .ready

/-- `move_to_front_locked`: every earlier occurrence is removed. -/
def moveToFrontLocked (id : String) : SessionPool :=
  { pool with lru := id :: pool.lru.filter fun x => x ≠ id }

/-- Update the record of one session, leaving its position in the recency list. -/
def mark (id : String) (f : SessionRecord → SessionRecord) : SessionPool :=
  { pool with sessions := pool.sessions.modify id f }

/-- Update the record of one session and make it the most recently used one. An
unknown session leaves the pool unchanged. -/
def markAndPromote (id : String) (f : SessionRecord → SessionRecord) : SessionPool :=
  match pool.get id with
  | none => pool
  | some _ => (pool.mark id f).moveToFrontLocked id

/-- `touch_active`, at a time given by the caller. -/
def touchActive (id : String) (now : TimePoint) : SessionPool :=
  pool.markAndPromote id fun s => { s with lastActiveAt := now }

/-- `mark_active`, at a reading of the steady clock. -/
def markActive (id : String) (steadyNow : TimePoint) : SessionPool :=
  pool.markAndPromote id fun s => { s with state := .streaming, lastActiveAt := steadyNow }

/-- `mark_ready`, at a reading of the steady clock. -/
def markReady (id : String) (steadyNow : TimePoint) : SessionPool :=
  pool.markAndPromote id fun s => { s with state := .ready, lastActiveAt := steadyNow }

/-- `mark_draining`. -/
def markDraining (id : String) : SessionPool :=
  pool.mark id fun s => { s with state := .draining }

/-- `mark_idle`, at a reading of the steady clock: the session no longer works for a request. -/
def markIdle (id : String) (steadyNow : TimePoint) : SessionPool :=
  pool.markAndPromote id fun s =>
    { s with state := .ready, currentRequestId := "", lastActiveAt := steadyNow }

/-- `mark_errored`. -/
def markErrored (id : String) (reason : String) : SessionPool :=
  pool.mark id fun s => { s with state := .errored, lastError := reason }

/-- `mark_closed`: a closed session is removed from the map and the recency list. -/
def markClosed (id : String) : SessionPool :=
  { pool with
    sessions := pool.sessions.erase id
    lru := pool.lru.filter fun x => x ≠ id }

/-- The heartbeat assigns a request to a session through the record's pointer. -/
def setCurrentRequest (id rid : String) : SessionPool :=
  pool.mark id fun s => { s with currentRequestId := rid }

/-- A session that is ready and has been idle for the timeout. -/
def idleExpired (now : TimePoint) (s : SessionRecord) : Bool :=
  s.state = .ready && now - s.lastActiveAt ≥ pool.idleTimeout

/-- A session that has reached its maximal lifetime. -/
def lifetimeExpired (now : TimePoint) (s : SessionRecord) : Bool :=
  now - s.createdAt ≥ pool.maxLifetime

/-- `collect_idle_expired`, least recently used first. -/
def collectIdleExpired (now : TimePoint) : List String :=
  pool.lru.reverse.filter fun id => (pool.get id).any (pool.idleExpired now)

/-- `collect_lifetime_expired`. -/
def collectLifetimeExpired (now : TimePoint) : List String :=
  pool.sessions.collect fun _ s => pool.lifetimeExpired now s

variable {pool} {id id' : String} {f : SessionRecord → SessionRecord} {s : SessionRecord}

/-- The records after updating one session in place. -/
@[simp] theorem get_mark :
    (pool.mark id f).get id' = if id' = id then (pool.get id').map f else pool.get id' :=
  Table.lookup_modify

/-- The records after updating and promoting one session. -/
@[simp] theorem get_markAndPromote :
    (pool.markAndPromote id f).get id' =
      if id' = id then (pool.get id').map f else pool.get id' := by
  unfold markAndPromote
  cases hget : pool.get id with
  | none =>
    by_cases h : id' = id
    · subst h
      simp [hget]
    · simp [h]
  | some s => exact get_mark

/-- Closing removes exactly one session. -/
@[simp] theorem get_markClosed :
    (pool.markClosed id).get id' = if id' = id then none else pool.get id' :=
  Table.lookup_erase_eq

/-- A successful insertion stores the record under its own identifier. -/
theorem get_add (h : (pool.add s).1 = true) :
    (pool.add s).2.get id' = if id' = s.sessionId then some s else pool.get id' := by
  unfold add at h ⊢
  split at h
  · cases h
  · rename_i hsize
    simp only [hsize, if_false, get]
    exact Table.lookup_insert_eq

/-- A refused insertion leaves the pool as it was. -/
theorem add_refused (h : (pool.add s).1 = false) : (pool.add s).2 = pool := by
  unfold add at h ⊢
  split at h
  · rename_i hsize
    simp [hsize]
  · cases h

/-- The search for an idle session returns a ready session of the pool. -/
theorem findIdleLeastRecentlyUsed_some (h : pool.findIdleLeastRecentlyUsed = some s) :
    ∃ id, pool.get id = some s ∧ s.state = .ready := by
  obtain ⟨id, _, hid⟩ := List.exists_of_findSome?_eq_some h
  obtain ⟨hget, hready⟩ := Option.filter_eq_some_iff.mp hid
  exact ⟨id, hget, by simpa using hready⟩

/-- The search fails only if no listed session is ready. -/
theorem findIdleLeastRecentlyUsed_none (h : pool.findIdleLeastRecentlyUsed = none)
    (hlisted : id ∈ pool.lru) (hget : pool.get id = some s) : s.state ≠ .ready := by
  intro hready
  have hnone := List.findSome?_eq_none_iff.mp h id (List.mem_reverse.mpr hlisted)
  simp [hget, hready] at hnone

/-- What every operation of the pool keeps: records are stored under their own
identifier, and every session is in the recency list. -/
structure WellKeyed (pool : SessionPool) : Prop where
  /-- A record carries the identifier under which it is stored. -/
  sessionId_eq : ∀ {id s}, pool.get id = some s → s.sessionId = id
  /-- Every session of the map is listed. -/
  listed : ∀ {id s}, pool.get id = some s → id ∈ pool.lru

/-- The empty pool is well keyed. -/
theorem WellKeyed.empty (maxSize : Nat) (idleTimeout maxLifetime : Duration) :
    WellKeyed ⟨maxSize, idleTimeout, maxLifetime, ∅, []⟩ :=
  ⟨fun h => by simp [get] at h, fun h => by simp [get] at h⟩

/-- Updating a record without touching its identifier keeps the pool well keyed. -/
theorem WellKeyed.mark (h : pool.WellKeyed) (hf : ∀ s, (f s).sessionId = s.sessionId) :
    (pool.mark id f).WellKeyed := by
  constructor
  · intro id' s hs
    rw [get_mark] at hs
    split at hs
    · obtain ⟨s', hs', rfl⟩ := Option.map_eq_some_iff.mp hs
      rw [hf]
      exact h.sessionId_eq hs'
    · exact h.sessionId_eq hs
  · intro id' s hs
    rw [get_mark] at hs
    split at hs
    · obtain ⟨s', hs', rfl⟩ := Option.map_eq_some_iff.mp hs
      exact h.listed hs'
    · exact h.listed hs

/-- Promoting a session keeps the pool well keyed. -/
theorem WellKeyed.markAndPromote (h : pool.WellKeyed) (hf : ∀ s, (f s).sessionId = s.sessionId) :
    (pool.markAndPromote id f).WellKeyed := by
  unfold SessionPool.markAndPromote
  split
  · exact h
  · have hmark : (pool.mark id f).WellKeyed := h.mark hf
    refine ⟨fun hs => hmark.sessionId_eq hs, fun {id' s'} hs => ?_⟩
    have hlisted := hmark.listed hs
    by_cases heq : id' = id
    · simp [moveToFrontLocked, heq]
    · simpa [moveToFrontLocked, heq] using hlisted

/-- Closing a session keeps the pool well keyed. -/
theorem WellKeyed.markClosed (h : pool.WellKeyed) : (pool.markClosed id).WellKeyed := by
  constructor
  · intro id' s hs
    rw [get_markClosed] at hs
    split at hs
    · cases hs
    · exact h.sessionId_eq hs
  · intro id' s hs
    rw [get_markClosed] at hs
    split at hs
    · cases hs
    · rename_i hne
      simpa [SessionPool.markClosed, hne] using h.listed hs

/-- Inserting a session keeps the pool well keyed. -/
theorem WellKeyed.add (h : pool.WellKeyed) : (pool.add s).2.WellKeyed := by
  cases hadd : (pool.add s).1 with
  | false =>
    rw [add_refused hadd]
    exact h
  | true =>
    have hlru : (pool.add s).2.lru = s.sessionId :: pool.lru := by
      unfold SessionPool.add at hadd ⊢
      split at hadd
      · cases hadd
      · rename_i hsize
        simp [hsize]
    constructor
    · intro id' s' hs
      rw [get_add hadd] at hs
      split at hs
      · rename_i heq
        obtain rfl := Option.some.inj hs
        exact heq.symm
      · exact h.sessionId_eq hs
    · intro id' s' hs
      rw [get_add hadd] at hs
      rw [hlru]
      split at hs
      · rename_i heq
        simp [heq]
      · exact List.mem_cons_of_mem _ (h.listed hs)

/-- The representation invariant: a well keyed pool whose recency list names every session
once, and nothing else. -/
structure WellFormed (pool : SessionPool) : Prop extends pool.WellKeyed where
  nodup : pool.lru.Nodup
  backed : ∀ {id}, id ∈ pool.lru → ∃ s, pool.get id = some s

end SessionPool

end TtsServer
