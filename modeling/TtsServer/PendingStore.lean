import TtsServer.Lib.Table
import TtsServer.Messages

/-!
# Pending requests

The store of requests that have been admitted and not yet answered, with the
audio received so far. Requests served upstream name their session; requests
served by the local engine have an empty session identifier.
-/

namespace TtsServer

open Lib

/-- The states of a pending request. -/
inductive PendingState where
  | awaitingSession | streaming | complete | failed | cancelled
  deriving DecidableEq, Repr

/-- The states that `collect_terminal` sweeps. -/
def PendingState.terminal (s : PendingState) : Bool := s = .failed || s = .cancelled

/-- A request that has been admitted and not yet answered. -/
structure PendingRequest where
  requestId : String
  sessionId : String := ""
  state : PendingState := .awaitingSession
  accumulatedAudio : Bytes := []
  cumulativeBytes : Int := 0
  sampleRate : Int := 16000
  channels : Int := 1
  format : AudioFormat := .mp3
  usageCharacters : Int := 0
  createdAt : TimePoint := 0
  lastChunkAt : TimePoint := 0
  statusCode : Int := 0
  statusMsg : String := ""
  finalReceived : Bool := false
  deriving DecidableEq, Repr

/-- The effect of `append_chunk` on the record it finds. -/
def PendingRequest.append (p : PendingRequest) (data : Bytes) (isFinal : Bool) (usage : Int)
    (steadyNow : TimePoint) : PendingRequest :=
  { p with
    accumulatedAudio := p.accumulatedAudio ++ data
    cumulativeBytes := p.cumulativeBytes + data.length
    usageCharacters := usage
    lastChunkAt := steadyNow
    finalReceived := p.finalReceived || isFinal }

/-- The test of `find_ready_to_emit`. -/
def PendingRequest.readyToEmit (p : PendingRequest) : Bool :=
  p.state = .streaming && p.finalReceived

/-- The store of pending requests. -/
structure PendingRequestStore where
  store : Table String PendingRequest := ∅

namespace PendingRequestStore

variable (pending : PendingRequestStore)

/-- Store a request under its identifier, replacing an earlier one, at a reading of
the steady clock. -/
def add (p : PendingRequest) (steadyNow : TimePoint) : PendingRequestStore :=
  ⟨pending.store.insert p.requestId { p with createdAt := steadyNow, lastChunkAt := steadyNow }⟩

/-- The record of a request. -/
def get (id : String) : Option PendingRequest := pending.store.lookup id

/-- Drop a request. -/
def remove (id : String) : PendingRequestStore := ⟨pending.store.erase id⟩

/-- Update the record of one request in place, if there is one. -/
def update (id : String) (f : PendingRequest → PendingRequest) : PendingRequestStore :=
  ⟨pending.store.modify id f⟩

/-- `set_state`. -/
def setState (id : String) (s : PendingState) : PendingRequestStore :=
  pending.update id fun p => { p with state := s }

/-- `append_chunk`, at a reading of the steady clock; the result tells whether the
request was found. -/
def appendChunk (id : String) (data : Bytes) (isFinal : Bool) (usage : Int)
    (steadyNow : TimePoint) : Bool × PendingRequestStore :=
  ((pending.get id).isSome, pending.update id fun p => p.append data isFinal usage steadyNow)

/-- `find_ready_to_emit`: the streaming requests whose final chunk has arrived. -/
def findReadyToEmit : List String := pending.store.collect fun _ p => p.readyToEmit

/-- `collect_by_session`. -/
def collectBySession (sessionId : String) : List String :=
  pending.store.collect fun _ p => p.sessionId = sessionId

/-- `collect_terminal`: the failed and the cancelled requests. -/
def collectTerminal : List String := pending.store.collect fun _ p => p.state.terminal

/-- The number of pending requests. -/
def size : Nat := pending.store.keys.length

variable {pending} {id id' sid : String} {p : PendingRequest}
  {f : PendingRequest → PendingRequest} {t : TimePoint}

/-- The records after storing a request. -/
@[simp] theorem get_add :
    (pending.add p t).get id =
      if id = p.requestId then some { p with createdAt := t, lastChunkAt := t }
      else pending.get id :=
  Table.lookup_insert_eq

/-- The records after dropping a request. -/
@[simp] theorem get_remove :
    (pending.remove id).get id' = if id' = id then none else pending.get id' :=
  Table.lookup_erase_eq

/-- The records after updating one request in place. -/
@[simp] theorem get_update :
    (pending.update id f).get id' =
      if id' = id then (pending.get id').map f else pending.get id' :=
  Table.lookup_modify

/-- The records after setting the state of one request. -/
@[simp] theorem get_setState {s : PendingState} :
    (pending.setState id s).get id' =
      if id' = id then (pending.get id').map (fun p => { p with state := s })
      else pending.get id' :=
  get_update

/-- The requests ready to be emitted. -/
theorem mem_findReadyToEmit :
    id ∈ pending.findReadyToEmit ↔ ∃ p, pending.get id = some p ∧ p.readyToEmit = true :=
  Table.mem_collect

/-- The requests bound to a session. -/
theorem mem_collectBySession :
    id ∈ pending.collectBySession sid ↔ ∃ p, pending.get id = some p ∧ p.sessionId = sid := by
  simp [collectBySession, get]

/-- The requests that the sweep removes. -/
theorem mem_collectTerminal :
    id ∈ pending.collectTerminal ↔ ∃ p, pending.get id = some p ∧ p.state.terminal = true :=
  Table.mem_collect

/-- A store without records is empty. -/
theorem size_eq_zero_iff : pending.size = 0 ↔ ∀ id, pending.get id = none := by
  simp only [size, get, List.length_eq_zero_iff, AList.lookup_eq_none, AList.mem_keys,
    List.eq_nil_iff_forall_not_mem]

end PendingRequestStore

end TtsServer
