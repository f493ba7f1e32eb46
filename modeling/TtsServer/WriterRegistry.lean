import TtsServer.RequestParser
import TtsServer.StreamHandler

/-!
# The registry of writers

The handlers of `SynthesizeStream` and `SynthesizeClient` enter a callback that writes to
the stream of their call into `writers_`; the former also enters a queue into
`local_queues_`. `dispatch_to_writers` copies both entries under the lock, and then uses
the queue or, if there is none, invokes the callback. This file models the two maps
themselves, the handlers with all their return paths, and the dispatch of any responses,
in any interleaving. A callback and a queue are given by the identifier of their call.

A stream handler erases both entries before it returns. A client handler erases nothing:
its entry goes when a final response has been dispatched, and not before.

Identifiers are drawn from a natural number, as in `StreamHandler`; they are those of the
program as long as fewer than 2⁶⁴ - 1 calls have arrived.
-/

namespace TtsServer

open Lib

/-- A `SynthesizeClient` handler. -/
structure ClientHandler where
  first : Bool := true
  returned : Bool := false
  written : List WriteToClient := []

/-- Where `dispatch_to_writers` is. -/
inductive Dispatch where
  | idle
  /-- The queue and the callback for a response have been copied. -/
  | found (w : WriteToClient) (queue writer : Option String)
  /-- A callback has taken a final response, and its entry is about to be erased. -/
  | erasing (rid : String)

/-- The handlers, the two maps and the dispatch of responses. -/
structure Service where
  /-- The next number; a 64-bit word in the program, see `requestIds_of_word`. -/
  ctr : Nat := 1
  streams : Table String StreamCall := ∅
  clients : Table String ClientHandler := ∅
  localQueues : Table String String := ∅
  writers : Table String String := ∅
  requestChannel : List TtsRequestMsg := []
  dispatch : Dispatch := .idle
  /-- The calls whose handler has returned, for the record. -/
  returned : List String := []
  /-- The calls for which the dispatch of a final response through a callback is complete,
  for the record. -/
  served : List String := []

/-- The moves of the handlers and of the heartbeat thread. -/
inductive ServiceEvent where
  | openStream (request : Proto.SynthesizeRequest)
  | send (rid : String)
  | registerQueue (rid : String)
  | registerWriter (rid : String)
  /-- One round of the drain loop, in which the client accepts a number of responses. -/
  | drain (rid : String) (accepted : Nat)
  /-- The client cancels or the deadline passes. -/
  | abandon (rid : String)
  | openClient
  /-- `Read` returns a chunk, or false. -/
  | read (rid : String) (chunk : Option Proto.TextChunk)
  /-- `dispatch_to_writers` looks up a response. -/
  | look (w : WriteToClient)
  | handOver
  | eraseWriter

/-- The move draws an identifier. -/
def ServiceEvent.opens : ServiceEvent → Bool
  | .openStream _ | .openClient => true
  | _ => false

namespace Service

/-- A stream handler in one phase goes on; otherwise nothing happens. -/
def whenIn (σ : Service) (rid : String) (phase : StreamPhase) (f : StreamCall → Service) :
    Service :=
  match σ.streams.lookup rid with
  | some call => if call.phase = phase then f call else σ
  | none => σ

/-- A stream handler erases both entries and returns. -/
def leave (σ : Service) (rid : String) (call : StreamCall) : Service :=
  { σ with
    streams := σ.streams.insert rid call
    writers := σ.writers.erase rid
    localQueues := σ.localQueues.erase rid
    returned := σ.returned ++ [rid] }

/-- A client handler returns. -/
def returnClient (σ : Service) (rid : String) (client : ClientHandler) : Service :=
  { σ with
    clients := σ.clients.insert rid { client with returned := true }
    returned := σ.returned ++ [rid] }

/-- The loop of `SynthesizeClient`, whose `initial_settings` are never set: one `Read`. -/
def read (σ : Service) (rid : String) (chunk : Option Proto.TextChunk) (client : ClientHandler) :
    Service :=
  match chunk with
  | none => σ.returnClient rid client
  | some chunk =>
    match parseChunk chunk rid {} client.first with
    | .error _ => σ.returnClient rid client
    | .ok r => { σ with
        requestChannel := σ.requestChannel ++ [r]
        clients := σ.clients.insert rid { client with first := false } }

/-- `dispatch_to_writers` uses what it has copied: the queue, or else the callback. -/
def handOver (σ : Service) : Service :=
  match σ.dispatch with
  | .found w (some queue) _ => { σ with
      dispatch := .idle
      streams := σ.streams.modify queue fun call =>
        { call with localQueue := call.localQueue ++ [w] } }
  | .found w none (some owner) => { σ with
      dispatch := if w.isFinal then .erasing w.requestId else .idle
      clients := σ.clients.modify owner fun client =>
        { client with written := client.written ++ [w] } }
  | .found _ none none => { σ with dispatch := .idle }
  | _ => σ

/-- One move. -/
def step (σ : Service) : ServiceEvent → Service
  | .openStream request =>
    let rid := generateRequestId "strm" σ.ctr
    match parseUnary request rid with
    | .error _ => { σ with ctr := σ.ctr + 1, returned := σ.returned ++ [rid] }
    | .ok r => { σ with ctr := σ.ctr + 1, streams := σ.streams.insert rid { request := r } }
  | .send rid => σ.whenIn rid .parsed fun call => { σ with
      requestChannel := σ.requestChannel ++ [call.request]
      streams := σ.streams.insert rid { call with phase := .sent } }
  | .registerQueue rid => σ.whenIn rid .sent fun call => { σ with
      localQueues := σ.localQueues.insert rid rid
      streams := σ.streams.insert rid { call with phase := .queued } }
  | .registerWriter rid => σ.whenIn rid .queued fun call => { σ with
      writers := σ.writers.insert rid rid
      streams := σ.streams.insert rid { call with phase := .serving } }
  | .drain rid accepted => σ.whenIn rid .serving fun call =>
      if (call.drain accepted).phase = .left then σ.leave rid (call.drain accepted)
      else { σ with streams := σ.streams.insert rid (call.drain accepted) }
  | .abandon rid => σ.whenIn rid .serving fun call => σ.leave rid { call with phase := .left }
  | .openClient =>
    let rid := generateRequestId "cli" σ.ctr
    { σ with
      ctr := σ.ctr + 1
      clients := σ.clients.insert rid {}
      writers := σ.writers.insert rid rid }
  | .read rid chunk =>
    match σ.clients.lookup rid with
    | some client => if client.returned then σ else σ.read rid chunk client
    | none => σ
  | .look w =>
    match σ.dispatch with
    | .idle =>
      let queue := σ.localQueues.lookup w.requestId
      let writer := σ.writers.lookup w.requestId
      { σ with dispatch := .found w queue writer }
    | _ => σ
  | .handOver => σ.handOver
  | .eraseWriter =>
    match σ.dispatch with
    | .erasing rid => { σ with
        dispatch := .idle
        writers := σ.writers.erase rid
        served := σ.served ++ [rid] }
    | _ => σ

/-- A handler that goes on draws no identifier. -/
theorem ctr_whenIn {σ : Service} {rid : String} {phase : StreamPhase} {f : StreamCall → Service}
    (hf : ∀ call, (f call).ctr = σ.ctr) : (σ.whenIn rid phase f).ctr = σ.ctr := by
  unfold whenIn
  split
  · split
    · exact hf _
    · rfl
  · rfl

/-- The counter moves on when an identifier is drawn from it, and only then. -/
theorem ctr_step (σ : Service) (ev : ServiceEvent) :
    (σ.step ev).ctr = σ.ctr + ev.opens.toNat := by
  cases ev with
  | openStream request =>
    simp only [step]
    split <;> rfl
  | openClient => rfl
  | send rid => exact ctr_whenIn fun _ => rfl
  | registerQueue rid => exact ctr_whenIn fun _ => rfl
  | registerWriter rid => exact ctr_whenIn fun _ => rfl
  | drain rid accepted =>
    refine ctr_whenIn fun call => ?_
    split <;> rfl
  | abandon rid => exact ctr_whenIn fun _ => rfl
  | read rid chunk =>
    simp only [step]
    split
    · split
      · rfl
      · unfold read
        split
        · rfl
        · split <;> rfl
    · rfl
  | look w =>
    simp only [step]
    split <;> rfl
  | handOver =>
    simp only [step, handOver]
    split <;> rfl
  | eraseWriter =>
    simp only [step]
    split <;> rfl

/-- With fewer than 2⁶⁴ - 1 calls, the next identifier is the one that the program draws. -/
theorem requestIds_of_word {events : List ServiceEvent}
    (hcalls : events.countP ServiceEvent.opens < 2 ^ 64 - 1) (tag : String) :
    generateRequestId tag (events.foldl step {}).ctr =
      wordRequestId tag (UInt64.ofNat (events.foldl step {}).ctr) := by
  refine generateRequestId_eq_word ?_ tag
  have hctr : (events.foldl step {}).ctr = 1 + events.countP ServiceEvent.opens :=
    foldl_count ctr_step
  omega

/-- The call whose stream the callback writes to that is about to be invoked. -/
def invoked? (σ : Service) : Option String :=
  match σ.dispatch with
  | .found _ none writer => writer
  | _ => none

/-- No entry outlives its call: a returned handler has no entry in either map, and the
callback about to be invoked is not that of a returned handler. -/
structure Clean (σ : Service) : Prop where
  writers : ∀ rid ∈ σ.returned, σ.writers.lookup rid = none
  localQueues : ∀ rid ∈ σ.returned, σ.localQueues.lookup rid = none
  invoked : ∀ owner ∈ σ.invoked?, owner ∉ σ.returned

/-- A client handler whose `Read` returns false has had the dispatch of a final response
completed before. -/
def ReturnsServed (σ : Service) : ServiceEvent → Prop
  | .read rid none => ∀ client ∈ σ.clients.lookup rid, client.returned = false → rid ∈ σ.served
  | _ => True

instance (σ : Service) : ∀ ev, Decidable (σ.ReturnsServed ev)
  | .read rid none => inferInstanceAs (Decidable (∀ client ∈ σ.clients.lookup rid, _))
  | .read _ (some _) => .isTrue trivial
  | .openStream _ => .isTrue trivial
  | .send _ => .isTrue trivial
  | .registerQueue _ => .isTrue trivial
  | .registerWriter _ => .isTrue trivial
  | .drain _ _ => .isTrue trivial
  | .abandon _ => .isTrue trivial
  | .openClient => .isTrue trivial
  | .look _ => .isTrue trivial
  | .handOver => .isTrue trivial
  | .eraseWriter => .isTrue trivial

/-! ### What the maps hold -/

/-- The entry of a stream call in `local_queues_`, by the phase of its handler. -/
def queueOf (rid : String) : StreamPhase → Option String
  | .queued => some rid
  | .serving => some rid
  | _ => none

/-- The entry of a stream call in `writers_`, by the phase of its handler. -/
def writerOf (rid : String) : StreamPhase → Option String
  | .serving => some rid
  | _ => none

/-- What holds in every reachable state, whatever the handlers do. -/
structure Inv (σ : Service) : Prop where
  streamNamed : ∀ {rid call}, σ.streams.lookup rid = some call →
    ∃ n < σ.ctr, rid = generateRequestId "strm" n
  clientNamed : ∀ {rid client}, σ.clients.lookup rid = some client →
    ∃ n < σ.ctr, rid = generateRequestId "cli" n
  /-- The entries of a stream call follow its handler. -/
  stream : ∀ {rid call}, σ.streams.lookup rid = some call →
    σ.localQueues.lookup rid = queueOf rid call.phase ∧
      σ.writers.lookup rid = writerOf rid call.phase
  /-- The entry of a client call stays until a final response has been dispatched. -/
  client : ∀ {rid client}, σ.clients.lookup rid = some client →
    σ.writers.lookup rid = if rid ∈ σ.served then none else some rid
  /-- Nobody else has an entry. -/
  queueOwner : ∀ {rid}, σ.streams.lookup rid = none → σ.localQueues.lookup rid = none
  writerOwner : ∀ {rid}, σ.streams.lookup rid = none → σ.clients.lookup rid = none →
    σ.writers.lookup rid = none
  /-- The handlers that have returned are at their end. -/
  returnedStream : ∀ {rid call}, rid ∈ σ.returned → σ.streams.lookup rid = some call →
    call.phase = .left
  returnedClient : ∀ {rid client}, σ.clients.lookup rid = some client →
    (rid ∈ σ.returned ↔ client.returned = true)
  returnedNamed : ∀ {rid}, rid ∈ σ.returned → ∃ n < σ.ctr,
    rid = generateRequestId "strm" n ∨ rid = generateRequestId "cli" n
  /-- A callback is invoked for client calls only, and while its entry stands. -/
  found : ∀ {owner}, σ.invoked? = some owner →
    (∃ client, σ.clients.lookup owner = some client) ∧ owner ∉ σ.served
  foundName : ∀ {w writer}, σ.dispatch = .found w none writer → ∀ owner ∈ writer,
    owner = w.requestId
  erasing : ∀ {rid}, σ.dispatch = .erasing rid → ∃ client, σ.clients.lookup rid = some client
  served : ∀ {rid}, rid ∈ σ.served → ∃ client, σ.clients.lookup rid = some client

/-- Every returned client handler has been served. -/
def Tidy (σ : Service) : Prop :=
  ∀ rid client, σ.clients.lookup rid = some client → client.returned = true → rid ∈ σ.served

variable {σ : Service} {rid : String} {call : StreamCall} {client : ClientHandler}

/-- A call is of one kind. -/
theorem Inv.not_both (h : Inv σ) (hcall : σ.streams.lookup rid = some call) :
    σ.clients.lookup rid = none := by
  cases hclient : σ.clients.lookup rid with
  | none => rfl
  | some client =>
    obtain ⟨m, -, hstrm⟩ := h.streamNamed hcall
    obtain ⟨n, -, hcli⟩ := h.clientNamed hclient
    exact absurd (hstrm.symm.trans hcli) (generateRequestId_strm_ne_cli m n)

/-- The entries that may outlive their call are those of client calls. -/
theorem Inv.clean_iff (h : Inv σ) : σ.Clean ↔ σ.Tidy := by
  constructor
  · intro hclean rid client hclient hreturned
    have hnone := hclean.writers rid ((h.returnedClient hclient).mpr hreturned)
    rw [h.client hclient] at hnone
    by_contra hserved
    simp [hserved] at hnone
  · intro htidy
    refine ⟨fun rid hrid => ?_, fun rid hrid => ?_, fun owner howner hreturned => ?_⟩
    · cases hcall : σ.streams.lookup rid with
      | some call =>
        rw [(h.stream hcall).2, h.returnedStream hrid hcall]
        rfl
      | none =>
        cases hclient : σ.clients.lookup rid with
        | none => exact h.writerOwner hcall hclient
        | some client =>
          rw [h.client hclient, if_pos]
          exact htidy rid client hclient ((h.returnedClient hclient).mp hrid)
    · cases hcall : σ.streams.lookup rid with
      | none => exact h.queueOwner hcall
      | some call =>
        rw [(h.stream hcall).1, h.returnedStream hrid hcall]
        rfl
    · obtain ⟨⟨client, hclient⟩, hserved⟩ := h.found howner
      exact hserved (htidy owner client hclient ((h.returnedClient hclient).mp hreturned))

/-! ### Moves of stream handlers -/

/-- A stream handler goes on, and its entries with it. -/
theorem Inv.stream_move (h : Inv σ) (hcall : σ.streams.lookup rid = some call)
    {call' : StreamCall} {streams : Table String StreamCall} {queues writers : Table String String}
    {returned : List String} {channel : List TtsRequestMsg}
    (hself : streams.lookup rid = some call')
    (hother : ∀ {id}, id ≠ rid → streams.lookup id = σ.streams.lookup id)
    (hqueue : queues.lookup rid = queueOf rid call'.phase)
    (hwriter : writers.lookup rid = writerOf rid call'.phase)
    (hqueues : ∀ id, id ≠ rid → queues.lookup id = σ.localQueues.lookup id)
    (hwriters : ∀ id, id ≠ rid → writers.lookup id = σ.writers.lookup id)
    (hreturned : ∀ id, id ≠ rid → (id ∈ returned ↔ id ∈ σ.returned))
    (hleft : rid ∈ returned → call'.phase = .left) :
    Inv { σ with
      streams := streams, localQueues := queues, writers := writers, returned := returned
      requestChannel := channel } := by
  have hnoclient := h.not_both hcall
  have hne {id : String} {client : ClientHandler} (hclient : σ.clients.lookup id = some client) :
      id ≠ rid := by
    rintro rfl
    rw [hnoclient] at hclient
    cases hclient
  have habsent {id : String} (hid : streams.lookup id = none) :
      id ≠ rid ∧ σ.streams.lookup id = none := by
    by_cases heq : id = rid
    · rw [heq, hself] at hid
      cases hid
    · exact ⟨heq, (hother heq).symm.trans hid⟩
  refine ⟨fun {id c} hc => ?_, h.clientNamed, fun {id c} hc => ?_, fun {id c} hc => ?_,
    fun {id} hid => ?_, fun {id} hid hnone => ?_, fun {id c} hid hc => ?_, fun {id c} hc => ?_,
    fun {id} hid => ?_, h.found, h.foundName, h.erasing, h.served⟩
  · by_cases hid : id = rid
    · rw [hid]
      exact h.streamNamed hcall
    · exact h.streamNamed ((hother hid).symm.trans hc)
  · by_cases hid : id = rid
    · subst hid
      obtain rfl := Option.some.inj (hself.symm.trans hc)
      exact ⟨hqueue, hwriter⟩
    · rw [hqueues id hid, hwriters id hid]
      exact h.stream ((hother hid).symm.trans hc)
  · rw [hwriters id (hne hc)]
    exact h.client hc
  · obtain ⟨hne, hnone⟩ := habsent hid
    rw [hqueues id hne]
    exact h.queueOwner hnone
  · obtain ⟨hne, hstream⟩ := habsent hid
    rw [hwriters id hne]
    exact h.writerOwner hstream hnone
  · by_cases heq : id = rid
    · subst heq
      obtain rfl := Option.some.inj (hself.symm.trans hc)
      exact hleft hid
    · exact h.returnedStream ((hreturned id heq).mp hid) ((hother heq).symm.trans hc)
  · exact (hreturned id (hne hc)).trans (h.returnedClient hc)
  · by_cases heq : id = rid
    · obtain ⟨n, hn, hname⟩ := h.streamNamed hcall
      exact ⟨n, hn, Or.inl (heq.trans hname)⟩
    · exact h.returnedNamed ((hreturned id heq).mp hid)

/-- A handler that has not left has not returned. -/
theorem Inv.not_returned (h : Inv σ) (hcall : σ.streams.lookup rid = some call)
    (hphase : call.phase ≠ .left) : rid ∉ σ.returned :=
  fun hrid => hphase (h.returnedStream hrid hcall)

/-- A move that a stream handler makes in one phase. -/
theorem Inv.whenIn (h : Inv σ) {phase : StreamPhase} {f : StreamCall → Service}
    (hf : ∀ call, σ.streams.lookup rid = some call → call.phase = phase → Inv (f call)) :
    Inv (σ.whenIn rid phase f) := by
  unfold Service.whenIn
  split
  · rename_i call hcall
    split
    · exact hf call hcall ‹_›
    · exact h
  · exact h

/-- A handler that goes on without touching the maps, its entries being those of its new
phase. -/
theorem Inv.advance (h : Inv σ) (hcall : σ.streams.lookup rid = some call) {call' : StreamCall}
    {channel : List TtsRequestMsg} (hphase : call.phase ≠ .left)
    (hqueue : queueOf rid call'.phase = queueOf rid call.phase)
    (hwriter : writerOf rid call'.phase = writerOf rid call.phase) :
    Inv { σ with streams := σ.streams.insert rid call', requestChannel := channel } :=
  h.stream_move hcall (AList.lookup_insert _) AList.lookup_insert_ne
    ((h.stream hcall).1.trans hqueue.symm) ((h.stream hcall).2.trans hwriter.symm)
    (fun _ _ => rfl) (fun _ _ => rfl) (fun _ _ => Iff.rfl)
    fun hrid => absurd hrid (h.not_returned hcall hphase)

/-- A stream handler that returns has erased both entries. -/
theorem Inv.leave (h : Inv σ) (hcall : σ.streams.lookup rid = some call) {call' : StreamCall}
    (hleft : call'.phase = .left) : Inv (σ.leave rid call') := by
  refine h.stream_move hcall (AList.lookup_insert _) AList.lookup_insert_ne ?_ ?_
    (fun id hid => AList.lookup_erase_ne hid) (fun id hid => AList.lookup_erase_ne hid)
    (fun id hid => by simp [hid]) fun _ => hleft
  · rw [hleft]
    exact AList.lookup_erase rid σ.localQueues
  · rw [hleft]
    exact AList.lookup_erase rid σ.writers

/-- A round of the drain loop ends the handler or leaves it where it is. -/
theorem drain_phase (call : StreamCall) (accepted : Nat) :
    (call.drain accepted).phase = .left ∨ (call.drain accepted).phase = call.phase := by
  unfold StreamCall.drain
  simp only
  split
  · exact Or.inl rfl
  · exact Or.inr rfl

/-- The identifiers that have been drawn are not drawn again. -/
theorem Inv.draw (h : Inv σ) : Inv { σ with ctr := σ.ctr + 1 } where
  streamNamed := fun hcall => by
    obtain ⟨n, hn, hrid⟩ := h.streamNamed hcall
    exact ⟨n, Nat.lt_succ_of_lt hn, hrid⟩
  clientNamed := fun hclient => by
    obtain ⟨n, hn, hrid⟩ := h.clientNamed hclient
    exact ⟨n, Nat.lt_succ_of_lt hn, hrid⟩
  stream := h.stream
  client := h.client
  queueOwner := h.queueOwner
  writerOwner := h.writerOwner
  returnedStream := h.returnedStream
  returnedClient := h.returnedClient
  returnedNamed := fun hrid => by
    obtain ⟨n, hn, hname⟩ := h.returnedNamed hrid
    exact ⟨n, Nat.lt_succ_of_lt hn, hname⟩
  found := h.found
  foundName := h.foundName
  erasing := h.erasing
  served := h.served

/-- The next identifier of either kind is that of no call. -/
theorem Inv.fresh (h : Inv σ) :
    σ.streams.lookup (generateRequestId "strm" σ.ctr) = none ∧
      σ.clients.lookup (generateRequestId "cli" σ.ctr) = none := by
  constructor
  · cases hcall : σ.streams.lookup (generateRequestId "strm" σ.ctr) with
    | none => rfl
    | some call =>
      obtain ⟨n, hn, hrid⟩ := h.streamNamed hcall
      exact absurd (generateRequestId_injective hrid) (Nat.ne_of_gt hn)
  · cases hclient : σ.clients.lookup (generateRequestId "cli" σ.ctr) with
    | none => rfl
    | some client =>
      obtain ⟨n, hn, hrid⟩ := h.clientNamed hclient
      exact absurd (generateRequestId_injective hrid) (Nat.ne_of_gt hn)

/-- No handler has returned under the next identifier. -/
theorem Inv.fresh_returned (h : Inv σ) :
    generateRequestId "strm" σ.ctr ∉ σ.returned ∧ generateRequestId "cli" σ.ctr ∉ σ.returned := by
  constructor
  · intro hrid
    obtain ⟨n, hn, hname | hname⟩ := h.returnedNamed hrid
    · exact absurd (generateRequestId_injective hname) (Nat.ne_of_gt hn)
    · exact generateRequestId_strm_ne_cli _ _ hname
  · intro hrid
    obtain ⟨n, hn, hname | hname⟩ := h.returnedNamed hrid
    · exact generateRequestId_strm_ne_cli _ _ hname.symm
    · exact absurd (generateRequestId_injective hname) (Nat.ne_of_gt hn)

/-- A stream call is not a client call, whatever their numbers. -/
theorem Inv.client_ne_strm (h : Inv σ) (hclient : σ.clients.lookup rid = some client) (n : Nat) :
    rid ≠ generateRequestId "strm" n := by
  obtain ⟨m, -, hcli⟩ := h.clientNamed hclient
  exact fun hstrm => generateRequestId_strm_ne_cli n m (hstrm.symm.trans hcli)

/-- A stream call whose request is malformed returns before it has an entry. -/
theorem Inv.refuse (h : Inv σ) : Inv { σ with
    ctr := σ.ctr + 1, returned := σ.returned ++ [generateRequestId "strm" σ.ctr] } := by
  have hdraw := h.draw
  refine { hdraw with
    returnedStream := fun {rid call} hrid hcall => ?_
    returnedClient := fun {rid client} hclient => ?_
    returnedNamed := fun {rid} hrid => ?_ }
  · rcases List.mem_append.mp hrid with hrid | hrid
    · exact h.returnedStream hrid hcall
    · rw [List.mem_singleton.mp hrid] at hcall
      cases h.fresh.1.symm.trans hcall
  · rw [List.mem_append, List.mem_singleton, h.returnedClient hclient]
    exact or_iff_left (h.client_ne_strm hclient σ.ctr)
  · rcases List.mem_append.mp hrid with hrid | hrid
    · exact hdraw.returnedNamed hrid
    · exact ⟨σ.ctr, Nat.lt_succ_self _, Or.inl (List.mem_singleton.mp hrid)⟩

/-- A new stream call has no entry yet. -/
theorem Inv.accept (h : Inv σ) (request : TtsRequestMsg) : Inv { σ with
    ctr := σ.ctr + 1
    streams := σ.streams.insert (generateRequestId "strm" σ.ctr) { request } } := by
  have hdraw := h.draw
  have hself : (σ.streams.insert (generateRequestId "strm" σ.ctr) { request }).lookup
      (generateRequestId "strm" σ.ctr) = some { request } := AList.lookup_insert _
  have hother {id : String} (hid : id ≠ generateRequestId "strm" σ.ctr) :
      (σ.streams.insert (generateRequestId "strm" σ.ctr) { request }).lookup id =
        σ.streams.lookup id := AList.lookup_insert_ne hid
  have hnoclient : σ.clients.lookup (generateRequestId "strm" σ.ctr) = none := by
    cases hclient : σ.clients.lookup (generateRequestId "strm" σ.ctr) with
    | none => rfl
    | some client => exact absurd rfl (h.client_ne_strm hclient σ.ctr)
  have habsent {id : String} (hid : (σ.streams.insert (generateRequestId "strm" σ.ctr)
      { request }).lookup id = none) : σ.streams.lookup id = none := by
    by_cases heq : id = generateRequestId "strm" σ.ctr
    · rw [heq]
      exact h.fresh.1
    · exact (hother heq).symm.trans hid
  refine { hdraw with
    streamNamed := fun {rid call} hcall => ?_
    stream := fun {rid call} hcall => ?_
    queueOwner := fun hid => h.queueOwner (habsent hid)
    writerOwner := fun hid hnone => h.writerOwner (habsent hid) hnone
    returnedStream := fun {rid call} hrid hcall => ?_ }
  · by_cases hrid : rid = generateRequestId "strm" σ.ctr
    · exact ⟨σ.ctr, Nat.lt_succ_self _, hrid⟩
    · exact hdraw.streamNamed ((hother hrid).symm.trans hcall)
  · by_cases hrid : rid = generateRequestId "strm" σ.ctr
    · subst hrid
      obtain rfl := Option.some.inj (hself.symm.trans hcall)
      exact ⟨h.queueOwner h.fresh.1, h.writerOwner h.fresh.1 hnoclient⟩
    · exact h.stream ((hother hrid).symm.trans hcall)
  · have hne : rid ≠ generateRequestId "strm" σ.ctr := by
      rintro rfl
      exact h.fresh_returned.1 hrid
    exact h.returnedStream hrid ((hother hne).symm.trans hcall)

/-! ### Moves of client handlers -/

/-- A client handler goes on; the maps are not touched. -/
theorem Inv.client_move (h : Inv σ) (hclient : σ.clients.lookup rid = some client)
    {client' : ClientHandler} {clients : Table String ClientHandler} {returned : List String}
    {channel : List TtsRequestMsg}
    (hself : clients.lookup rid = some client')
    (hother : ∀ {id}, id ≠ rid → clients.lookup id = σ.clients.lookup id)
    (hreturned : ∀ id, id ≠ rid → (id ∈ returned ↔ id ∈ σ.returned))
    (hend : rid ∈ returned ↔ client'.returned = true) :
    Inv { σ with clients := clients, returned := returned, requestChannel := channel } := by
  -- the same calls are client calls as before
  have hkept {id : String} (hid : ∃ c, σ.clients.lookup id = some c) :
      ∃ c, clients.lookup id = some c := by
    by_cases heq : id = rid
    · exact ⟨client', by rw [heq, hself]⟩
    · exact (hother heq).symm ▸ hid
  have hcame {id : String} {c : ClientHandler} (hc : clients.lookup id = some c) :
      ∃ c', σ.clients.lookup id = some c' := by
    by_cases heq : id = rid
    · exact ⟨client, by rw [heq, hclient]⟩
    · exact ⟨c, (hother heq).symm.trans hc⟩
  have hne {id : String} {call : StreamCall} (hcall : σ.streams.lookup id = some call) :
      id ≠ rid := by
    rintro rfl
    rw [h.not_both hcall] at hclient
    cases hclient
  refine { h with
    clientNamed := fun hc => (hcame hc).elim fun _ hc' => h.clientNamed hc'
    client := fun hc => (hcame hc).elim fun _ hc' => h.client hc'
    writerOwner := fun {id} hstream hnone => ?_
    returnedStream := fun {id call} hid hcall =>
      h.returnedStream ((hreturned id (hne hcall)).mp hid) hcall
    returnedClient := fun {id c} hc => ?_
    returnedNamed := fun {id} hid => ?_
    found := fun howner => ⟨hkept (h.found howner).1, (h.found howner).2⟩
    erasing := fun hd => hkept (h.erasing hd)
    served := fun hid => hkept (h.served hid) }
  · refine h.writerOwner hstream ?_
    by_contra hsome
    obtain ⟨c, hc⟩ := hkept (Option.ne_none_iff_exists'.mp hsome)
    cases hc.symm.trans hnone
  · by_cases heq : id = rid
    · subst heq
      obtain rfl := Option.some.inj (hself.symm.trans hc)
      exact hend
    · exact (hreturned id heq).trans (h.returnedClient ((hother heq).symm.trans hc))
  · by_cases heq : id = rid
    · obtain ⟨n, hn, hname⟩ := h.clientNamed hclient
      exact ⟨n, hn, Or.inr (heq.trans hname)⟩
    · exact h.returnedNamed ((hreturned id heq).mp hid)

/-- A client handler that returns. -/
theorem Inv.returnClient (h : Inv σ) (hclient : σ.clients.lookup rid = some client) :
    Inv (σ.returnClient rid client) :=
  h.client_move hclient (AList.lookup_insert _) AList.lookup_insert_ne
    (fun id hid => by simp [hid]) (by simp)

/-- One `Read` of a client handler. -/
theorem Inv.read (h : Inv σ) (hclient : σ.clients.lookup rid = some client)
    (chunk : Option Proto.TextChunk) : Inv (σ.read rid chunk client) := by
  have hend : rid ∈ σ.returned ↔ client.returned = true := h.returnedClient hclient
  unfold Service.read
  split
  · exact h.returnClient hclient
  · split
    · exact h.returnClient hclient
    · exact h.client_move hclient (AList.lookup_insert _) AList.lookup_insert_ne
        (fun _ _ => Iff.rfl) hend

/-- A new client call enters its callback. -/
theorem Inv.openClient (h : Inv σ) : Inv (σ.step .openClient) := by
  have hdraw := h.draw
  have hself : (σ.clients.insert (generateRequestId "cli" σ.ctr) {}).lookup
      (generateRequestId "cli" σ.ctr) = some {} := AList.lookup_insert _
  have hother {id : String} (hid : id ≠ generateRequestId "cli" σ.ctr) :
      (σ.clients.insert (generateRequestId "cli" σ.ctr) {}).lookup id = σ.clients.lookup id :=
    AList.lookup_insert_ne hid
  have hwriters {id : String} (hid : id ≠ generateRequestId "cli" σ.ctr) :
      (σ.writers.insert (generateRequestId "cli" σ.ctr) (generateRequestId "cli" σ.ctr)).lookup id =
        σ.writers.lookup id := AList.lookup_insert_ne hid
  have hkept {id : String} (hid : ∃ c, σ.clients.lookup id = some c) :
      ∃ c, (σ.clients.insert (generateRequestId "cli" σ.ctr) {}).lookup id = some c := by
    by_cases heq : id = generateRequestId "cli" σ.ctr
    · exact ⟨{}, by rw [heq, hself]⟩
    · exact (hother heq).symm ▸ hid
  have hunserved : generateRequestId "cli" σ.ctr ∉ σ.served := by
    intro hserved
    obtain ⟨client, hclient⟩ := h.served hserved
    cases h.fresh.2.symm.trans hclient
  refine { hdraw with
    clientNamed := fun {id c} hc => ?_
    stream := fun {id call} hcall => ?_
    client := fun {id c} hc => ?_
    writerOwner := fun {id} hstream hnone => ?_
    returnedClient := fun {id c} hc => ?_
    found := fun howner => ⟨hkept (h.found howner).1, (h.found howner).2⟩
    erasing := fun hd => hkept (h.erasing hd)
    served := fun hid => hkept (h.served hid) }
  · by_cases hid : id = generateRequestId "cli" σ.ctr
    · exact ⟨σ.ctr, Nat.lt_succ_self _, hid⟩
    · exact hdraw.clientNamed ((hother hid).symm.trans hc)
  · obtain ⟨n, -, hname⟩ := h.streamNamed hcall
    have hne : id ≠ generateRequestId "cli" σ.ctr := by
      rw [hname]
      exact generateRequestId_strm_ne_cli n σ.ctr
    exact ⟨(h.stream hcall).1, (hwriters hne).trans (h.stream hcall).2⟩
  · by_cases hid : id = generateRequestId "cli" σ.ctr
    · subst hid
      exact (AList.lookup_insert σ.writers).trans (if_neg hunserved).symm
    · exact (hwriters hid).trans (h.client ((hother hid).symm.trans hc))
  · have hne : id ≠ generateRequestId "cli" σ.ctr := by
      rintro rfl
      cases hself.symm.trans hnone
    exact (hwriters hne).trans (h.writerOwner hstream ((hother hne).symm.trans hnone))
  · by_cases hid : id = generateRequestId "cli" σ.ctr
    · subst hid
      obtain rfl := Option.some.inj (hself.symm.trans hc)
      exact iff_of_false h.fresh_returned.2 (by simp)
    · exact h.returnedClient ((hother hid).symm.trans hc)

/-! ### The dispatch of responses -/

/-- The dispatch moves to a place where it will invoke no callback. -/
theorem Inv.dispatch_move (h : Inv σ) {d : Dispatch} (hfound : ∀ w queue writer,
      d = .found w queue writer → queue ≠ none)
    (herasing : ∀ rid, d = .erasing rid → ∃ client, σ.clients.lookup rid = some client) :
    Inv { σ with dispatch := d } := by
  refine { h with
    found := fun {owner} howner => ?_
    foundName := fun {w writer} hd => absurd rfl (hfound w none writer hd)
    erasing := fun {rid} hd => herasing rid hd }
  cases d with
  | idle => cases howner
  | erasing rid => cases howner
  | found w queue writer =>
    cases queue with
    | none => exact absurd rfl (hfound w none writer rfl)
    | some queue => cases howner

/-- The lookup finds a callback without a queue for client calls only, because the entries of
a stream handler come and go together, the queue first. -/
theorem Inv.look (h : Inv σ) (w : WriteToClient) : Inv { σ with
    dispatch := .found w (σ.localQueues.lookup w.requestId) (σ.writers.lookup w.requestId) } := by
  cases hqueue : σ.localQueues.lookup w.requestId with
  | some queue =>
    refine h.dispatch_move (fun w' queue' writer' hd => ?_) fun rid hd => by cases hd
    obtain ⟨-, rfl, -⟩ := Dispatch.found.inj hd
    simp
  | none =>
    have hclient {owner : String} (howner : σ.writers.lookup w.requestId = some owner) :
        ∃ client, σ.clients.lookup w.requestId = some client := by
      cases hcall : σ.streams.lookup w.requestId with
      | some call =>
        obtain ⟨hq, hw⟩ := h.stream hcall
        rw [hqueue] at hq
        rw [howner] at hw
        cases hphase : call.phase <;> simp [hphase, queueOf, writerOf] at hq hw
      | none =>
        cases hclient : σ.clients.lookup w.requestId with
        | some client => exact ⟨client, rfl⟩
        | none => cases howner.symm.trans (h.writerOwner hcall hclient)
    have hentry {owner : String} (howner : σ.writers.lookup w.requestId = some owner) :
        owner = w.requestId ∧ w.requestId ∉ σ.served := by
      obtain ⟨client, hclient⟩ := hclient howner
      rw [h.client hclient] at howner
      split at howner
      · cases howner
      · exact ⟨(Option.some.inj howner).symm, ‹_›⟩
    refine { h with
      found := fun {owner} howner => ?_
      foundName := fun {w' writer} hd owner howner => ?_
      erasing := fun hd => by cases hd }
    · have howner : σ.writers.lookup w.requestId = some owner := howner
      obtain ⟨rfl, hserved⟩ := hentry howner
      exact ⟨hclient howner, hserved⟩
    · obtain ⟨rfl, -, rfl⟩ := Dispatch.found.inj hd
      exact (hentry howner).1

/-- Handing over a response. -/
theorem Inv.handOver (h : Inv σ) : Inv σ.handOver := by
  have hidle {σ : Service} (h : Inv σ) : Inv { σ with dispatch := .idle } :=
    h.dispatch_move (fun _ _ _ hd => by cases hd) fun _ hd => by cases hd
  unfold Service.handOver
  split
  · rename_i w queue writer hd
    cases hcall : σ.streams.lookup queue with
    | none =>
      have hsame : σ.streams.modify queue (fun call =>
          { call with localQueue := call.localQueue ++ [w] }) = σ.streams := by
        rw [Table.modify, hcall]
      rw [hsame]
      exact hidle h
    | some call =>
      have hself : (σ.streams.modify queue fun call =>
          { call with localQueue := call.localQueue ++ [w] }).lookup queue =
            some { call with localQueue := call.localQueue ++ [w] } := by
        rw [Table.lookup_modify, if_pos rfl, hcall, Option.map_some]
      have hleft : queue ∈ σ.returned → call.phase = .left := fun hrid =>
        h.returnedStream hrid hcall
      refine hidle (h.stream_move hcall hself ?_ (h.stream hcall).1 (h.stream hcall).2
        (fun _ _ => rfl) (fun _ _ => rfl) (fun _ _ => Iff.rfl) hleft)
      intro id hid
      rw [Table.lookup_modify, if_neg hid]
  · rename_i w owner hd
    have hinvoked : σ.invoked? = some owner := by rw [invoked?, hd]
    obtain ⟨⟨client, hclient⟩, -⟩ := h.found hinvoked
    have hname : owner = w.requestId := h.foundName hd owner rfl
    have hend : owner ∈ σ.returned ↔ client.returned = true := h.returnedClient hclient
    have hself : (σ.clients.modify owner fun client =>
        { client with written := client.written ++ [w] }).lookup owner =
          some { client with written := client.written ++ [w] } := by
      rw [Table.lookup_modify, if_pos rfl, hclient, Option.map_some]
    have hmoved : Inv { σ with clients := σ.clients.modify owner fun client =>
        { client with written := client.written ++ [w] } } :=
      h.client_move hclient hself (fun hid => by rw [Table.lookup_modify, if_neg hid])
        (fun _ _ => Iff.rfl) hend
    refine hmoved.dispatch_move (fun w' queue' writer' hd' => ?_) fun rid hd' => ?_
    · split at hd' <;> cases hd'
    · split at hd'
      · obtain rfl := Dispatch.erasing.inj hd'
        rw [← hname]
        exact ⟨_, hself⟩
      · cases hd'
  · exact hidle h
  · exact h

/-- Erasing the entry of a client call completes the dispatch of its final response. -/
theorem Inv.eraseWriter (h : Inv σ) (hd : σ.dispatch = .erasing rid) : Inv { σ with
    dispatch := .idle, writers := σ.writers.erase rid, served := σ.served ++ [rid] } := by
  obtain ⟨client, hclient⟩ := h.erasing hd
  refine { h with
    stream := fun {id call} hcall => ?_
    client := fun {id c} hc => ?_
    writerOwner := fun {id} hstream hnone => ?_
    found := fun howner => by cases howner
    foundName := fun hd => by cases hd
    erasing := fun hd => by cases hd
    served := fun {id} hid => ?_ }
  · have hne : id ≠ rid := by
      rintro rfl
      cases (h.not_both hcall).symm.trans hclient
    exact ⟨(h.stream hcall).1, (AList.lookup_erase_ne hne).trans (h.stream hcall).2⟩
  · by_cases hid : id = rid
    · subst hid
      rw [if_pos (List.mem_append_right _ List.mem_cons_self)]
      exact AList.lookup_erase _ _
    · rw [Table.lookup_erase_eq, if_neg hid, h.client hc]
      simp [hid]
  · rw [Table.lookup_erase_eq]
    split
    · rfl
    · exact h.writerOwner hstream hnone
  · rcases List.mem_append.mp hid with hid | hid
    · exact h.served hid
    · exact ⟨client, by rw [List.mem_singleton.mp hid]; exact hclient⟩

/-- Every move keeps the invariant. -/
theorem Inv.step (h : Inv σ) (ev : ServiceEvent) : Inv (σ.step ev) := by
  cases ev with
  | openStream request =>
    simp only [Service.step]
    split
    · exact h.refuse
    · exact h.accept _
  | send rid =>
    refine h.whenIn fun call hcall hphase => ?_
    exact h.advance hcall (by simp [hphase]) (by rw [hphase]; rfl) (by rw [hphase]; rfl)
  | registerQueue rid =>
    refine h.whenIn fun call hcall hphase => ?_
    refine h.stream_move hcall (AList.lookup_insert _) AList.lookup_insert_ne
      (AList.lookup_insert _) ?_ (fun _ hid => AList.lookup_insert_ne hid) (fun _ _ => rfl)
      (fun _ _ => Iff.rfl) fun hrid => absurd hrid (h.not_returned hcall (by simp [hphase]))
    rw [(h.stream hcall).2, hphase]
    rfl
  | registerWriter rid =>
    refine h.whenIn fun call hcall hphase => ?_
    refine h.stream_move hcall (AList.lookup_insert _) AList.lookup_insert_ne ?_
      (AList.lookup_insert _) (fun _ _ => rfl) (fun _ hid => AList.lookup_insert_ne hid)
      (fun _ _ => Iff.rfl) fun hrid => absurd hrid (h.not_returned hcall (by simp [hphase]))
    rw [(h.stream hcall).1, hphase]
    rfl
  | drain rid accepted =>
    refine h.whenIn fun call hcall hphase => ?_
    split
    · exact h.leave hcall ‹_›
    · rename_i hstays
      have hsame := (drain_phase call accepted).resolve_left hstays
      exact h.advance hcall (by simp [hphase]) (by rw [hsame]) (by rw [hsame])
  | abandon rid => exact h.whenIn fun call hcall _ => h.leave hcall rfl
  | openClient => exact h.openClient
  | read rid chunk =>
    simp only [Service.step]
    split
    · rename_i client hclient
      split
      · exact h
      · exact h.read hclient chunk
    · exact h
  | look w =>
    simp only [Service.step]
    split
    · exact h.look w
    · exact h
  | handOver => exact h.handOver
  | eraseWriter =>
    simp only [Service.step]
    split
    · exact h.eraseWriter ‹_›
    · exact h

/-- A new service has no entries. -/
theorem start_inv : Inv {} where
  streamNamed := fun hcall => by cases hcall
  clientNamed := fun hclient => by cases hclient
  stream := fun hcall => by cases hcall
  client := fun hclient => by cases hclient
  queueOwner := fun _ => rfl
  writerOwner := fun _ _ => rfl
  returnedStream := fun hrid => absurd hrid List.not_mem_nil
  returnedClient := fun hclient => by cases hclient
  returnedNamed := fun hrid => absurd hrid List.not_mem_nil
  found := fun howner => by cases howner
  foundName := fun hd => by cases hd
  erasing := fun hd => by cases hd
  served := fun hrid => absurd hrid List.not_mem_nil

/-! ### Returns -/

/-- A move after which no more client handlers have returned. -/
theorem Tidy.of_returned {σ' : Service} (htidy : σ.Tidy)
    (hclients : ∀ {rid client'}, σ'.clients.lookup rid = some client' → client'.returned = true →
      ∃ client, σ.clients.lookup rid = some client ∧ client.returned = true)
    (hserved : ∀ rid ∈ σ.served, rid ∈ σ'.served) : σ'.Tidy := by
  intro rid client' hclient' hreturned'
  obtain ⟨client, hclient, hreturned⟩ := hclients hclient' hreturned'
  exact hserved rid (htidy rid client hclient hreturned)

/-- A stream handler touches no client call. -/
theorem whenIn_clients {phase : StreamPhase} {f : StreamCall → Service}
    (hf : ∀ call, (f call).clients = σ.clients ∧ (f call).served = σ.served) :
    (σ.whenIn rid phase f).clients = σ.clients ∧ (σ.whenIn rid phase f).served = σ.served := by
  unfold whenIn
  split
  · split
    · exact hf _
    · exact ⟨rfl, rfl⟩
  · exact ⟨rfl, rfl⟩

/-- A chunk that `Read` returns does not end the handler: the parser accepts it. -/
theorem read_some (chunk : Proto.TextChunk) :
    (σ.read rid (some chunk) client).clients =
        σ.clients.insert rid { client with first := false } ∧
      (σ.read rid (some chunk) client).served = σ.served := by
  obtain ⟨r, hparse, -⟩ := parseChunk_default chunk rid client.first
  simp only [Service.read, hparse, and_self]

/-- A handler that has not returned and goes on leaves the service tidy. -/
theorem Tidy.insert {σ' : Service} (htidy : σ.Tidy) (hactive : client.returned = false)
    (hclients : σ'.clients = σ.clients.insert rid client) (hserved : σ'.served = σ.served) :
    σ'.Tidy := by
  refine htidy.of_returned (fun {id client'} hclient' hreturned' => ?_) fun id hid => hserved ▸ hid
  rw [hclients] at hclient'
  by_cases hid : id = rid
  · rw [hid, AList.lookup_insert] at hclient'
    obtain rfl := Option.some.inj hclient'
    rw [hactive] at hreturned'
    cases hreturned'
  · exact ⟨client', (AList.lookup_insert_ne hid).symm.trans hclient', hreturned'⟩

/-- The moves other than `Read` keep the service tidy. -/
theorem Tidy.step (htidy : σ.Tidy) {ev : ServiceEvent} (hev : ∀ rid chunk, ev ≠ .read rid chunk) :
    (σ.step ev).Tidy := by
  have hsame {σ' : Service} (hframe : σ'.clients = σ.clients ∧ σ'.served = σ.served) :
      σ'.Tidy :=
    htidy.of_returned (fun hclient hreturned => ⟨_, hframe.1 ▸ hclient, hreturned⟩)
      fun _ hid => hframe.2.symm ▸ hid
  cases ev with
  | openStream request =>
    simp only [Service.step]
    split
    · exact hsame ⟨rfl, rfl⟩
    · exact hsame ⟨rfl, rfl⟩
  | send rid => exact hsame (whenIn_clients fun _ => ⟨rfl, rfl⟩)
  | registerQueue rid => exact hsame (whenIn_clients fun _ => ⟨rfl, rfl⟩)
  | registerWriter rid => exact hsame (whenIn_clients fun _ => ⟨rfl, rfl⟩)
  | drain rid accepted =>
    refine hsame (whenIn_clients fun call => ?_)
    split <;> exact ⟨rfl, rfl⟩
  | abandon rid => exact hsame (whenIn_clients fun _ => ⟨rfl, rfl⟩)
  | openClient => exact Tidy.insert htidy rfl rfl rfl
  | read rid chunk => exact absurd rfl (hev rid chunk)
  | look w =>
    simp only [Service.step]
    split <;> exact hsame ⟨rfl, rfl⟩
  | handOver =>
    simp only [Service.step, Service.handOver]
    split
    · exact hsame ⟨rfl, rfl⟩
    · refine htidy.of_returned (fun {id client'} hclient' hreturned' => ?_) fun _ hid => hid
      rw [Table.lookup_modify] at hclient'
      split at hclient'
      · obtain ⟨client, hclient, rfl⟩ := Option.map_eq_some_iff.mp hclient'
        exact ⟨client, hclient, hreturned'⟩
      · exact ⟨client', hclient', hreturned'⟩
    · exact hsame ⟨rfl, rfl⟩
    · exact htidy
  | eraseWriter =>
    simp only [Service.step]
    split
    · exact htidy.of_returned (fun hclient hreturned => ⟨_, hclient, hreturned⟩)
        fun _ hid => List.mem_append_left _ hid
    · exact htidy

/-- A move keeps the service tidy exactly if no client handler returns unserved. -/
theorem Tidy.step_iff (htidy : σ.Tidy) (ev : ServiceEvent) :
    (σ.step ev).Tidy ↔ σ.ReturnsServed ev := by
  cases ev with
  | read rid chunk =>
    simp only [Service.step]
    cases hclient : σ.clients.lookup rid with
    | none => cases chunk <;> simp [ReturnsServed, hclient, htidy]
    | some client =>
      cases hreturned : client.returned with
      | true => cases chunk <;> simp [ReturnsServed, hclient, hreturned, htidy]
      | false =>
        cases chunk with
        | some chunk =>
          obtain ⟨hclients, hserved⟩ := @read_some σ rid client chunk
          have hactive : ({ client with first := false } : ClientHandler).returned = false :=
            hreturned
          simp only [hreturned, Bool.false_eq_true, if_false]
          exact iff_of_true (htidy.insert hactive hclients hserved) trivial
        | none =>
          have hself : (σ.returnClient rid client).clients.lookup rid =
              some { client with returned := true } := AList.lookup_insert _
          simp only [Service.read, ReturnsServed, hclient, Option.mem_def, Option.some.injEq,
            forall_eq', hreturned, Bool.false_eq_true, if_false, forall_true_left]
          constructor
          · exact fun htidy' => htidy' rid _ hself rfl
          · intro hserved id client' hclient' hreturned'
            by_cases hid : id = rid
            · exact hid ▸ hserved
            · exact htidy id client' ((AList.lookup_insert_ne hid).symm.trans hclient') hreturned'
  | _ => exact iff_of_true (htidy.step fun _ _ hev => by cases hev) trivial

/-- **No entry outlives its call** exactly as long as every client handler whose `Read`
returns false has had the dispatch of a final response completed before. Stream handlers
never leave an entry behind, on any of their return paths. -/
theorem registry_clean_iff (events : List ServiceEvent) :
    Along step (fun σ ev => (σ.step ev).Clean) {} events ↔ Along step ReturnsServed {} events := by
  have hstart : Inv {} ∧ Tidy {} := ⟨start_inv, fun _ _ hclient => by cases hclient⟩
  refine along_congr_of_invariant (I := fun σ => Inv σ ∧ σ.Tidy) hstart ?_ ?_
  · exact fun σ ev h hclean => ⟨h.1.step ev, (h.1.step ev).clean_iff.mp hclean⟩
  · exact fun σ ev h => ((h.1.step ev).clean_iff).trans (h.2.step_iff ev)

/-- A client sends one text and closes its side; then its response is dispatched. -/
def hangUpRun : List ServiceEvent :=
  [.openClient, .read "cli-1" (some (.text "hi")), .read "cli-1" none,
    .look { requestId := "cli-1", isFinal := true }]

/-- The handler has returned, its entry stands, and the callback that wrote to its stream is
about to be invoked. -/
theorem hangUpRun_outlives :
    ¬Along step (fun σ ev => (σ.step ev).Clean) {} hangUpRun ∧
      (hangUpRun.foldl step {}).returned = ["cli-1"] ∧
      (hangUpRun.foldl step {}).writers.lookup "cli-1" = some "cli-1" ∧
      (hangUpRun.foldl step {}).invoked? = some "cli-1" := by
  have hreturned : (hangUpRun.foldl step {}).returned = ["cli-1"] := by decide +kernel
  have hwriter : (hangUpRun.foldl step {}).writers.lookup "cli-1" = some "cli-1" := by
    decide +kernel
  refine ⟨fun hclean => ?_, hreturned, hwriter, by decide +kernel⟩
  have hlast : Service.Clean (hangUpRun.foldl step {}) := hclean.2.2.2.1
  have hnone := hlast.writers "cli-1" (by rw [hreturned]; exact List.mem_cons_self)
  cases hwriter.symm.trans hnone

end Service

end TtsServer
