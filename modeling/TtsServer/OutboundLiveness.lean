import TtsServer.OutboundFrames
import TtsServer.Lib.LeadsTo

/-!
# Pumped frames are written

The write queue of a connection is emptied by callbacks that must be asked for. A callback
writes one payload, and asks for the next one if it finds the queue not empty; the thread
that pushes a payload asks as well, after it has let go of the lock. Between the two no
payload is forgotten: as long as a queue is not empty, a callback has been asked for, or is
under way, or the dispatcher is about to ask.

The rest is up to libwebsockets, and is a hypothesis (`LwsServes`): the handle is there when
`send_text` asks, a callback that has been asked for is made, and a callback that is under way goes
on. Then everything that is on the path of a session is written, if its client stays open and the
one dispatcher goes on.
-/

namespace TtsServer

open Lib

/-! ### One connection -/

/-- A bound for the number of steps before a callback is over. -/
def WriteCallback.stepsLeft : WriteCallback → ℕ
  | .popped _ => 2
  | .established | .written => 1
  | .none => 0

namespace LwsWriteSide

variable {c c' : LwsWriteSide} {k : ℕ}

/-- A payload that is to be written stands at this place of the queue. -/
def Waiting (k : ℕ) (c : LwsWriteSide) : Prop := ∃ p, c.writeQueue[k]? = some p ∧ p ≠ ""

/-- A payload that is to be written has been popped. -/
def Holding (c : LwsWriteSide) : Prop := ∃ p, c.callback = .popped p ∧ p ≠ ""

/-- What may happen to a client apart from its callbacks and from being closed. -/
structure Quiet (c c' : LwsWriteSide) : Prop where
  wire : c'.wire = c.wire
  callback : c'.callback = c.callback
  connected : c'.connected = c.connected
  requested : c.requested = true → c'.requested = true
  writeQueue : ∃ more, c'.writeQueue = c.writeQueue ++ more

/-- Nothing happens. -/
theorem Quiet.refl (c : LwsWriteSide) : c.Quiet c :=
  ⟨rfl, rfl, rfl, fun h => h, [], (List.append_nil _).symm⟩

/-- What a move may do to the client of a session. -/
inductive Moved (sid : String) (c : LwsWriteSide) : OutboundEvent → LwsWriteSide → Prop
  | serve : Moved sid c (.serve sid) c.serve
  | writeable : Moved sid c (.writeable sid) c.writeable
  | establish : Moved sid c (.establish sid) c.establish
  | close : Moved sid c (.close sid) c.closeInternal
  | quiet {ev : OutboundEvent} {after : LwsWriteSide} (hserve : ev ≠ .serve sid)
      (hwriteable : ev ≠ .writeable sid) (hquiet : c.Quiet after)
      (hwsi : (∀ live, ev ≠ .setWsi sid live) → after.wsi = c.wsi) : Moved sid c ev after

variable {sid : String} {ev : OutboundEvent}

/-- More payloads do not change what stands in the queue. -/
theorem Waiting.of_append (h : c.Waiting k)
    (hqueue : ∃ more, c'.writeQueue = c.writeQueue ++ more) : c'.Waiting k := by
  obtain ⟨p, hp, hne⟩ := h
  obtain ⟨more, hmore⟩ := hqueue
  refine ⟨p, ?_, hne⟩
  rw [hmore, List.getElem?_append_left (List.getElem?_eq_some_iff.mp hp).1, hp]

/-- A callback that begins takes every payload of the queue one place further. -/
theorem Waiting.writeable (h : c.Waiting k) (hcallback : c.callback = .none) :
    c.writeable.wire = c.wire ∧
      (c.writeable.Holding ∨ ∃ j < k, c.writeable.Waiting j ∧ c.writeable.callback ≠ .none) := by
  obtain ⟨p, hp, hne⟩ := h
  rw [LwsWriteSide.writeable, if_pos hcallback]
  refine ⟨rfl, ?_⟩
  cases hqueue : c.writeQueue with
  | nil => simp [hqueue] at hp
  | cons first rest =>
    rw [hqueue] at hp
    cases k with
    | zero =>
      obtain rfl : first = p := by simpa using hp
      exact Or.inl ⟨first, rfl, hne⟩
    | succ k => exact Or.inr ⟨k, Nat.lt_succ_self k, ⟨p, by simpa using hp, hne⟩, nofun⟩

/-- A callback that is under way keeps the queue, the client and what has been asked for. -/
theorem serve_frame (c : LwsWriteSide) : c.serve.writeQueue = c.writeQueue ∧
    c.serve.connected = c.connected ∧ (c.requested = true → c.serve.requested = true) := by
  unfold LwsWriteSide.serve
  split
  · exact ⟨rfl, rfl, fun h => h⟩
  · exact ⟨rfl, rfl, fun _ => rfl⟩
  · exact ⟨rfl, rfl, fun h => h⟩
  · exact ⟨rfl, rfl, fun h => by simp [h]⟩

/-- It writes what it holds. -/
theorem Holding.serve (h : c.Holding) : c.serve.wire.length = c.wire.length + 1 := by
  obtain ⟨p, hcallback, hne⟩ := h
  simp [LwsWriteSide.serve, hcallback, hne]

/-- It writes nothing else. -/
theorem wire_serve (h : ¬ c.Holding) : c.serve.wire = c.wire := by
  unfold LwsWriteSide.serve
  split
  · rfl
  · rfl
  · next p hcallback =>
    have hempty : p = "" := by
      by_contra hne
      exact h ⟨p, hcallback, hne⟩
    exact if_pos hempty
  · rfl

/-- The other callback leaves the queue and the wire alone. -/
theorem establish_frame (c : LwsWriteSide) : c.establish.wire = c.wire ∧
    c.establish.writeQueue = c.writeQueue ∧ c.establish.requested = c.requested ∧
    (c.callback ≠ .none → c.establish = c) ∧
    (c.connected = true → c.establish.connected = true) := by
  unfold LwsWriteSide.establish
  split
  · next hnone => exact ⟨rfl, rfl, rfl, fun hne => absurd hnone hne, fun _ => rfl⟩
  · exact ⟨rfl, rfl, rfl, fun _ => rfl, fun h => h⟩

/-- A payload that is to be written is written, popped, brought further, or it stays where it is,
and what has been asked for stays asked for. -/
theorem Moved.waiting (h : Moved sid c ev c') (hev : ev ≠ .close sid) (hwaiting : c.Waiting k) :
    c.wire.length < c'.wire.length ∨ c'.wire = c.wire ∧
      (c'.Holding ∨ (∃ j < k, c'.Waiting j ∧ c'.callback ≠ .none) ∨
        c'.Waiting k ∧ (c.requested = true → c'.requested = true)) := by
  cases h with
  | serve =>
    obtain ⟨hqueue, -, hrequested⟩ := c.serve_frame
    by_cases hholding : c.Holding
    · exact Or.inl (by rw [hholding.serve]; omega)
    · refine Or.inr ⟨wire_serve hholding, Or.inr (Or.inr ⟨?_, hrequested⟩)⟩
      exact hwaiting.of_append ⟨[], by rw [hqueue, List.append_nil]⟩
  | writeable =>
    right
    by_cases hcallback : c.callback = .none
    · obtain ⟨hwire, hbegun⟩ := hwaiting.writeable hcallback
      exact ⟨hwire, hbegun.imp_right Or.inl⟩
    · rw [LwsWriteSide.writeable, if_neg hcallback]
      exact ⟨rfl, Or.inr (Or.inr ⟨hwaiting, fun h => h⟩)⟩
  | establish =>
    obtain ⟨hwire, hqueue, hrequested, -, -⟩ := c.establish_frame
    refine Or.inr ⟨hwire, Or.inr (Or.inr ⟨?_, fun h => hrequested.trans h⟩)⟩
    exact hwaiting.of_append ⟨[], by rw [hqueue, List.append_nil]⟩
  | close => exact absurd rfl hev
  | quiet hserve hwriteable hquiet hwsi =>
    exact Or.inr ⟨hquiet.wire, Or.inr (Or.inr ⟨hwaiting.of_append hquiet.writeQueue,
      hquiet.requested⟩)⟩

/-- A callback that is under way and finds the queue not empty asks for the next one. -/
theorem Moved.underWay (h : Moved sid c ev c') (hev : ev ≠ .close sid) (hwaiting : c.Waiting k)
    (hcallback : c.callback ≠ .none) :
    c.wire.length < c'.wire.length ∨ c'.wire = c.wire ∧ c'.Waiting k ∧
      (c'.requested = true ∨ c'.callback ≠ .none ∧
        c'.callback.stepsLeft ≤ c.callback.stepsLeft ∧
        (ev = .serve sid → c'.callback.stepsLeft < c.callback.stepsLeft)) := by
  cases h with
  | serve =>
    by_cases hholding : c.Holding
    · exact Or.inl (by rw [hholding.serve]; omega)
    have hqueue : c.writeQueue.isEmpty = false := by
      obtain ⟨p, hp, -⟩ := hwaiting
      rw [List.isEmpty_eq_false_iff]
      exact List.ne_nil_of_mem (List.mem_of_getElem? hp)
    refine Or.inr ⟨wire_serve hholding,
      hwaiting.of_append ⟨[], by rw [c.serve_frame.1, List.append_nil]⟩, ?_⟩
    unfold LwsWriteSide.serve
    cases hphase : c.callback with
    | none => exact absurd hphase hcallback
    | established => exact Or.inl rfl
    | popped p => exact Or.inr ⟨nofun, Nat.le_succ 1, fun _ => Nat.lt_succ_self 1⟩
    | written => exact Or.inl (by simp [hqueue])
  | writeable =>
    rw [LwsWriteSide.writeable, if_neg hcallback]
    exact Or.inr ⟨rfl, hwaiting, Or.inr ⟨hcallback, le_rfl, nofun⟩⟩
  | establish =>
    rw [c.establish_frame.2.2.2.1 hcallback]
    exact Or.inr ⟨rfl, hwaiting, Or.inr ⟨hcallback, le_rfl, nofun⟩⟩
  | close => exact absurd rfl hev
  | quiet hserve hwriteable hquiet hwsi =>
    refine Or.inr ⟨hquiet.wire, hwaiting.of_append hquiet.writeQueue, Or.inr ?_⟩
    rw [hquiet.callback]
    exact ⟨hcallback, le_rfl, fun h => absurd h hserve⟩

/-- A payload that has been popped is written by the next step of its callback. -/
theorem Moved.holding (h : Moved sid c ev c') (hev : ev ≠ .close sid) (hholding : c.Holding) :
    c.wire.length < c'.wire.length ∨ c'.wire = c.wire ∧ c'.Holding ∧ ev ≠ .serve sid := by
  have hcallback : c.callback ≠ .none := by
    obtain ⟨p, hp, -⟩ := hholding
    simp [hp]
  cases h with
  | serve => exact Or.inl (by rw [hholding.serve]; omega)
  | writeable =>
    rw [LwsWriteSide.writeable, if_neg hcallback]
    exact Or.inr ⟨rfl, hholding, nofun⟩
  | establish =>
    rw [c.establish_frame.2.2.2.1 hcallback]
    exact Or.inr ⟨rfl, hholding, nofun⟩
  | close => exact absurd rfl hev
  | quiet hserve hwriteable hquiet hwsi =>
    refine Or.inr ⟨hquiet.wire, ?_, hserve⟩
    rw [Holding, hquiet.callback]
    exact hholding

/-- The callback for writing begins. -/
theorem Moved.eq_writeable (h : Moved sid c (.writeable sid) c') : c' = c.writeable := by
  cases h with
  | writeable => rfl
  | quiet hserve hwriteable hquiet hwsi => exact absurd rfl hwriteable

/-- The callback that is under way goes on. -/
theorem Moved.eq_serve (h : Moved sid c (.serve sid) c') : c' = c.serve := by
  cases h with
  | serve => rfl
  | quiet hserve hwriteable hquiet hwsi => exact absurd rfl hserve

/-- The dispatcher does not get into a callback. -/
theorem Moved.callback_dispatch (h : Moved sid c .dispatch c') : c'.callback = c.callback := by
  cases h with
  | quiet hserve hwriteable hquiet hwsi => exact hquiet.callback

/-- Only libwebsockets touches the handle. -/
theorem Moved.wsi (h : Moved sid c ev c') (hev : ∀ live, ev ≠ .setWsi sid live) :
    c'.wsi = c.wsi := by
  cases h with
  | serve =>
    unfold LwsWriteSide.serve
    split <;> rfl
  | writeable =>
    unfold LwsWriteSide.writeable
    split <;> rfl
  | establish =>
    unfold LwsWriteSide.establish
    split <;> rfl
  | close =>
    unfold LwsWriteSide.closeInternal
    split <;> rfl
  | quiet hserve hwriteable hquiet hwsi => exact hwsi hev

/-- Nothing that has been written is taken back. -/
theorem Moved.wire (h : Moved sid c ev c') : c.wire.length < c'.wire.length ∨ c'.wire = c.wire := by
  cases h with
  | serve =>
    by_cases hholding : c.Holding
    · exact Or.inl (by rw [hholding.serve]; omega)
    · exact Or.inr (wire_serve hholding)
  | writeable =>
    unfold LwsWriteSide.writeable
    split <;> exact Or.inr rfl
  | establish => exact Or.inr c.establish_frame.1
  | close =>
    unfold LwsWriteSide.closeInternal
    split <;> exact Or.inr rfl
  | quiet hserve hwriteable hquiet hwsi => exact Or.inr hquiet.wire

/-- A client stays open until it is closed. -/
theorem Moved.connected (h : Moved sid c ev c') (hev : ev ≠ .close sid)
    (hopen : c.connected = true) : c'.connected = true := by
  cases h with
  | serve => exact c.serve_frame.2.1.trans hopen
  | writeable =>
    unfold LwsWriteSide.writeable
    split <;> exact hopen
  | establish => exact c.establish_frame.2.2.2.2 hopen
  | close => exact absurd rfl hev
  | quiet hserve hwriteable hquiet hwsi => exact hquiet.connected.trans hopen

/-- When the queue is not empty, a callback has been asked for, or is under way, or is about to be
asked for. -/
def Armed (asking : Prop) (c : LwsWriteSide) : Prop :=
  c.writeQueue ≠ [] → c.requested = true ∨ c.callback ≠ .none ∨ asking

variable {asking : Prop}

/-- Asking makes up for what was due. -/
theorem armed_request (hwsi : c.wsi = true) : Armed asking c.request :=
  fun _ => Or.inl (by simp [LwsWriteSide.request, hwsi])

/-- A connection that is established is in a callback. -/
theorem Armed.establish (h : Armed asking c) : Armed asking c.establish := by
  unfold LwsWriteSide.establish
  split
  · exact fun _ => Or.inr (Or.inl nofun)
  · exact h

/-- So is one that may be written to. -/
theorem Armed.writeable (h : Armed asking c) : Armed asking c.writeable := by
  unfold LwsWriteSide.writeable
  split
  · exact fun _ => Or.inr (Or.inl nofun)
  · exact h

/-- A client that is closed does not take back what it has asked for. -/
theorem Armed.closeInternal (h : Armed asking c) : Armed asking c.closeInternal := by
  unfold LwsWriteSide.closeInternal
  split
  · exact h
  · exact fun hqueue => (h hqueue).imp_left fun hr => by simp [hr]

/-- A callback asks for another one if the queue is not empty. -/
theorem Armed.serve (h : Armed asking c) : Armed asking c.serve := by
  unfold LwsWriteSide.serve
  split
  · exact h
  · exact fun _ => Or.inl rfl
  · exact fun _ => Or.inr (Or.inl nofun)
  · intro hqueue
    have hnonempty : c.writeQueue.isEmpty = false := by simpa using hqueue
    exact Or.inl (by simp [hnonempty])

end LwsWriteSide

namespace WsTaskScheduler

variable {σ : WsTaskScheduler} {sid : String} {c c' : LwsWriteSide} {ev : OutboundEvent}
  {f : LwsWriteSide → LwsWriteSide}

/-! ### One move -/

/-- The client of a session after an operation on a client. -/
theorem lookup_modifyClient (id : String) :
    (σ.modifyClient id f).clients.lookup sid =
      (σ.clients.lookup sid).map fun c => if sid = id then f c else c := by
  unfold modifyClient
  rw [Table.lookup_modify]
  split <;> simp

/-- A move that leaves the client of a session alone, and is no callback to it. -/
theorem exists_moved_of_lookup (hclient : σ.clients.lookup sid = some c)
    (hserve : ev ≠ .serve sid) (hwriteable : ev ≠ .writeable sid) :
    ∃ c', σ.clients.lookup sid = some c' ∧ c.Moved sid ev c' :=
  ⟨c, hclient, .quiet hserve hwriteable (.refl c) fun _ => rfl⟩

/-- A move of one client. -/
theorem exists_moved_of_modifyClient (hclient : σ.clients.lookup sid = some c) {id : String}
    (hown : sid = id → c.Moved sid ev (f c)) (hother : sid ≠ id → c.Moved sid ev c) :
    ∃ c', (σ.modifyClient id f).clients.lookup sid = some c' ∧ c.Moved sid ev c' := by
  refine ⟨_, by rw [lookup_modifyClient, hclient, Option.map_some], ?_⟩
  split
  · next hid => exact hown hid
  · next hid => exact hother hid

/-- The client of a session after a step of `dispatch_pending`. -/
theorem lookup_dispatch (hclient : σ.clients.lookup sid = some c) :
    ∃ c', σ.dispatch.clients.lookup sid = some c' ∧ c.Moved sid .dispatch c' := by
  have hother : c.Moved sid .dispatch c := .quiet (by simp) (by simp) (.refl c) fun _ => rfl
  cases hphase : σ.phase with
  | looking =>
    cases hdrained : σ.drained with
    | nil =>
      rw [dispatch_swap hphase hdrained]
      exact ⟨c, hclient, hother⟩
    | cons o rest =>
      rw [dispatch_frame hphase hdrained]
      split <;> exact ⟨c, hclient, hother⟩
  | sending o =>
    rw [dispatch_sending hphase]
    refine exists_moved_of_modifyClient hclient (fun _ => ?_) fun _ => hother
    exact .quiet (by simp) (by simp) ⟨rfl, rfl, rfl, fun h => h, _, rfl⟩ fun _ => rfl
  | pushed id =>
    rw [dispatch_pushed hphase]
    refine exists_moved_of_modifyClient hclient (fun _ => ?_) fun _ => hother
    refine .quiet (by simp) (by simp) ⟨rfl, rfl, rfl, fun h => ?_, [], ?_⟩ fun _ => rfl
    · simp [LwsWriteSide.request, h]
    · exact (List.append_nil _).symm

/-- The client of a session after a move. -/
theorem lookup_step (hclient : σ.clients.lookup sid = some c) (ev : OutboundEvent) :
    ∃ c', (σ.step ev).clients.lookup sid = some c' ∧ c.Moved sid ev c' := by
  cases ev with
  | pump f =>
    simp only [step]
    split <;> exact exists_moved_of_lookup hclient (by simp) (by simp)
  | dispatch => exact lookup_dispatch hclient
  | addClient id =>
    simp only [step]
    split
    · next hnone =>
      refine ⟨c, ?_, .quiet (by simp) (by simp) (.refl c) fun _ => rfl⟩
      rw [Table.lookup_insert_eq, if_neg ?_, hclient]
      rintro rfl
      cases hnone.symm.trans hclient
    · exact exists_moved_of_lookup hclient (by simp) (by simp)
  | setWsi id live =>
    refine exists_moved_of_modifyClient hclient (fun hid => ?_)
      fun _ => .quiet (by simp) (by simp) (.refl c) fun _ => rfl
    subst hid
    exact .quiet (by simp) (by simp) ⟨rfl, rfl, rfl, fun h => h, [], (List.append_nil _).symm⟩
      fun hne => absurd rfl (hne live)
  | establish id =>
    exact exists_moved_of_modifyClient hclient (fun hid => hid ▸ .establish)
      fun _ => .quiet (by simp) (by simp) (.refl c) fun _ => rfl
  | writeable id =>
    refine exists_moved_of_modifyClient hclient (fun hid => hid ▸ .writeable)
      fun hid => .quiet (by simp) ?_ (.refl c) fun _ => rfl
    exact fun heq => hid (OutboundEvent.writeable.inj heq).symm
  | serve id =>
    refine exists_moved_of_modifyClient hclient (fun hid => hid ▸ .serve)
      fun hid => .quiet ?_ (by simp) (.refl c) fun _ => rfl
    exact fun heq => hid (OutboundEvent.serve.inj heq).symm
  | close id =>
    exact exists_moved_of_modifyClient hclient (fun hid => hid ▸ .close)
      fun _ => .quiet (by simp) (by simp) (.refl c) fun _ => rfl

/-- A client stays open until it is closed. -/
theorem isOpen_step (hopen : σ.isOpen sid = true) (hev : ev ≠ .close sid) :
    (σ.step ev).isOpen sid = true := by
  obtain ⟨c, hclient, hconnected⟩ := isOpen_iff.mp hopen
  obtain ⟨c', hclient', hmoved⟩ := lookup_step hclient ev
  exact isOpen_iff.mpr ⟨c', hclient', hmoved.connected hev hconnected⟩

/-- The handle of the session's connection is set when `send_text` is about to ask for a
callback. -/
def HandleSet (sid : String) (σ : WsTaskScheduler) (ev : OutboundEvent) : Prop :=
  ev = .dispatch → σ.phase = .pushed sid → (σ.side sid).wsi = true

instance (sid : String) (σ : WsTaskScheduler) : DecidablePred (HandleSet sid σ) := fun ev =>
  inferInstanceAs (Decidable (ev = .dispatch → _ → _))

/-- The queue of the session's client is armed; the dispatcher asks for the one that it has pushed
to. -/
def Armed (sid : String) (σ : WsTaskScheduler) : Prop :=
  ∀ c, σ.clients.lookup sid = some c → c.Armed (σ.phase = .pushed sid)

/-- An operation that keeps every queue armed. -/
theorem Armed.modifyClient (h : Armed sid σ) (id : String)
    (hf : ∀ {c : LwsWriteSide}, c.Armed (σ.phase = .pushed sid) →
      (f c).Armed (σ.phase = .pushed sid)) : Armed sid (σ.modifyClient id f) := by
  intro c' hclient'
  rw [lookup_modifyClient] at hclient'
  obtain ⟨c, hclient, rfl⟩ := Option.map_eq_some_iff.mp hclient'
  split
  · exact hf (h c hclient)
  · exact h c hclient

/-- A move that leaves the clients alone, and the dispatcher with no more to ask for. -/
theorem Armed.frame {σ' : WsTaskScheduler} (h : Armed sid σ) (hclients : σ'.clients = σ.clients)
    (hphase : σ.phase = .pushed sid → σ'.phase = .pushed sid) : Armed sid σ' := by
  intro c hclient hqueue
  rw [hclients] at hclient
  exact (h c hclient hqueue).imp_right fun hawake => hawake.imp_right hphase

/-- The dispatcher keeps the queue armed, if it finds the handle set. -/
theorem Armed.dispatch (h : Armed sid σ) (hhandle : HandleSet sid σ .dispatch) :
    Armed sid σ.dispatch := by
  cases hphase : σ.phase with
  | looking =>
    have hnone : σ.phase ≠ .pushed sid := by simp [hphase]
    cases hdrained : σ.drained with
    | nil =>
      rw [dispatch_swap hphase hdrained]
      exact h.frame rfl fun hpushed => absurd hpushed hnone
    | cons o rest =>
      rw [dispatch_frame hphase hdrained]
      split <;> exact h.frame rfl fun hpushed => absurd hpushed hnone
  | sending o =>
    rw [dispatch_sending hphase]
    intro c' hclient'
    have hlookup := @lookup_modifyClient σ sid (LwsWriteSide.push o.frame.payloadJson) o.sessionId
    rw [hlookup] at hclient'
    obtain ⟨c, hclient, rfl⟩ := Option.map_eq_some_iff.mp hclient'
    split
    · next hid => exact fun _ => Or.inr (Or.inr (by rw [hid]))
    · intro hqueue
      refine (h c hclient hqueue).imp_right fun hawake => Or.inl (hawake.resolve_right ?_)
      simp [hphase]
  | pushed id =>
    rw [dispatch_pushed hphase]
    intro c' hclient'
    have hlookup := @lookup_modifyClient σ sid LwsWriteSide.request id
    rw [hlookup] at hclient'
    obtain ⟨c, hclient, rfl⟩ := Option.map_eq_some_iff.mp hclient'
    split
    · next hid =>
      have hside : σ.side sid = c := by
        rw [side, hclient]
        rfl
      exact LwsWriteSide.armed_request (hside ▸ hhandle rfl (by rw [hphase, hid]))
    · next hid =>
      intro hqueue
      refine (h c hclient hqueue).imp_right fun hawake => Or.inl (hawake.resolve_right ?_)
      simpa [hphase] using Ne.symm hid

/-- Every move keeps the queue armed, if the handle is set when it is needed. -/
theorem Armed.step (h : Armed sid σ) (hhandle : HandleSet sid σ ev) : Armed sid (σ.step ev) := by
  cases ev with
  | pump f =>
    simp only [WsTaskScheduler.step]
    split
    · exact h.frame rfl fun hpushed => hpushed
    · exact h
  | dispatch => exact h.dispatch hhandle
  | addClient id =>
    simp only [WsTaskScheduler.step]
    split
    · intro c hclient
      simp only [Table.lookup_insert_eq] at hclient
      split at hclient
      · rw [← Option.some.inj hclient]
        exact fun hqueue => absurd rfl hqueue
      · exact h c hclient
    · exact h
  | setWsi id live => exact h.modifyClient id fun harmed => harmed
  | establish id => exact h.modifyClient id fun harmed => harmed.establish
  | writeable id => exact h.modifyClient id fun harmed => harmed.writeable
  | serve id => exact h.modifyClient id fun harmed => harmed.serve
  | close id => exact h.modifyClient id fun harmed => harmed.closeInternal

/-- Without clients there is no queue. -/
theorem armed_empty : Armed sid {} := fun _ hclient => by cases hclient

/-! ### Stages -/

/-- The client of the session is open. -/
def OpenSide (sid : String) (σ : WsTaskScheduler) (c : LwsWriteSide) : Prop :=
  σ.clients.lookup sid = some c ∧ c.connected = true

/-- It is the writing side of the session. -/
theorem OpenSide.side_eq (h : OpenSide sid σ c) : σ.side sid = c := by
  rw [side, h.1]
  rfl

/-- The frame has something to write for the session. -/
def concerns (sid : String) (o : WsOutbound) : Bool :=
  decide (o.sessionId = sid) && decide (o.frame.payloadJson ≠ "")

/-- As many payloads have been written, and another one is at the connection. -/
def AtConnection (sid : String) (m : ℕ) (σ : WsTaskScheduler) : Prop :=
  (σ.side sid).wire.length = m ∧
    ∃ payload ∈ (σ.side sid).held ++ (σ.side sid).writeQueue, payload ≠ ""

/-- As many payloads have been written, and another one stands at this place of the queue. -/
def InQueue (sid : String) (m k : ℕ) (σ : WsTaskScheduler) : Prop :=
  (σ.side sid).wire.length = m ∧ (σ.side sid).Waiting k

/-- As many payloads have been written, and another one has been popped. -/
def Popped (sid : String) (m : ℕ) (σ : WsTaskScheduler) : Prop :=
  (σ.side sid).wire.length = m ∧ (σ.side sid).Holding

/-- As many payloads have been written, and another one is being passed to the client. -/
def InPassing (sid : String) (m : ℕ) (σ : WsTaskScheduler) : Prop :=
  (σ.side sid).wire.length = m ∧ ∃ o, σ.phase = .sending o ∧ concerns sid o = true

/-- As many payloads have been written, and another one is on its way to the dispatcher. -/
def OnTheWay (sid : String) (m : ℕ) (σ : WsTaskScheduler) : Prop :=
  (σ.side sid).wire.length = m ∧ ∃ o ∈ σ.drained ++ σ.outbound.buffer, concerns sid o = true

/-- More payloads have been written. -/
def WrittenMore (sid : String) (m : ℕ) (σ : WsTaskScheduler) : Prop :=
  m < (σ.side sid).wire.length

/-- A bound for the number of steps of the dispatcher before it passes on a frame of the
session. -/
def ahead (sid : String) (σ : WsTaskScheduler) : ℕ :=
  (match σ.phase with | .looking => 0 | .pushed _ => 1 | .sending _ => 2) +
    3 * (σ.drained ++ σ.outbound.buffer).findIdx (concerns sid) +
    if σ.drained.any (concerns sid) then 0 else 1

/-- A move that is not one of the dispatcher: it may put a frame on the channel. -/
theorem frame_of_ne_dispatch (hev : ev ≠ .dispatch) :
    (σ.step ev).phase = σ.phase ∧ (σ.step ev).drained = σ.drained ∧
      ∃ os, (σ.step ev).outbound.buffer = σ.outbound.buffer ++ os := by
  cases ev with
  | dispatch => exact absurd rfl hev
  | pump f =>
    cases hclosed : σ.outbound.closed with
    | true => exact ⟨by simp [step, CopyChannel.send, hclosed],
        by simp [step, CopyChannel.send, hclosed], [], by simp [step, CopyChannel.send, hclosed]⟩
    | false => exact ⟨by simp [step, CopyChannel.send, hclosed],
        by simp [step, CopyChannel.send, hclosed], [⟨f.sessionId, f⟩],
        by simp [step, CopyChannel.send, hclosed]⟩
  | addClient id =>
    simp only [step]
    split <;> exact ⟨rfl, rfl, [], (List.append_nil _).symm⟩
  | setWsi id | establish id | writeable id | serve id | close id =>
    exact ⟨rfl, rfl, [], (List.append_nil _).symm⟩

/-- A frame that is put on the channel does not get ahead of the others. -/
theorem ahead_of_ne_dispatch (hev : ev ≠ .dispatch)
    (hway : ∃ o ∈ σ.drained ++ σ.outbound.buffer, concerns sid o = true) :
    (σ.step ev).ahead sid = σ.ahead sid := by
  obtain ⟨hphase, hdrained, os, hbuffer⟩ := @frame_of_ne_dispatch σ ev hev
  have hlt : (σ.drained ++ σ.outbound.buffer).findIdx (concerns sid) <
      (σ.drained ++ σ.outbound.buffer).length := List.findIdx_lt_length.mpr hway
  rw [ahead, hphase, hdrained, hbuffer, ← List.append_assoc, List.findIdx_append, if_pos hlt, ahead]

/-- The dispatcher passes on a frame of the session or comes nearer to one. -/
theorem ahead_dispatch (hopen : σ.isOpen sid = true)
    (hway : ∃ o ∈ σ.drained ++ σ.outbound.buffer, concerns sid o = true) :
    (∃ o, σ.dispatch.phase = .sending o ∧ concerns sid o = true) ∨
      (∃ o ∈ σ.dispatch.drained ++ σ.dispatch.outbound.buffer, concerns sid o = true) ∧
        σ.dispatch.ahead sid < σ.ahead sid := by
  cases hphase : σ.phase with
  | looking =>
    cases hdrained : σ.drained with
    | nil =>
      rw [hdrained, List.nil_append] at hway
      have hany : σ.outbound.buffer.any (concerns sid) = true := List.any_eq_true.mpr hway
      rw [dispatch_swap hphase hdrained]
      refine Or.inr ⟨by simpa using hway, ?_⟩
      simp [ahead, hphase, hdrained, hany]
    | cons o rest =>
      rw [dispatch_frame hphase hdrained]
      by_cases hconcerns : concerns sid o = true
      · have hsid : o.sessionId = sid := by
          simp only [concerns, Bool.and_eq_true, decide_eq_true_eq] at hconcerns
          exact hconcerns.1
        rw [hsid, if_pos hopen]
        exact Or.inl ⟨o, rfl, hconcerns⟩
      · have hskip : concerns sid o = false := by simpa using hconcerns
        obtain ⟨o', ho', hconcerns'⟩ := hway
        rw [hdrained, List.cons_append] at ho'
        have hrest : o' ∈ rest ++ σ.outbound.buffer := by
          rcases List.mem_cons.mp ho' with rfl | hrest
          · exact absurd hconcerns' hconcerns
          · exact hrest
        right
        split
        · refine ⟨⟨o', hrest, hconcerns'⟩, ?_⟩
          simp only [ahead, hphase, hdrained, List.cons_append, List.findIdx_cons, hskip,
            List.any_cons, Bool.false_or, cond_false]
          omega
        · refine ⟨⟨o', hrest, hconcerns'⟩, ?_⟩
          simp only [ahead, hphase, hdrained, List.cons_append, List.findIdx_cons, hskip,
            List.any_cons, Bool.false_or, cond_false]
          omega
  | sending o =>
    rw [dispatch_sending hphase]
    refine Or.inr ⟨hway, ?_⟩
    have hframe : ahead sid { σ.modifyClient o.sessionId
        (LwsWriteSide.push o.frame.payloadJson) with phase := .pushed o.sessionId } =
          1 + 3 * (σ.drained ++ σ.outbound.buffer).findIdx (concerns sid) +
            if σ.drained.any (concerns sid) then 0 else 1 := rfl
    rw [hframe, ahead, hphase]
    simp only
    omega
  | pushed id =>
    rw [dispatch_pushed hphase]
    refine Or.inr ⟨hway, ?_⟩
    have hframe : ahead sid { σ.modifyClient id LwsWriteSide.request with phase := .looking } =
          0 + 3 * (σ.drained ++ σ.outbound.buffer).findIdx (concerns sid) +
            if σ.drained.any (concerns sid) then 0 else 1 := rfl
    rw [hframe, ahead, hphase]
    simp only
    omega

section Liveness

variable {ls : ℕ → OutboundEvent} {init : WsTaskScheduler} {m n : ℕ}

/-- What is asked of libwebsockets, along a run, for the connection of a session. -/
structure LwsServes (sid : String) (init : WsTaskScheduler) (ls : ℕ → OutboundEvent) : Prop where
  /-- The handle is set when `send_text` asks for a callback. -/
  handle : ∀ n, HandleSet sid (trace step init ls n) (ls n)
  /-- A callback for writing that has been asked for is made. -/
  answers : ∀ n, ((trace step init ls n).side sid).requested = true →
    ∃ m, n ≤ m ∧ ls m = .writeable sid ∧ ((trace step init ls m).side sid).callback = .none
  /-- A callback that is under way goes on. -/
  serves : AgainAndAgain (· = .serve sid) ls

/-- A run in which the client of the session stays open, the dispatcher goes on and libwebsockets
serves the connection. -/
structure OpenRun (sid : String) (init : WsTaskScheduler) (ls : ℕ → OutboundEvent) : Prop where
  sane : ∀ n, Sane (trace step init ls n)
  armed : ∀ n, Armed sid (trace step init ls n)
  opened : init.isOpen sid = true
  stays : ∀ n, ls n ≠ .close sid
  dispatches : AgainAndAgain (· = .dispatch) ls
  lws : LwsServes sid init ls

/-- The client is open at every point. -/
theorem OpenRun.isOpen (h : OpenRun sid init ls) (n : ℕ) :
    (trace step init ls n).isOpen sid = true := by
  induction n with
  | zero => exact h.opened
  | succ n ih => exact isOpen_step ih (h.stays n)

/-- The client of the session at one point and at the next. -/
theorem OpenRun.sides (h : OpenRun sid init ls) (n : ℕ) :
    ∃ c c', OpenSide sid (trace step init ls n) c ∧ OpenSide sid (trace step init ls (n + 1)) c' ∧
      c.Moved sid (ls n) c' := by
  obtain ⟨c, hclient, hconnected⟩ := isOpen_iff.mp (h.isOpen n)
  obtain ⟨c', hclient', hmoved⟩ := lookup_step hclient (ls n)
  exact ⟨c, c', ⟨hclient, hconnected⟩, ⟨hclient', hmoved.connected (h.stays n) hconnected⟩, hmoved⟩

/-- The writing side of the session at one point and at the next. -/
theorem OpenRun.moved (h : OpenRun sid init ls) (n : ℕ) :
    ((trace step init ls n).side sid).Moved sid (ls n) ((trace step init ls (n + 1)).side sid) := by
  obtain ⟨c, c', hside, hside', hmoved⟩ := h.sides n
  rw [hside.side_eq, hside'.side_eq]
  exact hmoved

/-- A payload is written, or as many have been written as before. -/
theorem OpenRun.written_next (h : OpenRun sid init ls)
    (hwritten : ((trace step init ls n).side sid).wire.length = m) :
    WrittenMore sid m (trace step init ls (n + 1)) ∨
      ((trace step init ls (n + 1)).side sid).wire.length = m := by
  rcases (h.moved n).wire with hmore | hsame
  · exact Or.inl (hwritten ▸ hmore)
  · exact Or.inr (hsame ▸ hwritten)

/-- What has been popped is written. -/
theorem OpenRun.popped_leadsTo (h : OpenRun sid init ls) (m : ℕ) :
    LeadsTo (trace step init ls) (Popped sid m) (WrittenMore sid m) := by
  refine leadsTo_of_measure h.lws.serves (fun _ => 0) fun n ⟨hwritten, hholding⟩ => ?_
  rcases (h.moved n).holding (h.stays n) hholding with hmore | ⟨hsame, hholding', hev⟩
  · exact Or.inl (hwritten ▸ hmore)
  · exact Or.inr ⟨⟨hsame ▸ hwritten, hholding'⟩, le_rfl, fun hserves => absurd hserves hev⟩

/-- A callback that is under way asks for the next one, if it leaves a payload behind. -/
theorem OpenRun.underWay_leadsTo (h : OpenRun sid init ls) (m k : ℕ) :
    LeadsTo (trace step init ls)
      (fun σ => InQueue sid m k σ ∧ (σ.side sid).callback ≠ .none)
      (fun σ => InQueue sid m k σ ∧ (σ.side sid).requested = true ∨ WrittenMore sid m σ) := by
  refine leadsTo_of_measure h.lws.serves (fun σ => (σ.side sid).callback.stepsLeft)
    fun n ⟨⟨hwritten, hwaiting⟩, hcallback⟩ => ?_
  rcases (h.moved n).underWay (h.stays n) hwaiting hcallback with
    hmore | ⟨hsame, hwaiting', hasked | ⟨hcallback', hle, hlt⟩⟩
  · exact Or.inl (Or.inr (hwritten ▸ hmore))
  · exact Or.inl (Or.inl ⟨⟨hsame ▸ hwritten, hwaiting'⟩, hasked⟩)
  · exact Or.inr ⟨⟨⟨hsame ▸ hwritten, hwaiting'⟩, hcallback'⟩, hle, hlt⟩

/-- A callback that has been asked for brings a payload of the queue further. -/
theorem OpenRun.asked_leadsTo (h : OpenRun sid init ls) (m k : ℕ) :
    LeadsTo (trace step init ls)
      (fun σ => InQueue sid m k σ ∧ (σ.side sid).requested = true)
      (fun σ => (Popped sid m σ ∨
        ∃ j < k, InQueue sid m j σ ∧ (σ.side sid).callback ≠ .none) ∨ WrittenMore sid m σ) := by
  refine leadsTo_of_answer (fun n ⟨⟨hwritten, hwaiting⟩, hasked⟩ => ?_)
    fun n ⟨_, hasked⟩ => ?_
  · rcases (h.moved n).waiting (h.stays n) hwaiting with
      hmore | ⟨hsame, hholding | ⟨j, hj, hwaiting', hcallback⟩ | ⟨hwaiting', hrequested⟩⟩
    · exact Or.inl (Or.inr (hwritten ▸ hmore))
    · exact Or.inl (Or.inl (Or.inl ⟨hsame ▸ hwritten, hholding⟩))
    · exact Or.inl (Or.inl (Or.inr ⟨j, hj, ⟨hsame ▸ hwritten, hwaiting'⟩, hcallback⟩))
    · exact Or.inr ⟨⟨hsame ▸ hwritten, hwaiting'⟩, hrequested hasked⟩
  · obtain ⟨n', hnn', hev, hcallback⟩ := h.lws.answers n hasked
    refine ⟨n', hnn', fun ⟨⟨hwritten, hwaiting⟩, _⟩ => Or.inl ?_⟩
    have hmoved := h.moved n'
    rw [hev] at hmoved
    obtain ⟨hwire, hbegun⟩ := hwaiting.writeable hcallback
    unfold Popped InQueue
    rw [hmoved.eq_writeable, hwire]
    exact hbegun.imp (fun hholding => ⟨hwritten, hholding⟩)
      fun ⟨j, hj, hwaiting', hcallback'⟩ => ⟨j, hj, ⟨hwritten, hwaiting'⟩, hcallback'⟩

/-- A payload in the queue is written, or another one before it, once a callback has been asked for
or is under way. -/
theorem OpenRun.awake_leadsTo (h : OpenRun sid init ls) (m k : ℕ) :
    LeadsTo (trace step init ls) (fun σ => InQueue sid m k σ ∧
      ((σ.side sid).requested = true ∨ (σ.side sid).callback ≠ .none)) (WrittenMore sid m) := by
  -- a callback brings the payload to an earlier place
  induction k using Nat.strong_induction_on with
  | _ k ih =>
    have hfurther : LeadsTo (trace step init ls) (fun σ => Popped sid m σ ∨
        ∃ j < k, InQueue sid m j σ ∧ (σ.side sid).callback ≠ .none) (WrittenMore sid m) := by
      rintro n (hpopped | ⟨j, hj, hqueue, hcallback⟩)
      · exact h.popped_leadsTo m n hpopped
      · exact ih j hj n ⟨hqueue, Or.inr hcallback⟩
    have hasked := (h.asked_leadsTo m k).of_or hfurther
    rintro n ⟨hqueue, hrequested | hcallback⟩
    · exact hasked n ⟨hqueue, hrequested⟩
    · exact (h.underWay_leadsTo m k).of_or hasked n ⟨hqueue, hcallback⟩

/-- A payload in the queue gets a callback asked for, if none is. -/
theorem OpenRun.queue_leadsTo (h : OpenRun sid init ls) (m k : ℕ) :
    LeadsTo (trace step init ls)
      (fun σ => InQueue sid m k σ ∧ σ.phase = .pushed sid)
      (fun σ => (Popped sid m σ ∨ ∃ j, InQueue sid m j σ ∧
        ((σ.side sid).requested = true ∨ (σ.side sid).callback ≠ .none)) ∨
        WrittenMore sid m σ) := by
  refine leadsTo_of_measure h.dispatches (fun _ => 0)
    fun n ⟨⟨hwritten, hwaiting⟩, hphase⟩ => ?_
  rcases (h.moved n).waiting (h.stays n) hwaiting with
    hmore | ⟨hsame, hholding | ⟨j, -, hwaiting', hcallback⟩ | ⟨hwaiting', -⟩⟩
  · exact Or.inl (Or.inr (hwritten ▸ hmore))
  · exact Or.inl (Or.inl (Or.inl ⟨hsame ▸ hwritten, hholding⟩))
  · exact Or.inl (Or.inl (Or.inr ⟨j, ⟨hsame ▸ hwritten, hwaiting'⟩, Or.inr hcallback⟩))
  · by_cases hdispatch : ls n = .dispatch
    · obtain ⟨c, c', hside, hside', -⟩ := h.sides n
      have hwsi := h.lws.handle n hdispatch hphase
      have hasked : (trace step init ls (n + 1)).clients.lookup sid = some c.request := by
        rw [trace, hdispatch, step, dispatch_pushed hphase]
        rw [lookup_modifyClient, hside.1]
        simp
      refine Or.inl (Or.inl (Or.inr ⟨k, ⟨hsame ▸ hwritten, hwaiting'⟩, Or.inl ?_⟩))
      rw [hside.side_eq] at hwsi
      rw [side, hasked]
      simp [LwsWriteSide.request, hwsi]
    · have hphase' := (frame_of_ne_dispatch hdispatch).1.trans hphase
      exact Or.inr ⟨⟨⟨hsame ▸ hwritten, hwaiting'⟩, hphase'⟩, le_rfl,
        fun hev => absurd hev hdispatch⟩

/-- A payload at the connection is written, or another one before it. -/
theorem OpenRun.connection_leadsTo (h : OpenRun sid init ls) (m : ℕ) :
    LeadsTo (trace step init ls) (AtConnection sid m) (WrittenMore sid m) := by
  have hawake : LeadsTo (trace step init ls) (fun σ => Popped sid m σ ∨ ∃ j, InQueue sid m j σ ∧
      ((σ.side sid).requested = true ∨ (σ.side sid).callback ≠ .none)) (WrittenMore sid m) := by
    rintro n (hpopped | ⟨j, hqueue⟩)
    · exact h.popped_leadsTo m n hpopped
    · exact h.awake_leadsTo m j n hqueue
  rintro n ⟨hwritten, p, hmem, hp⟩
  rcases List.mem_append.mp hmem with hheld | hqueue
  · refine h.popped_leadsTo m n ⟨hwritten, p, ?_, hp⟩
    unfold LwsWriteSide.held at hheld
    split at hheld
    · next front hcallback => rw [hcallback, List.mem_singleton.mp hheld]
    · cases hheld
  · obtain ⟨k, hk⟩ := List.mem_iff_getElem?.mp hqueue
    obtain ⟨c, -, hside, -⟩ := h.sides n
    have harmed := h.armed n c hside.1
    rw [← hside.side_eq] at harmed
    rcases harmed (List.ne_nil_of_mem hqueue) with hrequested | hcallback | hphase
    · exact h.awake_leadsTo m k n ⟨⟨hwritten, p, hk, hp⟩, Or.inl hrequested⟩
    · exact h.awake_leadsTo m k n ⟨⟨hwritten, p, hk, hp⟩, Or.inr hcallback⟩
    · exact (h.queue_leadsTo m k).of_or hawake n ⟨⟨hwritten, p, hk, hp⟩, hphase⟩

/-- A payload that is being passed arrives at the connection. -/
theorem OpenRun.passing_leadsTo (h : OpenRun sid init ls) (m : ℕ) :
    LeadsTo (trace step init ls) (InPassing sid m)
      (fun σ => AtConnection sid m σ ∨ WrittenMore sid m σ) := by
  refine leadsTo_of_measure h.dispatches (fun _ => 0) fun n ⟨hwritten, o, hphase, hconcerns⟩ => ?_
  rcases h.written_next hwritten with hmore | hwritten'
  · exact Or.inl (Or.inr hmore)
  · by_cases hdispatch : ls n = .dispatch
    · obtain ⟨c, c', hside, hside', -⟩ := h.sides n
      simp only [concerns, Bool.and_eq_true, decide_eq_true_eq] at hconcerns
      have hpushed : c' = c.push o.frame.payloadJson := by
        have hnext : (trace step init ls (n + 1)).clients.lookup sid =
            some (c.push o.frame.payloadJson) := by
          rw [trace, hdispatch, step, dispatch_sending hphase]
          rw [lookup_modifyClient, hside.1, hconcerns.1]
          simp
        exact Option.some.inj (hside'.1.symm.trans hnext)
      refine Or.inl (Or.inl ⟨hwritten', o.frame.payloadJson, ?_, hconcerns.2⟩)
      rw [hside'.side_eq, hpushed]
      exact List.mem_append_right _ (List.mem_append_right _ List.mem_cons_self)
    · refine Or.inr ⟨⟨hwritten', o, ?_, hconcerns⟩, Nat.le_refl _, fun hev => absurd hev hdispatch⟩
      exact (frame_of_ne_dispatch hdispatch).1.trans hphase

/-- A frame on the channel comes to the dispatcher, which passes it on. -/
theorem OpenRun.way_leadsTo (h : OpenRun sid init ls) (m : ℕ) :
    LeadsTo (trace step init ls) (OnTheWay sid m)
      (fun σ => InPassing sid m σ ∨ WrittenMore sid m σ) := by
  refine leadsTo_of_measure h.dispatches (ahead sid) fun n ⟨hwritten, hway⟩ => ?_
  rcases h.written_next hwritten with hmore | hwritten'
  · exact Or.inl (Or.inr hmore)
  · by_cases hdispatch : ls n = .dispatch
    · have hnext : trace step init ls (n + 1) = (trace step init ls n).dispatch := by
        rw [trace, hdispatch]
        rfl
      rcases ahead_dispatch (h.isOpen n) hway with hpassing | ⟨hway', hahead⟩
      · rw [← hnext] at hpassing
        exact Or.inl (Or.inl ⟨hwritten', hpassing⟩)
      · rw [← hnext] at hway' hahead
        exact Or.inr ⟨⟨hwritten', hway'⟩, hahead.le, fun _ => hahead⟩
    · obtain ⟨-, hdrained, os, hbuffer⟩ := @frame_of_ne_dispatch (trace step init ls n) _ hdispatch
      have hahead := ahead_of_ne_dispatch hdispatch hway
      obtain ⟨o, ho, hconcerns⟩ := hway
      refine Or.inr ⟨⟨hwritten', o, ?_, hconcerns⟩, hahead.le, fun hev => absurd hev hdispatch⟩
      rw [trace, hdrained, hbuffer, ← List.append_assoc]
      exact List.mem_append_left _ ho

/-- A payload that concerns a session stands for a frame. -/
theorem exists_concerns {os : List WsOutbound} (h : payloadsFor sid os ≠ []) :
    ∃ o ∈ os, concerns sid o = true := by
  obtain ⟨p, hp⟩ := List.exists_mem_of_ne_nil _ h
  obtain ⟨hmem, hne⟩ := List.mem_filter.mp hp
  obtain ⟨o, ho, rfl⟩ := List.mem_map.mp hmem
  obtain ⟨ho, hsid⟩ := List.mem_filter.mp ho
  exact ⟨o, ho, by simpa [concerns] using ⟨of_decide_eq_true hsid, of_decide_eq_true hne⟩⟩

/-- If not everything on the path is written, more will be. -/
theorem OpenRun.path_leadsTo (h : OpenRun sid init ls) (m : ℕ) :
    LeadsTo (trace step init ls)
      (fun σ => (σ.side sid).wire.length = m ∧ m < (σ.path sid).length) (WrittenMore sid m) := by
  have hconnection := h.connection_leadsTo m
  have hpassing : LeadsTo (trace step init ls) (InPassing sid m) (WrittenMore sid m) :=
    (h.passing_leadsTo m).of_or hconnection
  have hway : LeadsTo (trace step init ls) (OnTheWay sid m) (WrittenMore sid m) :=
    (h.way_leadsTo m).of_or hpassing
  rintro n ⟨hwritten, hlonger⟩
  generalize htrace : trace step init ls n = σ at hwritten hlonger
  -- the next payload is at the connection, being passed, or on the way to the dispatcher
  by_cases hatConnection : ((σ.side sid).held ++ (σ.side sid).writeQueue).filter (· ≠ "") = []
  · have hrest : payloadsFor sid (σ.inPassing ++ σ.drained ++ σ.outbound.buffer) ≠ [] := by
      intro hnil
      rw [path, LwsWriteSide.content, hatConnection, hnil, List.append_nil, List.append_nil]
        at hlonger
      omega
    obtain ⟨o, ho, hconcerns⟩ := exists_concerns hrest
    rw [List.append_assoc] at ho
    rcases List.mem_append.mp ho with hinPassing | ho
    · refine hpassing n (htrace ▸ ⟨hwritten, o, ?_, hconcerns⟩)
      unfold inPassing at hinPassing
      split at hinPassing
      · next o' hphase => rw [hphase, List.mem_singleton.mp hinPassing]
      · cases hinPassing
    · exact hway n (htrace ▸ ⟨hwritten, o, ho, hconcerns⟩)
  · obtain ⟨p, hp⟩ := List.exists_mem_of_ne_nil _ hatConnection
    obtain ⟨hmem, hne⟩ := List.mem_filter.mp hp
    exact hconnection n (htrace ▸ ⟨hwritten, p, hmem, of_decide_eq_true hne⟩)

/-- As long as the client is open, the path only grows. -/
theorem OpenRun.path_prefix (h : OpenRun sid init ls) (n : ℕ) :
    init.path sid <+: (trace step init ls n).path sid := by
  induction n with
  | zero => exact List.prefix_rfl
  | succ n ih =>
    have hkeeps : Keeps sid (trace step init ls n) (ls n) := by
      cases hev : ls n with
      | dispatch => exact fun _ _ _ _ _ => h.isOpen n
      | _ => trivial
    rcases @path_step (trace step init ls n) sid (h.sane n) (ls n) with heq | ⟨hdropped, -⟩
    · rw [trace, heq]
      exact ih.trans (List.prefix_append _ _)
    · exact absurd hkeeps hdropped

end Liveness

/-- **Everything on the path of a session is written**, in every run from any reachable state in
which the client of the session is open and is not closed, the one dispatcher goes on, and
libwebsockets serves the connection: the handle is set when `send_text` asks for a callback, a
callback that has been asked for is made, and a callback that is under way goes on. -/
theorem path_written (events : List OutboundEvent) (sid : String) (ls : ℕ → OutboundEvent)
    (hopen : (run events).isOpen sid = true) (hstays : ∀ n, ls n ≠ .close sid)
    (hdispatches : AgainAndAgain (· = .dispatch) ls)
    (hhandle : Along step (HandleSet sid) {} events) (hlws : LwsServes sid (run events) ls) :
    ∃ n, (run events).path sid <+: ((trace step (run events) ls n).side sid).wire := by
  have hnow : Armed sid (run events) :=
    (hhandle.invariant armed_empty fun σ ev harmed hev => harmed.step hev).2
  have h : OpenRun sid (run events) ls := by
    refine ⟨fun n => ?_, fun n => ?_, hopen, hstays, hdispatches, hlws⟩
    · rw [trace_eq_foldl, run, ← List.foldl_append]
      exact run_sane _
    · induction n with
      | zero => exact hnow
      | succ n ih => exact ih.step (hlws.handle n)
  have hcount (m : ℕ) (hm : m ≤ ((run events).path sid).length) :
      ∃ n, m ≤ ((trace step (run events) ls n).side sid).wire.length := by
    induction m with
    | zero => exact ⟨0, Nat.zero_le _⟩
    | succ m ih =>
      obtain ⟨n, hn⟩ := ih (by omega)
      by_cases hmore : m + 1 ≤ ((trace step (run events) ls n).side sid).wire.length
      · exact ⟨n, hmore⟩
      · have hlength := (h.path_prefix n).length_le
        obtain ⟨n', -, hwritten⟩ := h.path_leadsTo m n ⟨by omega, by omega⟩
        exact ⟨n', hwritten⟩
  obtain ⟨n, hn⟩ := hcount _ (Nat.le_refl _)
  exact ⟨n, List.prefix_of_prefix_length_le (h.path_prefix n) wire_prefix_path hn⟩

/-- Two frames are on the channel of an open session. -/
def pumpedRun : List OutboundEvent :=
  [.addClient "s-1", .setWsi "s-1" true, .establish "s-1", .serve "s-1",
    .pump { sessionId := "s-1", op := .taskStart, payloadJson := "start" },
    .pump { sessionId := "s-1", payloadJson := "continue" }]

/-- The dispatcher goes on, and then the callback for writing is made, in turns. -/
def takingTurns (n : ℕ) : OutboundEvent :=
  if n % 4 = 0 then .dispatch else if n % 4 = 1 then .writeable "s-1" else .serve "s-1"

/-- In turns, the client of the session keeps its handle. -/
theorem wsi_takingTurns (n : ℕ) :
    ((trace step (run pumpedRun) takingTurns n).side "s-1").wsi = true ∧
      ∃ c, (trace step (run pumpedRun) takingTurns n).clients.lookup "s-1" = some c := by
  induction n with
  | zero => exact ⟨by decide +kernel, Option.isSome_iff_exists.mp (by decide +kernel)⟩
  | succ n ih =>
    obtain ⟨hwsi, c, hclient⟩ := ih
    obtain ⟨c', hclient', hmoved⟩ := lookup_step hclient (takingTurns n)
    refine ⟨?_, c', hclient'⟩
    have hkept := hmoved.wsi fun live => by
      unfold takingTurns
      split
      · nofun
      · split <;> nofun
    rw [side, hclient] at hwsi
    rw [trace, side, hclient']
    exact hkept.trans hwsi

/-- The moves of one round. -/
theorem moved_takingTurns (n : ℕ) {ev : OutboundEvent} (hev : takingTurns n = ev) :
    ((trace step (run pumpedRun) takingTurns n).side "s-1").Moved "s-1" ev
      ((trace step (run pumpedRun) takingTurns (n + 1)).side "s-1") := by
  obtain ⟨-, c, hclient⟩ := wsi_takingTurns n
  obtain ⟨c', hclient', hmoved⟩ := lookup_step hclient (takingTurns n)
  rw [trace, side, side, hclient, hclient', ← hev]
  exact hmoved

/-- In turns, no callback is under way at the beginning of a round. -/
theorem callback_takingTurns (i : ℕ) :
    ((trace step (run pumpedRun) takingTurns (4 * i)).side "s-1").callback = .none := by
  induction i with
  | zero => decide +kernel
  | succ i ih =>
    have hdispatch := @moved_takingTurns (4 * i) .dispatch (by simp [takingTurns])
    have hwriteable := @moved_takingTurns (4 * i + 1) (.writeable "s-1") (by simp [takingTurns])
    have hserve := @moved_takingTurns (4 * i + 2) (.serve "s-1") (by simp [takingTurns])
    have hserve' := @moved_takingTurns (4 * i + 3) (.serve "s-1") (by simp [takingTurns])
    have hnone := hdispatch.callback_dispatch.trans ih
    have hround : 4 * (i + 1) = 4 * i + 3 + 1 := by omega
    rw [hround, hserve'.eq_serve, hserve.eq_serve, hwriteable.eq_writeable]
    simp [LwsWriteSide.writeable, LwsWriteSide.serve, hnone]

/-- Then both are written. -/
theorem path_written_takingTurns :
    ∃ n, ["start", "continue"] <+:
      ((trace step (run pumpedRun) takingTurns n).side "s-1").wire := by
  have hpath : (run pumpedRun).path "s-1" = ["start", "continue"] := by decide +kernel
  rw [← hpath]
  refine path_written pumpedRun "s-1" takingTurns (by decide +kernel) (fun n => ?_)
    (fun i => ⟨4 * i, by omega, by simp [takingTurns]⟩) (by decide +kernel) ⟨fun n _ _ => ?_,
    fun n _ => ⟨4 * n + 1, by omega, by simp [takingTurns], ?_⟩,
    fun i => ⟨4 * i + 2, by omega, by simp [takingTurns]⟩⟩
  · unfold takingTurns
    split
    · nofun
    · split <;> nofun
  · exact (wsi_takingTurns n).1
  · have hdispatch := @moved_takingTurns (4 * n) .dispatch (by simp [takingTurns])
    exact hdispatch.callback_dispatch.trans (callback_takingTurns n)

end WsTaskScheduler

end TtsServer
