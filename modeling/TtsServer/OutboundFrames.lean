import TtsServer.Channels
import TtsServer.SessionFrames

/-!
# Frames on their way to the upstream service

`WsTaskScheduler::pump` puts the frames of a change set on a channel. `dispatch_pending`
takes all of them off, looks up the client of each one's session, and passes the payload to
the client if it is open. The client pushes it on the write queue of its connection and asks
for a callback, in which the service thread of the connection pops one payload, writes it,
and asks for another callback if the queue is not empty.

`ws_task_scheduler.h` is not part of the server: nothing includes it, and as it stands it does not
compile, since `WsOutbound` names `OutWsFrame` without its namespace. It is read here as if it
named `framework::OutWsFrame`. One thread calls `dispatch_pending`; two of them would pass the
frames of a session on in any order. Clients are added to the table and not taken out.

Of libwebsockets nothing is assumed but that it makes the callbacks of a connection one at a time:
it may set or clear the handle of a connection, report it as established, report it as closed and
make the callback for writing at any time, asked for or not.

The threads move independently, one access to shared data at a time. For every session the
payloads written are among those pumped for it, in order and without repetition; if no frame
of the session meets a client that is missing or not open, they are the first of them.
-/

namespace TtsServer

open Lib Heartbeat

/-- Where the service thread of a connection is in its callback. -/
inductive WriteCallback where
  /-- In no callback. -/
  | none
  /-- `ESTABLISHED`: `connected_` is set, the request for a callback is due. -/
  | established
  /-- `WRITEABLE`: the front of the queue has been popped; the payload is empty if there was
  none. -/
  | popped (payload : String)
  /-- `WRITEABLE`: the payload has been written, the test of the queue is due. -/
  | written
  deriving DecidableEq, Repr

/-- The writing side of an `LwsClient`. -/
structure LwsWriteSide where
  /-- `wsi_` is set. -/
  wsi : Bool := false
  connected : Bool := false
  closed : Bool := false
  writeQueue : List String := []
  /-- `lws_callback_on_writable` has been called and no `WRITEABLE` callback has begun since. This
  is for the record: the callback may come all the same, or not at all. -/
  requested : Bool := false
  callback : WriteCallback := .none
  /-- The payloads passed to `lws_write`. -/
  wire : List String := []
  deriving DecidableEq, Repr

namespace LwsWriteSide

/-- libwebsockets stores the handle of the connection in `wsi_` or clears it. -/
def setWsi (live : Bool) (c : LwsWriteSide) : LwsWriteSide := { c with wsi := live }

/-- The callback `LWS_CALLBACK_CLIENT_ESTABLISHED` begins. -/
def establish (c : LwsWriteSide) : LwsWriteSide :=
  if c.callback = .none then { c with connected := true, callback := .established } else c

/-- `send_text` under the lock of the queue. -/
def push (payload : String) (c : LwsWriteSide) : LwsWriteSide :=
  { c with writeQueue := c.writeQueue ++ [payload] }

/-- `send_text` behind the lock. -/
def request (c : LwsWriteSide) : LwsWriteSide := { c with requested := c.requested || c.wsi }

/-- `close_internal`, as far as it concerns the queue. -/
def closeInternal (c : LwsWriteSide) : LwsWriteSide :=
  if c.closed then c
  else { c with closed := true, connected := false, requested := c.requested || c.wsi }

/-- The callback `LWS_CALLBACK_CLIENT_WRITEABLE` begins: the front of the queue is popped. -/
def writeable (c : LwsWriteSide) : LwsWriteSide :=
  if c.callback = .none then
    { c with
      requested := false
      writeQueue := c.writeQueue.tail
      callback := .popped (c.writeQueue.headD "") }
  else c

/-- The next step of the callback that is under way. -/
def serve (c : LwsWriteSide) : LwsWriteSide :=
  match c.callback with
  | .none => c
  | .established => { c with requested := true, callback := .none }
  | .popped payload =>
    { c with wire := if payload = "" then c.wire else c.wire ++ [payload], callback := .written }
  | .written => { c with requested := c.requested || !c.writeQueue.isEmpty, callback := .none }

/-- The payload that the service thread holds. -/
def held (c : LwsWriteSide) : List String :=
  match c.callback with
  | .popped payload => [payload]
  | _ => []

/-- The payloads that have got as far as the connection, in order. Empty ones are never written
and do not count. -/
def content (c : LwsWriteSide) : List String :=
  c.wire ++ (c.held ++ c.writeQueue).filter (· ≠ "")

end LwsWriteSide

/-- `WsOutbound`. -/
structure WsOutbound where
  sessionId : String
  frame : OutWsFrame
  deriving DecidableEq, Repr

/-- Where `dispatch_pending` is with a frame. -/
inductive SendPhase where
  /-- About to look up the client of the next frame. -/
  | looking
  /-- The client was open, its `send_text` is called. -/
  | sending (o : WsOutbound)
  /-- The payload is in the queue of the session, the request for a callback is due. -/
  | pushed (sid : String)
  deriving DecidableEq, Repr

/-- `WsTaskScheduler` with its channel and clients. -/
structure WsTaskScheduler where
  outbound : CopyChannel WsOutbound := {}
  clients : Table String LwsWriteSide := ∅
  /-- The frames that `dispatch_pending` has taken off the channel and not looked at. -/
  drained : List WsOutbound := []
  phase : SendPhase := .looking

/-- The moves of the threads. -/
inductive OutboundEvent where
  /-- One round of the loop of `pump`. -/
  | pump (f : OutWsFrame)
  /-- The next step of `dispatch_pending`. -/
  | dispatch
  /-- A client is added for a session that has none. -/
  | addClient (sid : String)
  /-- libwebsockets sets the handle of a session's connection, or clears it. -/
  | setWsi (sid : String) (live : Bool)
  /-- libwebsockets reports the connection of a session as established. -/
  | establish (sid : String)
  /-- libwebsockets makes the callback for writing. -/
  | writeable (sid : String)
  /-- The next step of the callback that is under way for a session. -/
  | serve (sid : String)
  /-- A client is closed, by a thread of the program or because libwebsockets reports it. -/
  | close (sid : String)
  deriving DecidableEq, Repr

/-- What a move puts on the channel. -/
def OutboundEvent.pumped : OutboundEvent → Option WsOutbound
  | .pump f => some ⟨f.sessionId, f⟩
  | _ => none

namespace WsTaskScheduler

/-- The operation on the client of a session. -/
def modifyClient (σ : WsTaskScheduler) (sid : String) (f : LwsWriteSide → LwsWriteSide) :
    WsTaskScheduler :=
  { σ with clients := σ.clients.modify sid f }

/-- `UpstreamClient::is_open` for the client of a session, which must exist. -/
def isOpen (σ : WsTaskScheduler) (sid : String) : Bool :=
  (σ.clients.lookup sid).any LwsWriteSide.connected

/-- The next step of `dispatch_pending`. A frame without an open client is dropped; the three
operations are treated alike. -/
def dispatch (σ : WsTaskScheduler) : WsTaskScheduler :=
  match σ.phase with
  | .looking =>
    match σ.drained with
    | [] =>
      { σ with
        drained := (σ.outbound.swapOutAll []).1, outbound := (σ.outbound.swapOutAll []).2 }
    | o :: rest =>
      match σ.clients.lookup o.sessionId with
      | none => { σ with drained := rest }
      | some client =>
        match o.frame.op with
        | .taskStart | .taskContinue | .taskFinish =>
          if client.connected then { σ with drained := rest, phase := .sending o }
          else { σ with drained := rest }
  | .sending o =>
    { σ.modifyClient o.sessionId (LwsWriteSide.push o.frame.payloadJson) with
      phase := .pushed o.sessionId }
  | .pushed sid => { σ.modifyClient sid LwsWriteSide.request with phase := .looking }

/-- One move. -/
def step (σ : WsTaskScheduler) : OutboundEvent → WsTaskScheduler
  | .pump f =>
    match σ.outbound.send ⟨f.sessionId, f⟩ with
    | .ok outbound => { σ with outbound }
    | .error _ => σ
  | .dispatch => σ.dispatch
  | .addClient sid =>
    if σ.clients.lookup sid = none then { σ with clients := σ.clients.insert sid {} } else σ
  | .setWsi sid live => σ.modifyClient sid (LwsWriteSide.setWsi live)
  | .establish sid => σ.modifyClient sid LwsWriteSide.establish
  | .writeable sid => σ.modifyClient sid LwsWriteSide.writeable
  | .serve sid => σ.modifyClient sid LwsWriteSide.serve
  | .close sid => σ.modifyClient sid LwsWriteSide.closeInternal

/-- The moves in turn, from a scheduler without clients. -/
def run (events : List OutboundEvent) : WsTaskScheduler := events.foldl step {}

/-- The writing side of the client of a session. -/
def side (σ : WsTaskScheduler) (sid : String) : LwsWriteSide := (σ.clients.lookup sid).getD {}

/-- The payloads for a session that are not empty. -/
def payloadsFor (sid : String) (os : List WsOutbound) : List String :=
  ((os.filter fun o => o.sessionId = sid).map fun o => o.frame.payloadJson).filter (· ≠ "")

/-- The frame that is being passed to its client. -/
def inPassing (σ : WsTaskScheduler) : List WsOutbound :=
  match σ.phase with
  | .sending o => [o]
  | _ => []

/-- The payloads of a session, stage by stage: at the connection, being passed to it, taken off
the channel, on the channel. -/
def path (sid : String) (σ : WsTaskScheduler) : List String :=
  (σ.side sid).content ++ payloadsFor sid (σ.inPassing ++ σ.drained ++ σ.outbound.buffer)

/-- The move does not drop a payload of the session. -/
def Keeps (sid : String) (σ : WsTaskScheduler) : OutboundEvent → Prop
  | .dispatch => σ.phase = .looking → ∀ o ∈ σ.drained.head?, o.sessionId = sid →
      o.frame.payloadJson ≠ "" → σ.isOpen sid = true
  | _ => True

instance (sid : String) (σ : WsTaskScheduler) : DecidablePred (Keeps sid σ)
  | .dispatch => inferInstanceAs (Decidable (_ → ∀ o ∈ σ.drained.head?, _))
  | .pump _ => .isTrue trivial
  | .addClient _ => .isTrue trivial
  | .setWsi _ _ => .isTrue trivial
  | .establish _ => .isTrue trivial
  | .writeable _ => .isTrue trivial
  | .serve _ => .isTrue trivial
  | .close _ => .isTrue trivial

/-- The payloads that a move puts on the channel for a session. -/
def entering (sid : String) (ev : OutboundEvent) : List String :=
  payloadsFor sid ev.pumped.toList

end WsTaskScheduler

/-! ### The writing side -/

namespace LwsWriteSide

variable (c : LwsWriteSide)

/-- Nothing has got as far as a new connection. -/
@[simp] theorem content_empty : ({} : LwsWriteSide).content = [] := rfl

/-- The handle of a connection has no bearing on its payloads. -/
@[simp] theorem content_setWsi (live : Bool) : (c.setWsi live).content = c.content := rfl

/-- Asking for a callback has none either. -/
@[simp] theorem content_request : c.request.content = c.content := rfl

/-- A client that is closed keeps its payloads. -/
@[simp] theorem content_closeInternal : c.closeInternal.content = c.content := by
  unfold closeInternal
  split <;> rfl

/-- The connection is established with the payloads that it has. -/
@[simp] theorem content_establish : c.establish.content = c.content := by
  unfold establish
  split
  · next hcallback => simp [content, held, hcallback]
  · rfl

/-- A payload is queued behind the others. -/
theorem content_push (payload : String) :
    (c.push payload).content = c.content ++ [payload].filter (· ≠ "") := by
  have hheld : (c.push payload).held = c.held := rfl
  have hqueue : (c.push payload).writeQueue = c.writeQueue ++ [payload] := rfl
  have hwire : (c.push payload).wire = c.wire := rfl
  rw [content, hheld, hqueue, hwire, ← List.append_assoc, List.filter_append, ← List.append_assoc,
    content]

/-- A callback takes the first payload off the queue. -/
@[simp] theorem content_writeable : c.writeable.content = c.content := by
  unfold writeable
  split
  · next hcallback =>
    cases hqueue : c.writeQueue with
    | nil => simp [content, held, hcallback, hqueue]
    | cons payload rest => simp [content, held, hcallback, hqueue]
  · rfl

/-- A callback moves its payload to the wire, ahead of the others. -/
@[simp] theorem content_serve : c.serve.content = c.content := by
  unfold serve
  split
  · rfl
  · next hcallback => simp [content, held, hcallback]
  · next payload hcallback =>
    by_cases hempty : payload = ""
    · simp [content, held, hcallback, hempty]
    · simp [content, held, hcallback, hempty]
  · next hcallback => simp [content, held, hcallback]

end LwsWriteSide

namespace WsTaskScheduler

variable {σ : WsTaskScheduler} {sid : String} {f : LwsWriteSide → LwsWriteSide}

/-! ### One move -/

/-- The writing side of a session after an operation on the client of a session that has one. -/
theorem side_modifyClient {id : String} (hclient : (σ.clients.lookup id).isSome = true) :
    (σ.modifyClient id f).side sid = if sid = id then f (σ.side sid) else σ.side sid := by
  unfold side modifyClient
  rw [Table.lookup_modify]
  split
  · next hid =>
    rw [← hid] at hclient
    obtain ⟨client, hlookup⟩ := Option.isSome_iff_exists.mp hclient
    simp [hlookup]
  · rfl

/-- An operation that keeps the payloads at a connection in order. -/
theorem content_modifyClient (hf : ∀ c, (f c).content = c.content) (id : String) :
    ((σ.modifyClient id f).side sid).content = (σ.side sid).content := by
  unfold side modifyClient
  rw [Table.lookup_modify]
  split
  · cases σ.clients.lookup sid with
    | none => rfl
    | some client => exact hf client
  · rfl

/-- The payloads of some frames and of others. -/
theorem payloadsFor_append (os os' : List WsOutbound) :
    payloadsFor sid (os ++ os') = payloadsFor sid os ++ payloadsFor sid os' := by
  simp [payloadsFor]

/-- The frame of another session adds nothing. -/
theorem payloadsFor_singleton (o : WsOutbound) :
    payloadsFor sid [o] = if o.sessionId = sid then [o.frame.payloadJson].filter (· ≠ "")
      else [] := by
  unfold payloadsFor
  split
  · next hsid => simp [hsid]
  · next hsid => simp [hsid]

/-- A frame that is being passed has a client, and the channel is open. -/
structure Sane (σ : WsTaskScheduler) : Prop where
  sending : ∀ {o}, σ.phase = .sending o → (σ.clients.lookup o.sessionId).isSome = true
  pushed : ∀ {sid}, σ.phase = .pushed sid → (σ.clients.lookup sid).isSome = true
  live : σ.outbound.closed = false

/-- The path of a session after a move that is not one of the dispatcher. -/
theorem path_modifyClient (hf : ∀ c, (f c).content = c.content) (id : String) :
    (σ.modifyClient id f).path sid = σ.path sid := by
  have hcontent := @content_modifyClient σ sid f hf id
  unfold path
  rw [hcontent]
  rfl

/-- A frame without an open client leaves the path, or has nothing to write for the session. -/
theorem path_drop {o : WsOutbound} {rest : List WsOutbound} (hphase : σ.phase = .looking)
    (hdrained : σ.drained = o :: rest) (hshut : σ.isOpen o.sessionId = false) :
    path sid { σ with drained := rest } = σ.path sid ∨
      ¬Keeps sid σ .dispatch ∧ (path sid { σ with drained := rest }).Sublist (σ.path sid) := by
  have hside : side { σ with drained := rest } sid = σ.side sid := rfl
  have hbefore : σ.path sid = (σ.side sid).content ++ (payloadsFor sid [o] ++
      payloadsFor sid (rest ++ σ.outbound.buffer)) := by
    rw [path, inPassing, hphase, hdrained, ← payloadsFor_append]
    rfl
  have hafter : path sid { σ with drained := rest } =
      (σ.side sid).content ++ payloadsFor sid (rest ++ σ.outbound.buffer) := by
    rw [path, inPassing, hside]
    simp only [hphase, List.nil_append]
  by_cases hkeeps : Keeps sid σ .dispatch
  · left
    have hnothing : payloadsFor sid [o] = [] := by
      rw [payloadsFor_singleton]
      split
      · next hsid =>
        by_contra hne
        have hpayload : o.frame.payloadJson ≠ "" := by
          intro hempty
          simp [hempty] at hne
        have hopen := hkeeps hphase o (by rw [hdrained]; rfl) hsid hpayload
        rw [← hsid, hshut] at hopen
        cases hopen
      · rfl
    rw [hafter, hbefore, hnothing, List.nil_append]
  · refine Or.inr ⟨hkeeps, ?_⟩
    rw [hafter, hbefore]
    exact (List.Sublist.refl _).append (List.sublist_append_right _ _)

/-- A frame is passed to its client if that is open, whatever its operation. -/
theorem dispatch_frame {o : WsOutbound} {rest : List WsOutbound} (hphase : σ.phase = .looking)
    (hdrained : σ.drained = o :: rest) :
    σ.dispatch = if σ.isOpen o.sessionId then { σ with drained := rest, phase := .sending o }
      else { σ with drained := rest } := by
  unfold dispatch
  rw [hphase, hdrained]
  cases hclient : σ.clients.lookup o.sessionId with
  | none => simp [isOpen, hclient]
  | some client => cases hop : o.frame.op <;> simp [isOpen, hclient, hop]

/-- A call that has dealt with all its frames takes the next ones off the channel. -/
theorem dispatch_swap (hphase : σ.phase = .looking) (hdrained : σ.drained = []) :
    σ.dispatch = { σ with
      drained := σ.outbound.buffer, outbound := { σ.outbound with buffer := [] } } := by
  unfold dispatch
  rw [hphase, hdrained]
  simp [CopyChannel.swapOutAll]

/-- A payload that is being passed is pushed. -/
theorem dispatch_sending {o : WsOutbound} (hphase : σ.phase = .sending o) :
    σ.dispatch = { σ.modifyClient o.sessionId (LwsWriteSide.push o.frame.payloadJson) with
      phase := .pushed o.sessionId } := by
  rw [dispatch, hphase]

/-- After a push the callback is asked for. -/
theorem dispatch_pushed {id : String} (hphase : σ.phase = .pushed id) :
    σ.dispatch = { σ.modifyClient id LwsWriteSide.request with phase := .looking } := by
  rw [dispatch, hphase]

/-- The dispatcher moves payloads along their path, or drops one. -/
theorem path_dispatch (hsane : Sane σ) :
    σ.dispatch.path sid = σ.path sid ∨
      ¬Keeps sid σ .dispatch ∧ (σ.dispatch.path sid).Sublist (σ.path sid) := by
  cases hphase : σ.phase with
  | looking =>
    cases hdrained : σ.drained with
    | nil =>
      left
      rw [dispatch_swap hphase hdrained]
      simp only [path, inPassing, hphase, hdrained, List.append_nil, List.nil_append]
      rfl
    | cons o rest =>
      rw [dispatch_frame hphase hdrained]
      split
      · left
        simp only [path, inPassing, hphase, hdrained, List.nil_append, List.singleton_append]
        rfl
      · next hshut => exact path_drop hphase hdrained (by simpa using hshut)
  | sending o =>
    left
    have hside := @side_modifyClient σ sid (LwsWriteSide.push o.frame.payloadJson) o.sessionId
      (hsane.sending hphase)
    have hbefore : σ.path sid = (σ.side sid).content ++ payloadsFor sid [o] ++
        payloadsFor sid (σ.drained ++ σ.outbound.buffer) := by
      rw [path, inPassing, hphase, List.append_assoc, List.append_assoc, payloadsFor_append]
    have hafter : σ.dispatch.path sid =
        ((σ.modifyClient o.sessionId (LwsWriteSide.push o.frame.payloadJson)).side sid).content ++
          payloadsFor sid (σ.drained ++ σ.outbound.buffer) := by
      rw [dispatch_sending hphase]
      rfl
    rw [hafter, hbefore, hside, payloadsFor_singleton]
    by_cases hsid : sid = o.sessionId
    · rw [if_pos hsid, if_pos hsid.symm, LwsWriteSide.content_push]
    · rw [if_neg hsid, if_neg (Ne.symm hsid), List.append_nil]
  | pushed id =>
    left
    have hcontent := @content_modifyClient σ sid _ LwsWriteSide.content_request id
    have hafter : σ.dispatch.path sid =
        ((σ.modifyClient id LwsWriteSide.request).side sid).content ++
          payloadsFor sid (σ.drained ++ σ.outbound.buffer) := by
      rw [dispatch_pushed hphase]
      rfl
    rw [hafter, hcontent, path, inPassing, hphase, List.nil_append]

/-- The payloads of a session move along their path: a frame enters at its end, and none leaves
it unless it is dropped. -/
theorem path_step (hsane : Sane σ) (ev : OutboundEvent) :
    (σ.step ev).path sid = σ.path sid ++ entering sid ev ∨
      ¬Keeps sid σ ev ∧ ((σ.step ev).path sid).Sublist (σ.path sid) := by
  cases ev with
  | pump f =>
    left
    simp only [step, CopyChannel.send, entering, OutboundEvent.pumped, hsane.live,
      Bool.false_eq_true, if_false, path, payloadsFor_append, List.append_assoc]
    rfl
  | addClient id =>
    left
    refine Eq.trans ?_ (List.append_nil _).symm
    simp only [step]
    split
    · next hnone =>
      have hside : (side { σ with clients := σ.clients.insert id {} } sid).content =
          (σ.side sid).content := by
        unfold side
        simp only [Table.lookup_insert_eq]
        split
        · next hid =>
          rw [hid, hnone]
          rfl
        · rfl
      unfold path
      rw [hside]
      rfl
    · rfl
  | setWsi id live =>
    exact Or.inl ((path_modifyClient (LwsWriteSide.content_setWsi · live) id).trans
      (List.append_nil _).symm)
  | establish id => exact Or.inl ((path_modifyClient LwsWriteSide.content_establish id).trans
      (List.append_nil _).symm)
  | writeable id => exact Or.inl ((path_modifyClient LwsWriteSide.content_writeable id).trans
      (List.append_nil _).symm)
  | serve id => exact Or.inl ((path_modifyClient LwsWriteSide.content_serve id).trans
      (List.append_nil _).symm)
  | close id => exact Or.inl ((path_modifyClient LwsWriteSide.content_closeInternal id).trans
      (List.append_nil _).symm)
  | dispatch =>
    rcases path_dispatch hsane with heq | hdropped
    · exact Or.inl (heq.trans (List.append_nil _).symm)
    · exact Or.inr hdropped

/-- An operation on a client keeps the clients that are there. -/
theorem Sane.modifyClient (hsane : Sane σ) (id : String) : Sane (σ.modifyClient id f) := by
  have hkept {sid : String} (hclient : (σ.clients.lookup sid).isSome = true) :
      ((σ.modifyClient id f).clients.lookup sid).isSome = true := by
    unfold WsTaskScheduler.modifyClient
    rw [Table.lookup_modify]
    split
    · rwa [Option.isSome_map]
    · exact hclient
  exact ⟨fun hphase => hkept (hsane.sending hphase), fun hphase => hkept (hsane.pushed hphase),
    hsane.live⟩

/-- A client that is open is in the table. -/
theorem isOpen_iff : σ.isOpen sid = true ↔
    ∃ client, σ.clients.lookup sid = some client ∧ client.connected = true := by
  cases hclient : σ.clients.lookup sid <;> simp [isOpen, hclient]

/-- The next step of the dispatcher. -/
theorem Sane.dispatch (hsane : Sane σ) : Sane σ.dispatch := by
  cases hphase : σ.phase with
  | looking =>
    have hlooking {σ' : WsTaskScheduler} (hphase' : σ'.phase = .looking)
        (hlive : σ'.outbound.closed = σ.outbound.closed) : Sane σ' :=
      ⟨fun h => (by cases hphase'.symm.trans h), fun h => (by cases hphase'.symm.trans h),
        hlive.trans hsane.live⟩
    cases hdrained : σ.drained with
    | nil =>
      rw [dispatch_swap hphase hdrained]
      exact hlooking hphase rfl
    | cons o rest =>
      rw [dispatch_frame hphase hdrained]
      split
      · next hopen =>
        obtain ⟨client, hclient, -⟩ := isOpen_iff.mp hopen
        refine ⟨fun {o'} hsending => ?_, nofun, hsane.live⟩
        obtain rfl : o = o' := by simpa using hsending
        rw [hclient]
        rfl
      · exact hlooking hphase rfl
  | sending o =>
    have hmoved := @Sane.modifyClient σ (LwsWriteSide.push o.frame.payloadJson) hsane o.sessionId
    have hclient := hmoved.sending hphase
    rw [dispatch_sending hphase]
    refine ⟨nofun, fun {sid} hpushed => ?_, hmoved.live⟩
    obtain rfl : o.sessionId = sid := by simpa using hpushed
    exact hclient
  | pushed id =>
    rw [dispatch_pushed hphase]
    exact ⟨nofun, nofun, hsane.live⟩

/-- Every move keeps the scheduler sane. -/
theorem Sane.step (hsane : Sane σ) (ev : OutboundEvent) : Sane (σ.step ev) := by
  cases ev with
  | pump f =>
    simp only [WsTaskScheduler.step, CopyChannel.send, hsane.live, Bool.false_eq_true, if_false]
    exact ⟨hsane.sending, hsane.pushed, rfl⟩
  | dispatch => exact hsane.dispatch
  | addClient id =>
    simp only [WsTaskScheduler.step]
    split
    · have hkept {sid : String} (hclient : (σ.clients.lookup sid).isSome = true) :
          ((σ.clients.insert id {}).lookup sid).isSome = true := by
        rw [Table.lookup_insert_eq]
        split
        · rfl
        · exact hclient
      exact ⟨fun hphase => hkept (hsane.sending hphase), fun hphase => hkept (hsane.pushed hphase),
        hsane.live⟩
    · exact hsane
  | setWsi id | establish id | writeable id | serve id | close id => exact hsane.modifyClient id

/-- A new scheduler passes no frame. -/
theorem sane_empty : Sane {} := ⟨nofun, nofun, rfl⟩

/-! ### Runs -/

/-- The frames that the moves of a run put on the channel. -/
def pumpedFrames (events : List OutboundEvent) : List WsOutbound :=
  events.filterMap OutboundEvent.pumped

/-- The moves up to the last one, and the last one. -/
theorem run_concat (events : List OutboundEvent) (ev : OutboundEvent) :
    run (events ++ [ev]) = (run events).step ev := by
  rw [run, List.foldl_append]
  rfl

/-- Every run keeps the scheduler sane. -/
theorem run_sane (events : List OutboundEvent) : Sane (run events) :=
  events.foldlRecOn step (motive := Sane) sane_empty fun _ hsane ev _ => hsane.step ev

/-- What the last move puts on the channel comes last. -/
theorem payloadsFor_pumpedFrames_concat (events : List OutboundEvent) (ev : OutboundEvent) :
    payloadsFor sid (pumpedFrames (events ++ [ev])) =
      payloadsFor sid (pumpedFrames events) ++ entering sid ev := by
  rw [pumpedFrames, List.filterMap_append, payloadsFor_append, entering]
  cases hpumped : ev.pumped with
  | none => rw [List.filterMap_cons_none hpumped]; rfl
  | some o => rw [List.filterMap_cons_some hpumped]; rfl

/-- What is written comes first on the path. -/
theorem wire_prefix_path : (σ.side sid).wire <+: σ.path sid := by
  unfold path LwsWriteSide.content
  rw [List.append_assoc]
  exact List.prefix_append _ _

/-- The path of a session holds payloads pumped for it, in order. -/
theorem path_sublist (events : List OutboundEvent) (sid : String) :
    ((run events).path sid).Sublist (payloadsFor sid (pumpedFrames events)) := by
  induction events using List.reverseRecOn with
  | nil => exact List.Sublist.refl _
  | append_singleton events ev ih =>
    rw [run_concat, payloadsFor_pumpedFrames_concat]
    rcases @path_step _ sid (run_sane events) ev with heq | ⟨-, hdropped⟩
    · rw [heq]
      exact ih.append (List.Sublist.refl _)
    · exact (hdropped.trans ih).trans (List.sublist_append_left _ _)

/-- **Order is kept.** In every run with one dispatcher, whatever libwebsockets does, the payloads
written for a session are among those pumped for it, in the same order and none more often than it
was pumped. -/
theorem written_in_order (events : List OutboundEvent) (sid : String) :
    ((run events).side sid).wire.Sublist (payloadsFor sid (pumpedFrames events)) :=
  wire_prefix_path.sublist.trans (path_sublist events sid)

/-- Frames of two sessions are pumped; one of the sessions has no client, the payloads of the other
are written. -/
def twoSessions : List OutboundEvent :=
  [.addClient "a", .establish "a", .serve "a", .pump { sessionId := "a", payloadJson := "first" },
    .pump { sessionId := "b", payloadJson := "lost" },
    .pump { sessionId := "a", payloadJson := "second" }] ++ List.replicate 8 .dispatch ++
    [.writeable "a", .serve "a", .serve "a", .writeable "a", .serve "a"]

/-- Both payloads of the session with a client are written, in order. -/
theorem written_in_order_twoSessions :
    ((run twoSessions).side "a").wire = ["first", "second"] ∧
      ((run twoSessions).side "a").wire.Sublist (payloadsFor "a" (pumpedFrames twoSessions)) ∧
      ((run twoSessions).side "b").wire.Sublist (payloadsFor "b" (pumpedFrames twoSessions)) :=
  ⟨by decide +kernel, written_in_order twoSessions "a", written_in_order twoSessions "b"⟩

/-- If no payload of the session is dropped, the path holds what has been pumped for it. -/
theorem path_eq_of_keeps {events : List OutboundEvent} (hkeeps : Along step (Keeps sid) {} events) :
    (run events).path sid = payloadsFor sid (pumpedFrames events) := by
  induction events using List.reverseRecOn with
  | nil => rfl
  | append_singleton events ev ih =>
    obtain ⟨hbefore, hlast, -⟩ := along_append.mp hkeeps
    rw [run_concat, payloadsFor_pumpedFrames_concat, ← ih hbefore]
    rcases @path_step _ sid (run_sane events) ev with heq | ⟨hdropped, -⟩
    · exact heq
    · exact absurd hlast hdropped

/-! ### The frames of the heartbeat -/

open Heartbeat History in
/-- Every frame of a run is the first one of a session or carries a text. -/
theorem frame_cases {env : Env} {inputs : List TickInput} (maxSize : Nat)
    (idleTimeout maxLifetime : Duration) :
    ∀ f ∈ (History.of env (start maxSize idleTimeout maxLifetime) inputs).allFrames,
      ∃ req, f = startFrame env f.sessionId req ∨ f = continueFrame env f.sessionId req := by
  have hstep : ∀ (h : History) (l : Step), (Started env h ∧ ∀ f ∈ h.allFrames,
      ∃ req, f = startFrame env f.sessionId req ∨ f = continueFrame env f.sessionId req) →
      Started env (History.step env h l) ∧ ∀ f ∈ (History.step env h l).allFrames,
        ∃ req, f = startFrame env f.sessionId req ∨ f = continueFrame env f.sessionId req := by
    rintro h l ⟨hstarted, hframes⟩
    refine ⟨hstarted.step l, ?_⟩
    rcases @step_allFrames_cases env h hstarted.poolWf l with
      hsame | ⟨req, handle, s, -, -, -, hsent⟩
    · rw [hsame]
      exact hframes
    · rw [hsent]
      intro f hf
      rcases List.mem_append.mp hf with hf | hf
      · exact hframes f hf
      · cases hreused : handle.reused with
        | true =>
          rw [taskFrames_reused hreused, List.mem_singleton] at hf
          exact ⟨req, Or.inr (by rw [hf]; rfl)⟩
        | false =>
          rw [taskFrames_new hreused, List.mem_pair] at hf
          rcases hf with rfl | rfl
          · exact ⟨req, Or.inl rfl⟩
          · exact ⟨req, Or.inr rfl⟩
  exact (of_invariant (I := fun h => Started env h ∧ ∀ f ∈ h.allFrames,
      ∃ req, f = startFrame env f.sessionId req ∨ f = continueFrame env f.sessionId req)
    ⟨start_started maxSize idleTimeout maxLifetime, fun f hf => absurd hf List.not_mem_nil⟩
    (fun h hh => hstep h _ hh) (fun h m hh => hstep h _ hh) fun h inp hh => hstep h _ hh).2

/-- The payloads of frames for a session, none of which is empty. -/
theorem payloadsFor_frames {frames : List OutWsFrame}
    (hpayload : ∀ f ∈ frames, f.payloadJson ≠ "") :
    payloadsFor sid (frames.map fun f => ⟨f.sessionId, f⟩) =
      (History.framesFor sid frames).map OutWsFrame.payloadJson := by
  have hmap : (((frames.map fun f => (⟨f.sessionId, f⟩ : WsOutbound)).filter
      fun o => o.sessionId = sid).map fun o => o.frame.payloadJson) =
        (History.framesFor sid frames).map OutWsFrame.payloadJson := by
    rw [List.filter_map, List.map_map]
    rfl
  rw [payloadsFor, hmap, List.filter_eq_self]
  intro payload hmem
  obtain ⟨f, hf, rfl⟩ := List.mem_map.mp hmem
  exact decide_eq_true (hpayload f (List.mem_filter.mp hf).1)

/-- What is written for a session is the beginning of its frames, if these are pumped in order and
none is dropped. -/
theorem wire_prefix_frames {frames : List OutWsFrame} {events : List OutboundEvent}
    (hpayload : ∀ f ∈ frames, f.payloadJson ≠ "")
    (hpumped : pumpedFrames events <+: frames.map fun f => ⟨f.sessionId, f⟩)
    (hkeeps : Along step (Keeps sid) {} events) :
    ((run events).side sid).wire <+:
      (History.framesFor sid frames).map OutWsFrame.payloadJson := by
  obtain ⟨rest, hrest⟩ := hpumped
  rw [← payloadsFor_frames hpayload, ← hrest, payloadsFor_append]
  exact (wire_prefix_path.trans (path_eq_of_keeps hkeeps ▸ List.prefix_rfl)).trans
    (List.prefix_append _ _)

/-- Frames that carry texts, as the documents of these texts. -/
theorem payloads_of_continues {env : Env} {rest : List OutWsFrame}
    (hrest : ∀ f ∈ rest, ∃ text, f.payloadJson = env.dump (encodeTaskContinue text)) :
    ∃ texts : List String, rest.map OutWsFrame.payloadJson =
      texts.map fun text => env.dump (encodeTaskContinue text) := by
  induction rest with
  | nil => exact ⟨[], rfl⟩
  | cons f rest ih =>
    obtain ⟨text, htext⟩ := hrest f List.mem_cons_self
    obtain ⟨texts, htexts⟩ := ih fun f' hf' => hrest f' (List.mem_cons_of_mem f hf')
    exact ⟨text :: texts, by rw [List.map_cons, List.map_cons, htext, htexts]⟩

open Heartbeat History in
/-- **The protocol on the wire.** If no session identifier is generated twice, the frames of the
heartbeat are pumped in order, and none of the session is dropped, then what is written on the
connection of a session is a `task_start` document followed by `task_continue` documents, or
nothing. -/
theorem wire_follows_protocol (env : Env) (maxSize : Nat) (idleTimeout maxLifetime : Duration)
    (inputs : List TickInput) (events : List OutboundEvent) (sid : String)
    (hdump : ∀ doc, env.dump doc ≠ "")
    (hfresh : (drawn env (Heartbeat.run env (start maxSize idleTimeout maxLifetime)
      inputs).2).Nodup)
    (hpumped : pumpedFrames events <+: ((Heartbeat.run env
      (start maxSize idleTimeout maxLifetime) inputs).1.flatMap ChangeSet.wsFrames).map
        fun f => ⟨f.sessionId, f⟩)
    (hkeeps : Along step (Keeps sid) {} events) :
    ((run events).side sid).wire = [] ∨ ∃ req, ∃ texts : List String, ((run events).side sid).wire =
      startPayload env req :: texts.map fun text => env.dump (encodeTaskContinue text) := by
  have hcases := @frame_cases env inputs maxSize idleTimeout maxLifetime
  have hprotocol := (@onProtocol_of env inputs maxSize idleTimeout maxLifetime).2
  rw [of_eq_run.1, OnProtocol, allFrames_of] at hprotocol
  rw [allFrames_of] at hcases
  generalize (Heartbeat.run env (start maxSize idleTimeout maxLifetime) inputs).1.flatMap
    ChangeSet.wsFrames = frames at hcases hprotocol hpumped
  have hpayload : ∀ f ∈ frames, f.payloadJson ≠ "" := by
    intro f hf
    obtain ⟨req, heq | heq⟩ := hcases f hf <;> rw [heq] <;> exact hdump _
  have hwire := wire_prefix_frames hpayload hpumped hkeeps
  rcases hprotocol hfresh sid with hnone | ⟨first, rest, hframes, hstart, -, hcontinue⟩
  · rw [hnone] at hwire
    exact Or.inl (List.prefix_nil.mp hwire)
  · have hmem {f : OutWsFrame} (hf : f ∈ first :: rest) : f ∈ frames :=
      (List.mem_filter.mp (hframes ▸ hf)).1
    have hfirst : ∃ req, first.payloadJson = startPayload env req := by
      obtain ⟨req, heq | heq⟩ := hcases first (hmem List.mem_cons_self)
      · exact ⟨req, by rw [heq]; rfl⟩
      · rw [heq] at hstart
        cases hstart
    have htexts : ∃ texts : List String, rest.map OutWsFrame.payloadJson =
        texts.map fun text => env.dump (encodeTaskContinue text) := by
      refine payloads_of_continues fun f hf => ?_
      obtain ⟨req, heq | heq⟩ := hcases f (hmem (List.mem_cons_of_mem _ hf))
      · have hop := hcontinue f hf
        rw [heq] at hop
        cases hop
      · exact ⟨req.text, by rw [heq]; rfl⟩
    obtain ⟨req, hreq⟩ := hfirst
    obtain ⟨texts, htexts⟩ := htexts
    rw [hframes, List.map_cons, hreq, htexts] at hwire
    cases hwritten : ((run events).side sid).wire with
    | nil => exact Or.inl rfl
    | cons payload payloads =>
      rw [hwritten, List.cons_prefix_cons] at hwire
      obtain ⟨rfl, hwire⟩ := hwire
      refine Or.inr ⟨req, texts.take payloads.length, ?_⟩
      rw [List.map_take, ← List.prefix_iff_eq_take.mp hwire]

/-- The sample environment with documents that are not empty. -/
def speakingEnv : Env := { sampleEnv with dump := fun _ => "document" }

/-- The frames of the sample run are pumped, dispatched and written on an open connection. -/
def deliveringRun : List OutboundEvent :=
  [.addClient "s-0000000000000000", .setWsi "s-0000000000000000" true,
    .establish "s-0000000000000000", .serve "s-0000000000000000"] ++
  ((Heartbeat.run speakingEnv (start 16 (seconds 60) (seconds 3600))
    History.reusingRun).1.flatMap ChangeSet.wsFrames).map .pump ++
  List.replicate 12 .dispatch ++
  (List.replicate 3 [.writeable "s-0000000000000000", .serve "s-0000000000000000",
    .serve "s-0000000000000000"]).flatten

/-- All three frames of the session are written. -/
theorem wire_follows_protocol_deliveringRun :
    ((run deliveringRun).side "s-0000000000000000").wire.length = 3 ∧
      (((run deliveringRun).side "s-0000000000000000").wire = [] ∨
        ∃ req, ∃ texts : List String, ((run deliveringRun).side "s-0000000000000000").wire =
          startPayload speakingEnv req ::
            texts.map fun text => speakingEnv.dump (encodeTaskContinue text)) :=
  ⟨by decide +kernel, wire_follows_protocol speakingEnv 16 (seconds 60) (seconds 3600)
    History.reusingRun deliveringRun _ (fun _ => by simp [speakingEnv]) (by decide +kernel)
    (by decide +kernel) (by decide +kernel)⟩

end WsTaskScheduler

end TtsServer
