import Mathlib.Logic.Function.Basic
import TtsServer.Lib.Runs
import TtsServer.History

/-!
# The channels into the heartbeat

Producers hand their messages to the heartbeat through two channels. Every operation of
a channel runs under its mutex, so a run of the threads is an interleaving of these
operations. `drain_batch` is not one of them: it empties the request channel first and
the channel of upstream events later, and anything may happen in between. The system
below records next to the channels what has been accepted and what the completed batches
took from each channel; the two are compared over all interleavings. What is accepted is
read off the steps themselves: it is what producers send to a channel before its first
`close`.
-/

namespace TtsServer

open Lib

variable {T : Type*}

/-- The error of sending to a closed channel. -/
inductive ChannelError where
  | channelClosed
  deriving DecidableEq, Repr

/-- `CopyChannel<T>`: an unbounded queue that can be closed. -/
structure CopyChannel (T : Type*) where
  buffer : List T := []
  closed : Bool := false
  deriving DecidableEq, Repr

namespace CopyChannel

variable (ch : CopyChannel T)

/-- `send`, which throws when the channel is closed. -/
def send (value : T) : Except ChannelError (CopyChannel T) :=
  if ch.closed then .error .channelClosed
  else .ok { ch with buffer := ch.buffer ++ [value] }

/-- `try_send`; the result tells whether the value was accepted. -/
def trySend (value : T) : Bool × CopyChannel T :=
  if ch.closed then (false, ch)
  else (true, { ch with buffer := ch.buffer ++ [value] })

/-- The loop of `swap_out_all`: pop the front of the queue until it is empty. -/
def popAll : List T → List T → List T
  | [], out => out
  | value :: rest, out => popAll rest (out ++ [value])

/-- `swap_out_all`: the values are appended to a vector of the caller. -/
def swapOutAll (out : List T) : List T × CopyChannel T :=
  (popAll ch.buffer out, { ch with buffer := [] })

/-- `close`. -/
def close : CopyChannel T := { ch with closed := true }

/-- The values are taken out in the order in which they were sent. -/
@[simp] theorem popAll_eq (buffer out : List T) : popAll buffer out = out ++ buffer := by
  induction buffer generalizing out with
  | nil => exact (List.append_nil out).symm
  | cons value rest ih => rw [popAll, ih, List.append_assoc, List.singleton_append]

end CopyChannel

/-- The two channels of the message processor. -/
inductive Side where
  | request | event
  deriving DecidableEq, Repr

/-- The atomic steps of the threads: a producer sends, someone closes a channel, or the
heartbeat makes its next call of `swap_out_all` inside `drain_batch`. -/
inductive ChannelStep (T : Type*) where
  | send (producer : ℕ) (side : Side) (value : T)
  | trySend (producer : ℕ) (side : Side) (value : T)
  | close (side : Side)
  | drain

namespace ChannelStep

/-- The value that a step sends to a channel, if it sends one. -/
def valueFor (side : Side) : ChannelStep T → Option T
  | .send _ side' value | .trySend _ side' value => if side' = side then some value else none
  | .close _ | .drain => none

/-- A step closes a channel. -/
def closes (side : Side) : ChannelStep T → Bool
  | .close side' => decide (side' = side)
  | .send .. | .trySend .. | .drain => false

/-- A step that closes a channel sends it nothing. -/
theorem valueFor_of_closes {l : ChannelStep T} {side : Side} (hcloses : l.closes side = true) :
    l.valueFor side = none := by
  cases l with
  | close side' => rfl
  | send | trySend | drain => cases hcloses

/-- What producers send to a channel before it is first closed. -/
def sentBeforeClose (side : Side) (steps : List (ChannelStep T)) : List T :=
  (steps.takeWhile fun l => !l.closes side).filterMap (valueFor side)

end ChannelStep

/-- The channels, the local vector of a `drain_batch` under way and the batches it has
returned. Next to them stands what the channels have accepted, and which part of every batch
came from which channel. -/
structure ChannelSystem (T : Type*) where
  channel : Side → CopyChannel T := fun _ => {}
  out : Option (List T) := none
  batches : List (List T) := []
  accepted : Side → List T := fun _ => []
  parts : Side → List (List T) := fun _ => []

namespace ChannelSystem

variable (s : ChannelSystem T)

/-- A value has been accepted by a channel, whose new state is given. -/
def accept (side : Side) (value : T) (ch : CopyChannel T) : ChannelSystem T :=
  { s with
    channel := Function.update s.channel side ch
    accepted := Function.update s.accepted side (s.accepted side ++ [value]) }

/-- The parts of the batches when one more is complete. -/
def addParts (requests events : List T) : Side → List (List T)
  | .request => s.parts .request ++ [requests]
  | .event => s.parts .event ++ [events]

/-- The next call of `swap_out_all` in `drain_batch`: the request channel first; then the
upstream events, which are appended one by one, and the batch is complete. -/
def drainNext : ChannelSystem T :=
  match s.out with
  | none =>
    let swapped := (s.channel .request).swapOutAll []
    { s with
      channel := Function.update s.channel .request swapped.2
      out := some swapped.1 }
  | some out =>
    let swapped := (s.channel .event).swapOutAll []
    { s with
      channel := Function.update s.channel .event swapped.2
      out := none
      batches := s.batches ++ [swapped.1.foldl (fun out m => out ++ [m]) out]
      parts := s.addParts out swapped.1 }

/-- One atomic step of some thread. -/
def perform : ChannelStep T → ChannelSystem T
  | .send _ side value =>
    match (s.channel side).send value with
    | .error _ => s
    | .ok ch => s.accept side value ch
  | .trySend _ side value =>
    let sent := (s.channel side).trySend value
    if sent.1 then s.accept side value sent.2 else s
  | .close side => { s with channel := Function.update s.channel side (s.channel side).close }
  | .drain => s.drainNext

/-- The values that a `drain_batch` under way has taken from a channel, read from its local
vector. -/
def held (out : Option (List T)) : Side → List T
  | .request => out.getD []
  | .event => []

variable {s}

/-- The effect of one step on the channels. -/
inductive Effect (s : ChannelSystem T) : ChannelStep T → ChannelSystem T → Prop where
  | rejected {l : ChannelStep T} : Effect s l s
  | accepted {l : ChannelStep T} (side : Side) (value : T)
      (hopen : (s.channel side).closed = false) :
      Effect s l (s.accept side value
        { (s.channel side) with buffer := (s.channel side).buffer ++ [value] })
  | closed (side : Side) : Effect s (.close side)
      { s with channel := Function.update s.channel side (s.channel side).close }
  | begun (hout : s.out = none) : Effect s .drain { s with
      channel := Function.update s.channel .request { (s.channel .request) with buffer := [] }
      out := some (s.channel .request).buffer }
  | completed (out : List T) (hout : s.out = some out) : Effect s .drain { s with
      channel := Function.update s.channel .event { (s.channel .event) with buffer := [] }
      out := none
      batches := s.batches ++ [out ++ (s.channel .event).buffer]
      parts := s.addParts out (s.channel .event).buffer }

/-- Appending a list value by value. -/
theorem foldl_append_singleton (ms out : List T) :
    ms.foldl (fun out m => out ++ [m]) out = out ++ ms := by
  induction ms generalizing out with
  | nil => exact (List.append_nil out).symm
  | cons m ms ih => rw [List.foldl_cons, ih, List.append_assoc, List.singleton_append]

/-- What a producer leaves behind, whichever way it sends. -/
def offer (s : ChannelSystem T) (side : Side) (value : T) : ChannelSystem T :=
  if (s.channel side).closed then s
  else s.accept side value { (s.channel side) with buffer := (s.channel side).buffer ++ [value] }

/-- `send` leaves the channels as they were when it throws. -/
theorem perform_send (producer : ℕ) (side : Side) (value : T) :
    s.perform (.send producer side value) = s.offer side value := by
  by_cases hclosed : (s.channel side).closed = true <;>
    simp [perform, CopyChannel.send, offer, hclosed]

/-- `try_send` does what `send` does, and reports it. -/
theorem perform_trySend (producer : ℕ) (side : Side) (value : T) :
    s.perform (.trySend producer side value) = s.offer side value := by
  by_cases hclosed : (s.channel side).closed = true <;>
    simp [perform, CopyChannel.trySend, offer, hclosed]

/-- Sending is rejected or accepted. -/
theorem offer_effect (s : ChannelSystem T) (l : ChannelStep T) (side : Side) (value : T) :
    Effect s l (s.offer side value) := by
  by_cases hclosed : (s.channel side).closed = true
  · rw [offer, if_pos hclosed]
    exact .rejected
  · rw [offer, if_neg hclosed]
    exact .accepted side value (Bool.eq_false_iff.mpr hclosed)

/-- What one step does. -/
theorem perform_effect (s : ChannelSystem T) (l : ChannelStep T) : Effect s l (s.perform l) := by
  cases l with
  | send producer side value =>
    rw [perform_send]
    exact offer_effect s _ side value
  | trySend producer side value =>
    rw [perform_trySend]
    exact offer_effect s _ side value
  | close side => exact .closed side
  | drain =>
    cases hout : s.out with
    | none =>
      simp only [perform, drainNext, hout, CopyChannel.swapOutAll, CopyChannel.popAll_eq,
        List.nil_append]
      exact .begun hout
    | some out =>
      simp only [perform, drainNext, hout, CopyChannel.swapOutAll, CopyChannel.popAll_eq,
        List.nil_append, foldl_append_singleton]
      exact .completed out hout

/-! ### What goes through the channels -/

/-- What the batches took from a channel, what a `drain_batch` under way holds of it and what
is buffered make up what was accepted; and every batch has the requests before the events. -/
structure Consistent (s : ChannelSystem T) : Prop where
  flow : ∀ side, (s.parts side).flatten ++ held s.out side ++ (s.channel side).buffer =
    s.accepted side
  batches : s.batches = List.zipWith (· ++ ·) (s.parts .request) (s.parts .event)
  complete : ∀ side, (s.parts side).length = s.batches.length

variable {s' : ChannelSystem T} {l : ChannelStep T} {steps mid : List (ChannelStep T)} {side : Side}

/-- Every step keeps the account. -/
theorem Consistent.effect (h : Consistent s) (heffect : Effect s l s') : Consistent s' := by
  cases heffect with
  | rejected => exact h
  | accepted side value hopen =>
    refine ⟨fun side' => ?_, h.batches, h.complete⟩
    by_cases hside : side' = side
    · subst hside
      simp [accept, ← h.flow side', List.append_assoc]
    · simpa [accept, hside] using h.flow side'
  | closed side =>
    refine ⟨fun side' => ?_, h.batches, h.complete⟩
    by_cases hside : side' = side
    · subst hside
      simpa [CopyChannel.close] using h.flow side'
    · simpa [hside] using h.flow side'
  | begun hout =>
    refine ⟨fun side => ?_, h.batches, h.complete⟩
    have hflow := h.flow side
    rw [hout] at hflow
    cases side with
    | request => simpa [held] using hflow
    | event => simpa [held] using hflow
  | completed out hout =>
    refine ⟨fun side => ?_, ?_, fun side => ?_⟩
    · have hflow := h.flow side
      rw [hout] at hflow
      cases side with
      | request => simpa [held, addParts] using hflow
      | event => simpa [held, addParts] using hflow
    · have hlength : (s.parts .request).length = (s.parts .event).length :=
        (h.complete .request).trans (h.complete .event).symm
      simp only [addParts, List.zipWith_append hlength, ← h.batches]
      rfl
    · cases side with
      | request => simpa [addParts] using h.complete .request
      | event => simpa [addParts] using h.complete .event

/-- A step adds batches and accepted messages at the end only. -/
theorem Effect.grows (heffect : Effect s l s') :
    s.parts side <+: s'.parts side ∧ s.accepted side <+: s'.accepted side := by
  cases heffect with
  | rejected => exact ⟨List.prefix_refl _, List.prefix_refl _⟩
  | accepted side' value hopen =>
    refine ⟨List.prefix_refl _, ?_⟩
    by_cases hside : side = side'
    · subst hside
      simp [accept]
    · simp [accept, hside]
  | closed side' => exact ⟨List.prefix_refl _, List.prefix_refl _⟩
  | begun hout => exact ⟨List.prefix_refl _, List.prefix_refl _⟩
  | completed out hout =>
    refine ⟨?_, List.prefix_refl _⟩
    cases side with
    | request => exact List.prefix_append _ _
    | event => exact List.prefix_append _ _

/-- Sending does not close a channel. -/
theorem offer_closed (side' : Side) (value : T) :
    ((s.offer side' value).channel side).closed = (s.channel side).closed := by
  by_cases hclosed : (s.channel side').closed = true
  · simp [offer, hclosed]
  · by_cases hside : side = side'
    · subst hside
      simp [offer, hclosed, accept]
    · simp [offer, hclosed, accept, hside]

/-- What sending adds to what a channel has accepted. -/
theorem offer_accepted (side' : Side) (value : T) :
    (s.offer side' value).accepted side = s.accepted side ++
      if !(s.channel side).closed then (if side' = side then some value else none).toList
      else [] := by
  by_cases hside : side' = side
  · subst hside
    by_cases hclosed : (s.channel side').closed = true <;> simp [offer, hclosed, accept]
  · by_cases hclosed : (s.channel side').closed = true <;>
      simp [offer, hclosed, accept, hside, Ne.symm hside]

/-- A channel is closed by the steps that close it, and by no other. -/
theorem perform_closed (l : ChannelStep T) :
    ((s.perform l).channel side).closed = ((s.channel side).closed || l.closes side) := by
  cases l with
  | send producer side' value => simp [perform_send, offer_closed, ChannelStep.closes]
  | trySend producer side' value => simp [perform_trySend, offer_closed, ChannelStep.closes]
  | close side' =>
    by_cases hside : side = side'
    · subst hside
      simp [perform, CopyChannel.close, ChannelStep.closes]
    · simp [perform, hside, Ne.symm hside, ChannelStep.closes]
  | drain =>
    rcases hout : s.out with _ | out <;> cases side <;>
      simp [perform, drainNext, hout, CopyChannel.swapOutAll, ChannelStep.closes]

/-- An open channel accepts what a step sends to it, a closed one nothing. -/
theorem perform_accepted (l : ChannelStep T) :
    (s.perform l).accepted side = s.accepted side ++
      if !(s.channel side).closed then (l.valueFor side).toList else [] := by
  cases l with
  | send producer side' value => rw [perform_send, offer_accepted, ChannelStep.valueFor]
  | trySend producer side' value => rw [perform_trySend, offer_accepted, ChannelStep.valueFor]
  | close side' => simp [perform, ChannelStep.valueFor]
  | drain =>
    rcases hout : s.out with _ | out <;> simp [perform, drainNext, hout, ChannelStep.valueFor]

/-- The other threads do not touch the batch under construction. -/
theorem Effect.keeps_out (heffect : Effect s l s') (hl : l ≠ .drain) :
    s'.out = s.out ∧ s'.parts = s.parts := by
  cases heffect with
  | rejected => exact ⟨rfl, rfl⟩
  | accepted side' value hopen => exact ⟨rfl, rfl⟩
  | closed side' => exact ⟨rfl, rfl⟩
  | begun hout => exact absurd rfl hl
  | completed out hout => exact absurd rfl hl

/-! ### Runs -/

/-- The account is kept along every interleaving. -/
theorem Consistent.run (h : Consistent s) : Consistent (steps.foldl perform s) := by
  induction steps generalizing s with
  | nil => exact h
  | cons l steps ih => exact ih (h.effect (perform_effect s l))

/-- The system as it is constructed. -/
theorem consistent_init : Consistent ({} : ChannelSystem T) := by
  refine ⟨fun side => ?_, rfl, fun _ => rfl⟩
  cases side <;> rfl

/-- A run adds batches and accepted messages at the end only. -/
theorem run_grows : s.parts side <+: (steps.foldl perform s).parts side ∧
    s.accepted side <+: (steps.foldl perform s).accepted side := by
  induction steps generalizing s with
  | nil => exact ⟨List.prefix_refl _, List.prefix_refl _⟩
  | cons l steps ih =>
    obtain ⟨hparts, haccepted⟩ := @Effect.grows _ _ _ _ side (perform_effect s l)
    exact ⟨hparts.trans ih.1, haccepted.trans ih.2⟩

/-- A closed channel accepts nothing in the rest of the run. -/
theorem run_closed (hclosed : (s.channel side).closed = true) :
    (steps.foldl perform s).accepted side = s.accepted side :=
  @foldl_log_of_stopped _ _ _ s steps _ (·.accepted side) (fun s => (s.channel side).closed)
    (fun _ _ => true) (ChannelStep.valueFor side) (ChannelStep.closes side)
    (fun s l => by rw [perform_accepted, Bool.and_true])
    (fun s l => by rw [perform_closed, Bool.true_and]) hclosed

/-- A run accepts what is sent to an open channel before the first step that closes it. -/
theorem run_accepted (hopen : (s.channel side).closed = false) :
    (steps.foldl perform s).accepted side =
      s.accepted side ++ ChannelStep.sentBeforeClose side steps := by
  have hrun := @foldl_log_until _ _ _ s steps _ (·.accepted side) (fun s => (s.channel side).closed)
    (fun _ _ => true) (ChannelStep.valueFor side) (ChannelStep.closes side)
    (fun s l => by rw [perform_accepted, Bool.and_true])
    (fun s l => by rw [perform_closed, Bool.true_and])
    (fun _ => ChannelStep.valueFor_of_closes) hopen
  rwa [passing_true] at hrun

/-- Between the two halves of a `drain_batch` the batch under construction stays. -/
theorem run_keeps_out (hmid : ChannelStep.drain ∉ mid) :
    (mid.foldl perform s).out = s.out ∧ (mid.foldl perform s).parts = s.parts := by
  induction mid generalizing s with
  | nil => exact ⟨rfl, rfl⟩
  | cons l mid ih =>
    obtain ⟨hl, hmid⟩ := List.ne_and_not_mem_of_not_mem_cons hmid
    obtain ⟨hout, hparts⟩ := (perform_effect s l).keeps_out hl.symm
    obtain ⟨hout', hparts'⟩ := @ih (s.perform l) hmid
    exact ⟨hout'.trans hout, hparts'.trans hparts⟩

/-- The first half of a `drain_batch`. -/
theorem perform_drain_begins (hout : s.out = none) :
    (s.perform .drain).out = some (s.channel .request).buffer ∧
      (s.perform .drain).parts = s.parts ∧ (s.perform .drain).accepted = s.accepted := by
  simp [perform, drainNext, hout, CopyChannel.swapOutAll]

/-- The second half of a `drain_batch`. -/
theorem perform_drain_completes {out : List T} (hout : s.out = some out) :
    (s.perform .drain).parts = s.addParts out (s.channel .event).buffer := by
  simp [perform, drainNext, hout, CopyChannel.swapOutAll]

/-- A complete `drain_batch` delivers what was accepted before it began. -/
theorem Consistent.drain_delivers (h : Consistent s) (hout : s.out = none)
    (hmid : ChannelStep.drain ∉ mid) :
    s.accepted side <+:
      (((mid.foldl perform (s.perform .drain)).perform .drain).parts side).flatten := by
  obtain ⟨hbegun, hparts, haccepted⟩ := perform_drain_begins hout
  have hconsistent : Consistent (mid.foldl perform (s.perform .drain)) :=
    (h.effect (perform_effect s .drain)).run
  obtain ⟨hheld, hsame⟩ := @run_keeps_out _ (s.perform .drain) mid hmid
  rw [hparts] at hsame
  rw [perform_drain_completes (hheld.trans hbegun)]
  cases side with
  | request =>
    have hflow := h.flow .request
    rw [hout] at hflow
    simp only [held, Option.getD_none, List.append_nil] at hflow
    simp [addParts, hsame, hflow]
  | event =>
    have hflow := hconsistent.flow .event
    simp only [held, List.append_nil] at hflow
    have hgrows := (@run_grows _ (s.perform .drain) mid .event).2
    rw [haccepted] at hgrows
    simpa [addParts, hflow] using hgrows

/-- No message is skipped, duplicated or reordered, in any interleaving: the batches and what
is left make up what was sent to each channel before its first `close`, a batch has the
requests first, and the next `drain_batch` delivers what was sent, before or after a channel
was closed. -/
theorem channels_deliver_in_order (steps : List (ChannelStep T)) :
    let run (steps : List (ChannelStep T)) : ChannelSystem T := steps.foldl perform {}
    (∀ side, (run steps).accepted side = ChannelStep.sentBeforeClose side steps) ∧
    (∀ side, ((run steps).parts side).flatten ++ held (run steps).out side ++
      ((run steps).channel side).buffer = (run steps).accepted side) ∧
    (run steps).batches =
      List.zipWith (· ++ ·) ((run steps).parts .request) ((run steps).parts .event) ∧
    (∀ side, ((run steps).parts side).length = (run steps).batches.length) ∧
    (∀ side before after, steps = before ++ after → ((run before).channel side).closed = true →
      (run steps).accepted side = (run before).accepted side) ∧
    (∀ side before mid after, steps = before ++ .drain :: (mid ++ .drain :: after) →
      (run before).out = none → .drain ∉ mid →
      (run before).accepted side <+: ((run steps).parts side).flatten) := by
  intro run
  have hrun (steps : List (ChannelStep T)) : Consistent (run steps) := consistent_init.run
  refine ⟨fun side => ?_, (hrun steps).flow, (hrun steps).batches, (hrun steps).complete, ?_, ?_⟩
  · exact (run_accepted rfl).trans (List.nil_append _)
  · rintro side before after rfl hclosed
    simp only [run, List.foldl_append] at hclosed ⊢
    exact run_closed hclosed
  · rintro side before mid after rfl hout hmid
    have hdelivered := @Consistent.drain_delivers _ _ mid side (hrun before) hout hmid
    simp only [run, List.foldl_append, List.foldl_cons] at hdelivered ⊢
    obtain ⟨later, hlater⟩ := (@run_grows _ (((mid.foldl perform
      ((before.foldl perform {}).perform .drain)).perform .drain)) after side).1
    rw [← hlater, List.flatten_append]
    exact hdelivered.trans (List.prefix_append _ _)

/-! ### The heartbeat -/

/-- The inputs of the ticks that take their batches from the channels. -/
def tickInputs (s : ChannelSystem Message) : List Heartbeat.TickInput :=
  List.zipWith (fun requests events => { requests, events }) (s.parts .request) (s.parts .event)

/-- The heartbeat handles exactly the messages of the batches. -/
theorem Consistent.messagesOf_tickInputs {s : ChannelSystem Message} (h : Consistent s) :
    messagesOf (tickInputs s) = s.batches.flatten := by
  rw [h.batches, messagesOf, tickInputs, List.flatMap_def, List.map_zipWith]
  rfl

end ChannelSystem

end TtsServer
