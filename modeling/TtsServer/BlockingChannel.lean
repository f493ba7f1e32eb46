import TtsServer.Channels
import TtsServer.Lib.LeadsTo
import TtsServer.Lib.Threads

/-!
# Receivers that wait on a channel

`recv` takes the lock of the channel, waits on its condition variable until a value is
buffered or the channel is closed, and takes the front of the buffer. `recv` with a timeout
and `recv_for` give up when the time is over, after one more look. A sender notifies one
receiver after it has let go of the lock, and `close` notifies all of them. Notifications can
come late, go to a receiver that finds the buffer empty, or find nobody parked; a receiver
may also wake by itself.

The steps here are the accesses to shared state, for any number of receivers, senders and
closers. No wake-up is lost: while a receiver is parked, the buffered values are no more than
the notifications that are still to come and the receivers that are about to look. So, once
senders and new calls pause, the calls go on until they have all returned or an open channel
is empty.
-/

namespace TtsServer

open Lib

variable {T : Type*}

/-- Where a receiver is in its call; a call may have a timeout. -/
inductive RecvPhase where
  /-- In no call. -/
  | idle
  /-- About to take the lock. -/
  | locking (timed : Bool)
  /-- With the lock, about to test the predicate of the wait. -/
  | testing (timed : Bool)
  /-- With the lock, the predicate found false. -/
  | parking (timed : Bool)
  /-- Waiting for a notification. -/
  | parked (timed : Bool)
  /-- Notified, about to take the lock again. -/
  | woken (timed : Bool)
  /-- The time is over, about to take the lock again. -/
  | expiring
  /-- With the lock after the time is over, about to test the predicate once more. -/
  | lastTest
  /-- With the lock, behind the wait. -/
  | taking (timed : Bool)
  deriving DecidableEq, Repr

namespace RecvPhase

/-- In this phase the lock of the channel is held. -/
def holdsLock : RecvPhase → Bool
  | testing _ | parking _ | lastTest | taking _ => true
  | _ => false

/-- A receiver in this phase looks at the buffer before it parks. -/
def looking : RecvPhase → Bool
  | locking _ | testing _ | woken _ | expiring | lastTest | taking _ => true
  | _ => false

/-- The receiver is parked. -/
def isParked : RecvPhase → Bool
  | parked _ => true
  | _ => false

/-- The receiver is parked or about to park. -/
def isWaiting : RecvPhase → Bool
  | parking _ | parked _ => true
  | _ => false

/-- How far a receiver is from the end of its call, when there is something to receive. -/
def rank : RecvPhase → ℕ
  | idle => 0
  | taking _ => 1
  | testing _ | lastTest => 2
  | locking _ | expiring => 3
  | woken _ => 4
  | parked _ => 5
  | parking _ => 6

/-- A parked receiver is woken. -/
def wake : RecvPhase → RecvPhase
  | parked timed => woken timed
  | phase => phase

end RecvPhase

/-- What calls put out: the result of a `recv`, with how it found the channel, or a value that
`swap_out_all` put into the vector of its caller. -/
inductive ChannelReturn (T : Type*) where
  | recv (timed : Bool) (value : Option T) (empty closed : Bool)
  | swappedOut (value : T)
  deriving DecidableEq, Repr

/-- The value that leaves the channel this way, if there is one. -/
def ChannelReturn.value? : ChannelReturn T → Option T
  | recv _ value _ _ => value
  | swappedOut value => some value

/-- The channel with its receivers and the notifications to come. -/
structure BlockingChannel (T : Type*) where
  channel : CopyChannel T := {}
  receivers : List RecvPhase := []
  /-- The sends whose `notify_one` is due. -/
  notifying : ℕ := 0
  /-- The closes whose `notify_all` is due. -/
  closing : ℕ := 0
  /-- What the channel has accepted, for the record. -/
  accepted : List T := []
  /-- What the calls have returned, in the order in which they had the lock. -/
  returns : List (ChannelReturn T) := []

/-- The steps of the threads. -/
inductive RecvStep (T : Type*) where
  /-- `send` or `try_send` under the lock. -/
  | send (value : T)
  /-- The notification of a send goes to the receiver with this index, if any is parked. -/
  | notifyOne (i : ℕ)
  /-- `close` under the lock. -/
  | close
  /-- The notification of a close. -/
  | notifyAll
  | swapOutAll
  /-- The receiver with this index calls `recv`. -/
  | call (i : ℕ) (timed : Bool)
  /-- The receiver with this index takes its next step. -/
  | receiver (i : ℕ)
  /-- The time of a receiver that waits or has just been woken is over. -/
  | timeout (i : ℕ)
  /-- A parked receiver wakes by itself. -/
  | wake (i : ℕ)
  deriving DecidableEq, Repr

/-- The value that a step sends, if it sends one. -/
def RecvStep.value : RecvStep T → Option T
  | .send value => some value
  | _ => none

/-- The step closes the channel. -/
def RecvStep.isClose : RecvStep T → Bool
  | .close => true
  | _ => false

/-- The steps that bring neither a new value nor a new call, nor close the channel. -/
def RecvStep.isQuiet : RecvStep T → Bool
  | .send _ | .close | .call _ _ => false
  | _ => true

namespace BlockingChannel

/-- A channel with a number of receivers. -/
def init (T : Type*) (n : ℕ) : BlockingChannel T := { receivers := List.replicate n .idle }

/-- No receiver holds the lock of the channel. -/
def lockFree (s : BlockingChannel T) : Bool := s.receivers.all (!·.holdsLock)

/-- The predicate of the waits. -/
def ready (s : BlockingChannel T) : Bool := !s.channel.buffer.isEmpty || s.channel.closed

/-- The receiver moves to another phase. -/
def move (s : BlockingChannel T) (i : ℕ) (phase : RecvPhase) : BlockingChannel T :=
  { s with receivers := s.receivers.set i phase }

/-- What has left the channel: the values that the calls have returned. -/
def taken (s : BlockingChannel T) : List T := s.returns.filterMap ChannelReturn.value?

/-- The receiver returns from its call. -/
def giveBack (s : BlockingChannel T) (i : ℕ) (timed : Bool) (value : Option T) :
    BlockingChannel T :=
  { s.move i .idle with
    returns := s.returns ++
      [.recv timed value s.channel.buffer.isEmpty s.channel.closed] }

/-- The next step of a receiver. -/
def receive (s : BlockingChannel T) (i : ℕ) : RecvPhase → BlockingChannel T
  | .idle => s
  | .locking timed => if s.lockFree then s.move i (.testing timed) else s
  | .testing timed => s.move i (if s.ready then .taking timed else .parking timed)
  | .parking timed => s.move i (.parked timed)
  | .parked _ => s
  | .woken timed => if s.lockFree then s.move i (.testing timed) else s
  | .expiring => if s.lockFree then s.move i .lastTest else s
  | .lastTest => if s.ready then s.move i (.taking true) else s.giveBack i true none
  | .taking timed =>
    match s.channel.buffer with
    | [] => s.giveBack i timed none
    | value :: rest =>
      { s.giveBack i timed (some value) with
        channel := { s.channel with buffer := rest } }

/-- One step; a step that is not possible changes nothing. A send to a closed channel throws or
returns false. -/
def step (s : BlockingChannel T) : RecvStep T → BlockingChannel T
  | .send value =>
    if s.lockFree then
      match s.channel.send value with
      | .ok channel =>
        { s with channel, notifying := s.notifying + 1, accepted := s.accepted ++ [value] }
      | .error _ => s
    else s
  | .notifyOne i =>
    if 0 < s.notifying then
      if s.receivers.any RecvPhase.isParked then
        match s.receivers[i]? with
        | some (.parked timed) => { s.move i (.woken timed) with notifying := s.notifying - 1 }
        | _ => s
      else { s with notifying := s.notifying - 1 }
    else s
  | .close =>
    if s.lockFree then { s with channel := s.channel.close, closing := s.closing + 1 } else s
  | .notifyAll =>
    if 0 < s.closing then
      { s with receivers := s.receivers.map RecvPhase.wake, closing := s.closing - 1 }
    else s
  | .swapOutAll =>
    if s.lockFree then
      { s with
        channel := (s.channel.swapOutAll []).2
        returns := s.returns ++ (s.channel.swapOutAll []).1.map .swappedOut }
    else s
  | .call i timed =>
    match s.receivers[i]? with
    | some .idle => s.move i (.locking timed)
    | _ => s
  | .receiver i =>
    match s.receivers[i]? with
    | some phase => s.receive i phase
    | none => s
  | .timeout i =>
    match s.receivers[i]? with
    | some (.parked true) => s.move i .expiring
    | some (.woken true) => s.move i .expiring
    | _ => s
  | .wake i =>
    match s.receivers[i]? with
    | some (.parked timed) => s.move i (.woken timed)
    | _ => s

/-- The steps in turn, from a new channel with a number of receivers. -/
def run (n : ℕ) (steps : List (RecvStep T)) : BlockingChannel T := steps.foldl step (init T n)

/-- What is sent on a new channel before it is first closed. A send or a close whose turn comes
while a receiver has the lock is not made: it has to wait for another turn. -/
def sentBeforeClose (n : ℕ) (steps : List (RecvStep T)) : List T :=
  ((passing step (fun s _ => s.lockFree) (init T n) steps).takeWhile (!·.isClose)).filterMap
    RecvStep.value

/-! ### What a step can do -/

/-- The moves of a receiver that touch nothing else. -/
inductive Edge (s : BlockingChannel T) : RecvPhase → RecvPhase → Prop
  | lock {timed} (hfree : s.lockFree = true) : Edge s (.locking timed) (.testing timed)
  | relock {timed} (hfree : s.lockFree = true) : Edge s (.woken timed) (.testing timed)
  | lockLast (hfree : s.lockFree = true) : Edge s .expiring .lastTest
  | pass {timed} (hready : s.ready = true) : Edge s (.testing timed) (.taking timed)
  | passLast (hready : s.ready = true) : Edge s .lastTest (.taking true)
  | wait {timed} (hready : s.ready = false) : Edge s (.testing timed) (.parking timed)
  | park {timed} : Edge s (.parking timed) (.parked timed)
  | wake {timed} : Edge s (.parked timed) (.woken timed)
  | expire : Edge s (.parked true) .expiring
  | expireWoken : Edge s (.woken true) .expiring

/-- The steps that change the channel. -/
inductive Transition (s : BlockingChannel T) : RecvStep T → BlockingChannel T → Prop
  | move {l i p q} (hi : s.receivers[i]? = some p) (hedge : Edge s p q) :
      Transition s l (s.move i q)
  | call {i timed} (hi : s.receivers[i]? = some .idle) :
      Transition s (.call i timed) (s.move i (.locking timed))
  | send {value} (hfree : s.lockFree = true) (hopen : s.channel.closed = false) :
      Transition s (.send value) { s with
        channel := { s.channel with buffer := s.channel.buffer ++ [value] }
        notifying := s.notifying + 1
        accepted := s.accepted ++ [value] }
  | notify {l i timed} (hdue : 0 < s.notifying) (hi : s.receivers[i]? = some (.parked timed)) :
      Transition s l { s.move i (.woken timed) with notifying := s.notifying - 1 }
  | notifyNobody {l} (hdue : 0 < s.notifying)
      (hnobody : s.receivers.any RecvPhase.isParked = false) :
      Transition s l { s with notifying := s.notifying - 1 }
  | close (hfree : s.lockFree = true) :
      Transition s .close { s with channel := s.channel.close, closing := s.closing + 1 }
  | notifyAll {l} (hdue : 0 < s.closing) :
      Transition s l
        { s with receivers := s.receivers.map RecvPhase.wake, closing := s.closing - 1 }
  | swapOutAll {l} (hfree : s.lockFree = true) :
      Transition s l { s with
        channel := { s.channel with buffer := [] }
        returns := s.returns ++ s.channel.buffer.map .swappedOut }
  | take {l i timed value rest} (hi : s.receivers[i]? = some (.taking timed))
      (hbuffer : s.channel.buffer = value :: rest) :
      Transition s l { s.giveBack i timed (some value) with
        channel := { s.channel with buffer := rest } }
  | miss {l i timed} (hi : s.receivers[i]? = some (.taking timed))
      (hbuffer : s.channel.buffer = []) : Transition s l (s.giveBack i timed none)
  | giveUp {l i} (hi : s.receivers[i]? = some .lastTest) (hready : s.ready = false) :
      Transition s l (s.giveBack i true none)

/-- A step of a receiver is a transition or changes nothing. -/
theorem receive_cases (s : BlockingChannel T) {l : RecvStep T} {i : ℕ} {p : RecvPhase}
    (hi : s.receivers[i]? = some p) : s.receive i p = s ∨ Transition s l (s.receive i p) := by
  cases p with
  | idle => exact .inl rfl
  | locking timed =>
    simp only [receive]
    split
    · next hfree => exact .inr (.move hi (.lock hfree))
    · exact .inl rfl
  | testing timed =>
    simp only [receive]
    split
    · next hready => exact .inr (.move hi (.pass hready))
    · next hready => exact .inr (.move hi (.wait (by simpa using hready)))
  | parking timed => exact .inr (.move hi .park)
  | parked timed => exact .inl rfl
  | woken timed =>
    simp only [receive]
    split
    · next hfree => exact .inr (.move hi (.relock hfree))
    · exact .inl rfl
  | expiring =>
    simp only [receive]
    split
    · next hfree => exact .inr (.move hi (.lockLast hfree))
    · exact .inl rfl
  | lastTest =>
    simp only [receive]
    split
    · next hready => exact .inr (.move hi (.passLast hready))
    · next hready => exact .inr (.giveUp hi (by simpa using hready))
  | taking timed =>
    simp only [receive]
    split
    · next hbuffer => exact .inr (.miss hi hbuffer)
    · next hbuffer => exact .inr (.take hi hbuffer)

/-- Every step changes nothing or is one of the transitions. -/
theorem step_cases (s : BlockingChannel T) (l : RecvStep T) :
    s.step l = s ∨ Transition s l (s.step l) := by
  cases l with
  | send value =>
    simp only [step]
    split
    · next hfree =>
      by_cases hclosed : s.channel.closed = true
      · exact .inl (by simp [CopyChannel.send, hclosed])
      · have hopen : s.channel.closed = false := by simpa using hclosed
        have hsent : s.channel.send value =
            .ok { s.channel with buffer := s.channel.buffer ++ [value] } := if_neg hclosed
        rw [hsent]
        exact .inr (.send hfree hopen)
    · exact .inl rfl
  | notifyOne i =>
    simp only [step]
    split
    · next hdue =>
      split
      · split
        · next hi => exact .inr (.notify hdue hi)
        · exact .inl rfl
      · next hnobody => exact .inr (.notifyNobody hdue (by simpa using hnobody))
    · exact .inl rfl
  | close =>
    simp only [step]
    split
    · next hfree => exact .inr (.close hfree)
    · exact .inl rfl
  | notifyAll =>
    simp only [step]
    split
    · next hdue => exact .inr (.notifyAll hdue)
    · exact .inl rfl
  | swapOutAll =>
    simp only [step]
    split
    · next hfree =>
      have hswap := @Transition.swapOutAll _ s .swapOutAll hfree
      simpa [CopyChannel.swapOutAll] using Or.inr hswap
    · exact .inl rfl
  | call i timed =>
    simp only [step]
    split
    · next hi => exact .inr (.call hi)
    · exact .inl rfl
  | receiver i =>
    simp only [step]
    split
    · next hi => exact s.receive_cases hi
    · exact .inl rfl
  | timeout i =>
    simp only [step]
    split
    · next hi => exact .inr (.move hi .expire)
    · next hi => exact .inr (.move hi .expireWoken)
    · exact .inl rfl
  | wake i =>
    simp only [step]
    split
    · next hi => exact .inr (.move hi .wake)
    · exact .inl rfl

/-- A property that every transition keeps holds in every state of a run. -/
theorem run_induction {R : BlockingChannel T → Prop} {n : ℕ} (hinit : R (init T n))
    (hstep : ∀ s s' l, R s → Transition s l s' → R s') (steps : List (RecvStep T)) :
    R (run n steps) :=
  foldl_of_transitions (T := fun s s' => ∃ l, Transition s l s')
    (fun s l => (step_cases s l).imp_right fun h => ⟨l, h⟩) hinit
    (fun s s' hR ⟨l, h⟩ => hstep s s' l hR h) steps

/-! ### The lock -/

variable {s s' : BlockingChannel T} {i j : ℕ} {p q : RecvPhase}
  {l : RecvStep T}

/-- A receiver has to wait exactly while the buffer is empty and the channel open. -/
theorem ready_eq_false_iff :
    s.ready = false ↔ s.channel.buffer = [] ∧ s.channel.closed = false := by
  simp [ready]

/-- A receiver finds something to return for as soon as there is a value or the channel is closed.
-/
theorem ready_eq_true_iff : s.ready = true ↔ s.channel.buffer ≠ [] ∨ s.channel.closed = true := by
  simp [ready]

/-- Nobody holds a lock that is free. -/
theorem holdsLock_of_lockFree (hfree : s.lockFree = true) (hi : s.receivers[i]? = some p) :
    p.holdsLock = false := by
  simpa using List.all_eq_true.mp hfree p (List.mem_of_getElem? hi)

/-- The phases after a receiver has moved. -/
theorem getElem?_set_of_some (hi : s.receivers[i]? = some p) :
    (s.receivers.set i q)[j]? = if i = j then some q else s.receivers[j]? := by
  obtain ⟨hlt, -⟩ := List.getElem?_eq_some_iff.mp hi
  split
  · next hij =>
    subst hij
    exact List.getElem?_set_self hlt
  · next hij => exact List.getElem?_set_ne hij

/-- At most one receiver holds the lock, and what it has found in its test still holds. -/
structure Locking (s : BlockingChannel T) : Prop where
  exclusive : ∀ {i j : ℕ} {p q : RecvPhase}, s.receivers[i]? = some p → s.receivers[j]? = some q →
    p.holdsLock = true → q.holdsLock = true → i = j
  refused : ∀ {i : ℕ} {timed : Bool}, s.receivers[i]? = some (.parking timed) → s.ready = false
  admitted : ∀ {i : ℕ} {timed : Bool}, s.receivers[i]? = some (.taking timed) → s.ready = true

/-- A receiver moves, and the channel stays as it is. -/
theorem Locking.move (h : Locking s) (hi : s.receivers[i]? = some p)
    (hlock : q.holdsLock = true → p.holdsLock = true ∨ s.lockFree = true)
    (hparking : ∀ {timed}, q = .parking timed → s.ready = false)
    (htaking : ∀ {timed}, q = .taking timed → s.ready = true) : Locking (s.move i q) := by
  have hthem {j : ℕ} {r : RecvPhase} (hq : q.holdsLock = true) (hj : s.receivers[j]? = some r)
      (hr : r.holdsLock = true) : i = j := by
    rcases hlock hq with hp | hfree
    · exact h.exclusive hi hj hp hr
    · rw [holdsLock_of_lockFree hfree hj] at hr
      cases hr
  refine ⟨fun {a b x y} ha hb hx hy => ?_, fun {a timed} ha => ?_, fun {a timed} ha => ?_⟩
  · simp only [BlockingChannel.move, getElem?_set_of_some hi] at ha hb
    split at ha
    · next hia =>
      obtain rfl := Option.some.inj ha
      split at hb
      · next hib => exact hia.symm.trans hib
      · exact hia ▸ hthem hx hb hy
    · split at hb
      · next hib =>
        obtain rfl := Option.some.inj hb
        exact hib ▸ (hthem hy ha hx).symm
      · exact h.exclusive ha hb hx hy
  · simp only [BlockingChannel.move, getElem?_set_of_some hi] at ha
    split at ha
    · exact hparking (Option.some.inj ha)
    · exact h.refused ha
  · simp only [BlockingChannel.move, getElem?_set_of_some hi] at ha
    split at ha
    · exact htaking (Option.some.inj ha)
    · exact h.admitted ha

/-- The channel changes while nobody holds the lock. -/
theorem Locking.of_lockFree (hfree : s.lockFree = true)
    (hreceivers : s'.receivers = s.receivers) : Locking s' := by
  have hnobody {i : ℕ} {p : RecvPhase} (hi : s'.receivers[i]? = some p) : p.holdsLock = false :=
    holdsLock_of_lockFree hfree (hreceivers ▸ hi)
  refine ⟨fun hi _ hp _ => ?_, fun hi => ?_, fun hi => ?_⟩
  · rw [hnobody hi] at hp
    cases hp
  · cases hnobody hi
  · cases hnobody hi

/-- The receiver that holds the lock returns; what becomes of the channel concerns nobody. -/
theorem Locking.leave (h : Locking s) (hi : s.receivers[i]? = some p) (hp : p.holdsLock = true)
    (hreceivers : s'.receivers = s.receivers.set i .idle) : Locking s' := by
  have hnobody {j : ℕ} {q : RecvPhase} (hj : s'.receivers[j]? = some q) : q.holdsLock = false := by
    rw [hreceivers, getElem?_set_of_some hi] at hj
    split at hj
    · rw [← Option.some.inj hj]
      rfl
    · next hij =>
      by_contra hq
      exact hij (h.exclusive hi hj hp (by simpa using hq))
  refine ⟨fun hj _ hq _ => ?_, fun hj => ?_, fun hj => ?_⟩
  · rw [hnobody hj] at hq
    cases hq
  · cases hnobody hj
  · cases hnobody hj

/-- Waking does not touch the lock. -/
theorem wake_eq_of_holdsLock (hp : p.wake.holdsLock = true) : p.wake = p := by
  cases p <;> first | rfl | cases hp

/-- Every transition keeps the discipline of the lock. -/
theorem Locking.transition (h : Locking s) (ht : Transition s l s') : Locking s' := by
  cases ht with
  | move hi hedge =>
    cases hedge with
    | lock hfree => exact h.move hi (fun _ => Or.inr hfree) nofun nofun
    | relock hfree => exact h.move hi (fun _ => Or.inr hfree) nofun nofun
    | lockLast hfree => exact h.move hi (fun _ => Or.inr hfree) nofun nofun
    | pass hready => exact h.move hi (fun _ => Or.inl rfl) nofun fun _ => hready
    | passLast hready => exact h.move hi (fun _ => Or.inl rfl) nofun fun _ => hready
    | wait hready => exact h.move hi (fun _ => Or.inl rfl) (fun _ => hready) nofun
    | park => exact h.move hi nofun nofun nofun
    | wake => exact h.move hi nofun nofun nofun
    | expire => exact h.move hi nofun nofun nofun
    | expireWoken => exact h.move hi nofun nofun nofun
  | call hi => exact h.move hi nofun nofun nofun
  | send hfree hopen => exact .of_lockFree hfree rfl
  | close hfree => exact .of_lockFree hfree rfl
  | swapOutAll hfree => exact .of_lockFree hfree rfl
  | @notify _ i timed hdue hi =>
    have hmoved : Locking (s.move i (.woken timed)) := h.move hi nofun nofun nofun
    exact ⟨hmoved.exclusive, hmoved.refused, hmoved.admitted⟩
  | notifyNobody hdue hnobody => exact ⟨h.exclusive, h.refused, h.admitted⟩
  | notifyAll hdue =>
    have hback {j : ℕ} {q : RecvPhase} (hj : (s.receivers.map RecvPhase.wake)[j]? = some q)
        (hq : q.holdsLock = true) : s.receivers[j]? = some q := by
      rw [List.getElem?_map] at hj
      obtain ⟨p, hp, rfl⟩ := Option.map_eq_some_iff.mp hj
      rwa [wake_eq_of_holdsLock hq]
    exact ⟨fun hi hj hp hq => h.exclusive (hback hi hp) (hback hj hq) hp hq,
      fun hi => h.refused (hback hi rfl), fun hi => h.admitted (hback hi rfl)⟩
  | take hi hbuffer => exact h.leave hi rfl rfl
  | miss hi hbuffer => exact h.leave hi rfl rfl
  | giveUp hi hready => exact h.leave hi rfl rfl

/-! ### Wake-ups -/

/-- While a receiver waits, every buffered value has a notification to come or a receiver that is
about to look; and receivers are parked on a closed channel only until it is announced. -/
structure Attended (s : BlockingChannel T) : Prop where
  tokens : ∀ {i : ℕ} {p : RecvPhase}, s.receivers[i]? = some p → p.isWaiting = true →
    s.channel.buffer.length ≤ s.notifying + s.receivers.countP RecvPhase.looking
  announced : s.channel.closed = true → ∀ {i : ℕ} {timed : Bool},
    s.receivers[i]? = some (.parked timed) → 0 < s.closing

/-- A receiver that is about to look moves on, or another one joins. -/
theorem Attended.move (h : Attended s) (hi : s.receivers[i]? = some p)
    (hlooking : p.looking = true → q.looking = true ∨ s.channel.buffer = [])
    (hwaiting : q.isWaiting = true → p.isWaiting = true ∨ s.channel.buffer = [])
    (hparked : ∀ {timed}, q = .parked timed → s.channel.closed = true → 0 < s.closing) :
    Attended (s.move i q) := by
  have hcount := countP_set_add RecvPhase.looking hi q
  have hbound {j : ℕ} {r : RecvPhase} (hj : s.receivers[j]? = some r) (hr : r.isWaiting = true) :
      s.channel.buffer.length ≤
        s.notifying + (s.receivers.set i q).countP RecvPhase.looking := by
    have hbefore := h.tokens hj hr
    cases hp : p.looking with
    | false =>
      rw [hp, Bool.toNat_false] at hcount
      omega
    | true =>
      rcases hlooking hp with hq | hempty
      · rw [hp, hq] at hcount
        omega
      · rw [hempty, List.length_nil]
        omega
  refine ⟨fun {j r} hj hr => ?_, fun hclosed {j timed} hj => ?_⟩
  · simp only [BlockingChannel.move, getElem?_set_of_some hi] at hj ⊢
    split at hj
    · obtain rfl := Option.some.inj hj
      rcases hwaiting hr with hp | hempty
      · exact hbound hi hp
      · rw [hempty, List.length_nil]
        omega
    · exact hbound hj hr
  · simp only [BlockingChannel.move, getElem?_set_of_some hi] at hj
    split at hj
    · exact hparked (Option.some.inj hj) hclosed
    · exact h.announced hclosed hj

/-- Waking everybody leaves no fewer receivers that are about to look. -/
theorem countP_looking_le_map_wake (ts : List RecvPhase) :
    ts.countP RecvPhase.looking ≤ (ts.map RecvPhase.wake).countP RecvPhase.looking := by
  rw [List.countP_map]
  refine List.countP_mono_left fun p _ hp => ?_
  cases p <;> first | rfl | cases hp

/-- The receiver that returns from its call leaves no more values than it found, or one less for
its own look. -/
theorem Attended.leave (h : Attended s) (hi : s.receivers[i]? = some p) (hp : p.looking = true)
    (hreceivers : s'.receivers = s.receivers.set i .idle) (hnotifying : s'.notifying = s.notifying)
    (hclosing : s'.closing = s.closing) (hclosed : s'.channel.closed = s.channel.closed)
    (hlength : s'.channel.buffer.length ≤ s.channel.buffer.length - 1) : Attended s' := by
  have hcount := countP_set_add RecvPhase.looking hi .idle
  rw [hp, Bool.toNat_true] at hcount
  refine ⟨fun {j r} hj hr => ?_, fun hshut {j timed} hj => ?_⟩
  · rw [hreceivers, getElem?_set_of_some hi] at hj
    split at hj
    · rw [← Option.some.inj hj] at hr
      cases hr
    · have hbefore := h.tokens hj hr
      have hidle : (RecvPhase.idle.looking).toNat = 0 := rfl
      rw [hnotifying, hreceivers]
      omega
  · rw [hreceivers, getElem?_set_of_some hi] at hj
    split at hj
    · cases hj
    · rw [hclosing]
      exact h.announced (hclosed ▸ hshut) hj

/-- A step of a receiver inside its call keeps the channel attended. -/
theorem Attended.edge (h : Attended s) (hlocking : Locking s) (hi : s.receivers[i]? = some p)
    (hedge : Edge s p q) : Attended (s.move i q) := by
  cases hedge with
  | lock hfree => exact h.move hi (fun _ => .inl rfl) nofun nofun
  | relock hfree => exact h.move hi (fun _ => .inl rfl) nofun nofun
  | lockLast hfree => exact h.move hi (fun _ => .inl rfl) nofun nofun
  | pass hready => exact h.move hi (fun _ => .inl rfl) nofun nofun
  | passLast hready => exact h.move hi (fun _ => .inl rfl) nofun nofun
  | wait hready =>
    have hempty := (ready_eq_false_iff.mp hready).1
    exact h.move hi (fun _ => .inr hempty) (fun _ => .inr hempty) nofun
  | park =>
    -- The test that sent the receiver here found the channel open, and it still has the lock.
    have hopen := (ready_eq_false_iff.mp (hlocking.refused hi)).2
    refine h.move hi nofun (fun _ => .inl rfl) fun _ hclosed => ?_
    rw [hopen] at hclosed
    cases hclosed
  | wake => exact h.move hi nofun nofun nofun
  | expire => exact h.move hi nofun nofun nofun
  | expireWoken => exact h.move hi (fun _ => .inl rfl) nofun nofun

/-- After the notification of a close nobody is parked. -/
theorem Attended.wakeAll (h : Attended s) :
    Attended { s with receivers := s.receivers.map RecvPhase.wake, closing := s.closing - 1 } := by
  refine ⟨fun {j r} hj hr => ?_, fun _ {j timed} hj => ?_⟩
  · rw [List.getElem?_map] at hj
    obtain ⟨p, hp, rfl⟩ := Option.map_eq_some_iff.mp hj
    have hwaits : p.isWaiting = true := by
      cases p <;> first | rfl | cases hr
    have hbefore := h.tokens hp hwaits
    have hle := countP_looking_le_map_wake s.receivers
    simp only
    omega
  · rw [List.getElem?_map] at hj
    obtain ⟨p, -, hp⟩ := Option.map_eq_some_iff.mp hj
    cases p <;> cases hp

/-- Every transition keeps the channel attended. -/
theorem Attended.transition (h : Attended s) (hlocking : Locking s) (ht : Transition s l s') :
    Attended s' := by
  cases ht with
  | move hi hedge => exact h.edge hlocking hi hedge
  | call hi => exact h.move hi nofun nofun nofun
  | send hfree hopen =>
    refine ⟨fun hj hr => ?_, fun hclosed => ?_⟩
    · have hbefore := h.tokens hj hr
      simp only [List.length_append, List.length_singleton]
      omega
    · rw [hopen] at hclosed
      cases hclosed
  | @notify _ i timed hdue hi =>
    have hcount := countP_set_add RecvPhase.looking hi (.woken timed)
    have hparked : (RecvPhase.parked timed).looking.toNat = 0 := rfl
    have hwoken : (RecvPhase.woken timed).looking.toNat = 1 := rfl
    have hmoved : Attended (s.move i (.woken timed)) := h.move hi nofun nofun nofun
    refine ⟨fun hj hr => ?_, hmoved.announced⟩
    have hbefore := h.tokens hi rfl
    simp only [BlockingChannel.move]
    omega
  | notifyNobody hdue hnobody =>
    refine ⟨fun {j r} hj hr => ?_, h.announced⟩
    -- Who waits and is not parked still has the lock, and found the buffer empty.
    cases r with
    | parking timed =>
      have hempty := (ready_eq_false_iff.mp (hlocking.refused hj)).1
      simp only [hempty, List.length_nil]
      omega
    | parked timed =>
      have hsome : s.receivers.any RecvPhase.isParked = true :=
        List.any_eq_true.mpr ⟨_, List.mem_of_getElem? hj, rfl⟩
      rw [hsome] at hnobody
      cases hnobody
    | _ => cases hr
  | close hfree => exact ⟨h.tokens, fun _ {_ _} _ => Nat.succ_pos _⟩
  | notifyAll hdue => exact h.wakeAll
  | swapOutAll hfree => exact ⟨fun _ _ => Nat.zero_le _, h.announced⟩
  | take hi hbuffer =>
    refine h.leave hi rfl rfl rfl rfl rfl ?_
    rw [hbuffer]
    exact le_rfl
  | miss hi hbuffer =>
    refine h.leave hi rfl rfl rfl rfl rfl ?_
    change s.channel.buffer.length ≤ _
    rw [hbuffer]
    exact le_rfl
  | giveUp hi hready =>
    refine h.leave hi rfl rfl rfl rfl rfl ?_
    change s.channel.buffer.length ≤ _
    rw [(ready_eq_false_iff.mp hready).1]
    exact le_rfl

/-! ### Values -/

/-- What the calls have returned is what has been accepted, up to what is still buffered; a call
comes back without a value only when it found none, and without a timeout only when the channel
is closed. -/
structure Delivered (s : BlockingChannel T) : Prop where
  conserved : s.taken ++ s.channel.buffer = s.accepted
  without : ∀ {timed empty closed}, .recv timed none empty closed ∈ s.returns →
    empty = true ∧ (timed = false → closed = true)

/-- Values that are swapped out leave the channel as they are. -/
theorem filterMap_swappedOut (values : List T) :
    (values.map ChannelReturn.swappedOut).filterMap ChannelReturn.value? = values := by
  rw [List.filterMap_map]
  exact List.filterMap_some

/-- A call returns without a value, and says how it found the channel. -/
theorem Delivered.giveBack_none (h : Delivered s) {timed : Bool} (hempty : s.channel.buffer = [])
    (htimed : timed = false → s.channel.closed = true) : Delivered (s.giveBack i timed none) := by
  refine ⟨?_, fun {timed' empty closed} hmem => ?_⟩
  · have htaken : (s.giveBack i timed none).taken = s.taken := by
      rw [taken, giveBack, List.filterMap_append]
      exact List.append_nil _
    rw [htaken]
    exact h.conserved
  · rcases List.mem_append.mp hmem with hmem | hmem
    · exact h.without hmem
    · obtain ⟨rfl, -, rfl, rfl⟩ := ChannelReturn.recv.inj (List.mem_singleton.mp hmem)
      exact ⟨by rw [hempty, List.isEmpty_nil], htimed⟩

/-- Every transition delivers what it takes out. -/
theorem Delivered.transition (h : Delivered s) (hlocking : Locking s) (ht : Transition s l s') :
    Delivered s' := by
  cases ht with
  | move hi hedge => exact ⟨h.conserved, h.without⟩
  | call hi => exact ⟨h.conserved, h.without⟩
  | @send value hfree hopen =>
    refine ⟨?_, h.without⟩
    rw [← h.conserved, List.append_assoc]
    rfl
  | notify hdue hi => exact ⟨h.conserved, h.without⟩
  | notifyNobody hdue hnobody => exact ⟨h.conserved, h.without⟩
  | close hfree => exact ⟨h.conserved, h.without⟩
  | notifyAll hdue => exact ⟨h.conserved, h.without⟩
  | swapOutAll hfree =>
    refine ⟨?_, fun hmem => h.without (by simpa using hmem)⟩
    rw [taken, List.filterMap_append, List.append_nil, filterMap_swappedOut]
    exact h.conserved
  | take hi hbuffer =>
    have hconserved := h.conserved
    rw [hbuffer] at hconserved
    refine ⟨?_, fun hmem => h.without (by simpa [giveBack] using hmem)⟩
    simpa [taken, giveBack, BlockingChannel.move, ChannelReturn.value?] using hconserved
  | miss hi hbuffer =>
    -- The wait let the receiver through, and there is no value: the channel is closed.
    have hready := ready_eq_true_iff.mp (hlocking.admitted hi)
    exact h.giveBack_none hbuffer fun _ => hready.resolve_left fun hne => hne hbuffer
  | giveUp hi hready => exact h.giveBack_none (ready_eq_false_iff.mp hready).1 nofun

/-- The transitions other than sends and closes change neither what is accepted nor the flag. -/
theorem Transition.keeps (ht : Transition s l s') (hvalue : l.value = none)
    (hclose : l.isClose = false) :
    s'.accepted = s.accepted ∧ s'.channel.closed = s.channel.closed := by
  cases ht with
  | send hfree hopen => cases hvalue
  | close hfree => cases hclose
  | _ => exact ⟨rfl, rfl⟩

/-- Nor do the steps. -/
theorem step_keeps (hvalue : l.value = none) (hclose : l.isClose = false) :
    (s.step l).accepted = s.accepted ∧ (s.step l).channel.closed = s.channel.closed := by
  rcases step_cases s l with hsame | ht
  · rw [hsame]
    exact ⟨rfl, rfl⟩
  · exact ht.keeps hvalue hclose

/-- A channel is closed by a close that gets the lock, and by nothing else. -/
theorem step_closed (s : BlockingChannel T) (l : RecvStep T) :
    (s.step l).channel.closed = (s.channel.closed || (s.lockFree && l.isClose)) := by
  cases l with
  | send value =>
    by_cases hfree : s.lockFree = true <;> by_cases hclosed : s.channel.closed = true <;>
      simp [step, hfree, hclosed, CopyChannel.send, RecvStep.isClose]
  | close =>
    by_cases hfree : s.lockFree = true <;> simp [step, hfree, CopyChannel.close, RecvStep.isClose]
  | _ =>
    simp only [RecvStep.isClose, Bool.and_false, Bool.or_false]
    exact (step_keeps rfl rfl).2

/-- An open channel accepts what is sent when the lock is free, a closed one nothing. -/
theorem step_accepted (s : BlockingChannel T) (l : RecvStep T) :
    (s.step l).accepted = s.accepted ++
      if !s.channel.closed && s.lockFree then l.value.toList else [] := by
  cases l with
  | send value =>
    by_cases hfree : s.lockFree = true <;> by_cases hclosed : s.channel.closed = true <;>
      simp [step, hfree, hclosed, CopyChannel.send, RecvStep.value]
  | close => by_cases hfree : s.lockFree = true <;> simp [step, hfree, RecvStep.value]
  | _ =>
    simp only [RecvStep.value, Option.toList_none, ite_self, List.append_nil]
    exact (step_keeps rfl rfl).1

/-! ### Every run -/

/-- The receivers stay the same ones. -/
theorem length_receivers_transition (ht : Transition s l s') :
    s'.receivers.length = s.receivers.length := by
  cases ht <;> simp [BlockingChannel.move, giveBack]

/-- What holds in every state of a run. -/
structure Sound (n : ℕ) (s : BlockingChannel T) : Prop where
  locking : Locking s
  attended : Attended s
  delivered : Delivered s
  length_receivers : s.receivers.length = n

/-- A new channel is sound. -/
theorem sound_init (T : Type*) (n : ℕ) : Sound n (init T n) := by
  have hidle {i : ℕ} {p : RecvPhase} (hi : (init T n).receivers[i]? = some p) : p = .idle :=
    List.eq_of_mem_replicate (List.mem_of_getElem? hi)
  refine ⟨⟨fun hi _ hp => ?_, fun hi => ?_, fun hi => ?_⟩, ⟨fun hi hp => ?_, nofun⟩,
    ⟨rfl, nofun⟩, List.length_replicate⟩
  · rw [hidle hi] at hp
    cases hp
  · cases hidle hi
  · cases hidle hi
  · rw [hidle hi] at hp
    cases hp

/-- Every run keeps the channel sound. -/
theorem run_sound (n : ℕ) (steps : List (RecvStep T)) : Sound n (run n steps) :=
  run_induction (sound_init T n) (fun _ _ _ h ht => ⟨h.locking.transition ht,
    h.attended.transition h.locking ht, h.delivered.transition h.locking ht,
    (length_receivers_transition ht).trans h.length_receivers⟩) steps

/-- A channel accepts what is sent before it is first closed. -/
theorem run_accepted (n : ℕ) (steps : List (RecvStep T)) :
    (run n steps).accepted = sentBeforeClose n steps := by
  have hstops (l : RecvStep T) (hl : l.isClose = true) : l.value = none := by
    cases l <;> first | rfl | cases hl
  exact (foldl_log_until step_accepted step_closed hstops rfl).trans (List.nil_append _)

/-- **Every value leaves the channel once and in order**, for any number of senders, receivers and
closers and any order of their steps: what the calls have returned, followed by what is still
buffered, is what was sent before the channel was first closed. A call that comes back without a
value found none buffered, and if it has no timeout the channel was closed. -/
theorem taken_in_order (n : ℕ) (steps : List (RecvStep T)) :
    (run n steps).taken ++ (run n steps).channel.buffer = sentBeforeClose n steps ∧
      ∀ {timed empty closed}, .recv timed none empty closed ∈ (run n steps).returns →
        empty = true ∧ (timed = false → closed = true) := by
  have hdelivered := (run_sound n steps).delivered
  exact ⟨hdelivered.conserved.trans (run_accepted n steps), hdelivered.without⟩

/-- Two receivers: a value goes to the first of them, a send finds the lock taken, a value is
swapped out, one is buffered when the channel is closed, and one comes too late. -/
def mixedCalls : List (RecvStep ℕ) :=
  [.call 0 false, .receiver 0, .receiver 0, .receiver 0, .send 7, .notifyOne 0, .receiver 0,
    .send 8, .receiver 0, .receiver 0, .send 9, .swapOutAll, .send 10, .close, .send 11,
    .call 1 true, .receiver 1, .receiver 1, .receiver 1]

/-- The values sent before the end are 7, 9 and 10, and every one of them was taken. -/
theorem taken_in_order_mixedCalls :
    sentBeforeClose 2 mixedCalls = [7, 9, 10] ∧
      (run 2 mixedCalls).returns =
        [.recv false (some 7) false false, .swappedOut 9, .recv true (some 10) false true] ∧
      (run 2 mixedCalls).taken ++ (run 2 mixedCalls).channel.buffer =
        sentBeforeClose 2 mixedCalls :=
  ⟨rfl, rfl, (taken_in_order 2 mixedCalls).1⟩

/-! ### Calls return -/

/-- What is left to do before the calls have returned. -/
def weight (s : BlockingChannel T) : ℕ :=
  (s.receivers.map RecvPhase.rank).sum + s.notifying + s.closing + s.channel.buffer.length

/-- Waking everybody brings nobody further from the end of the call. -/
theorem sum_rank_map_wake_le (ts : List RecvPhase) :
    ((ts.map RecvPhase.wake).map RecvPhase.rank).sum ≤ (ts.map RecvPhase.rank).sum := by
  induction ts with
  | nil => exact le_rfl
  | cons p ts ih =>
    have hp : p.wake.rank ≤ p.rank := by cases p <;> simp [RecvPhase.wake, RecvPhase.rank]
    simp only [List.map_cons, List.sum_cons]
    omega

/-- While there is something to receive, a receiver that moves comes closer to the end. -/
theorem rank_lt_of_edge (hready : s.ready = true) (hedge : Edge s p q) : q.rank < p.rank := by
  cases hedge with
  | wait hnot =>
    rw [hready] at hnot
    cases hnot
  | _ => simp [RecvPhase.rank]

/-- While there is something to receive, a quiet step has no effect or leaves less to do. -/
theorem weight_lt_of_quiet (hready : s.ready = true) (hquiet : l.isQuiet = true) :
    s.step l = s ∨ (s.step l).weight < s.weight := by
  rcases s.step_cases l with hsame | ht
  · exact .inl hsame
  generalize s.step l = s' at ht
  cases ht with
  | @move _ i p q hi hedge =>
    have hsum := sum_map_set_add RecvPhase.rank hi q
    have hlt := rank_lt_of_edge hready hedge
    right
    simp only [weight, BlockingChannel.move]
    omega
  | call hi => cases hquiet
  | send hfree hopen => cases hquiet
  | @notify _ i timed hdue hi =>
    have hsum := sum_map_set_add RecvPhase.rank hi (.woken timed)
    simp only [RecvPhase.rank] at hsum
    right
    simp only [weight, BlockingChannel.move]
    omega
  | notifyNobody hdue hnobody =>
    right
    simp only [weight]
    omega
  | close hfree => cases hquiet
  | notifyAll hdue =>
    have hsum := sum_rank_map_wake_le s.receivers
    right
    simp only [weight]
    omega
  | swapOutAll hfree =>
    cases hbuffer : s.channel.buffer with
    | nil =>
      left
      rw [List.map_nil, List.append_nil, ← hbuffer]
    | cons value rest =>
      right
      simp only [weight, hbuffer, List.length_cons, List.length_nil]
      omega
  | @take _ i timed value rest hi hbuffer =>
    have hsum := sum_map_set_add RecvPhase.rank hi .idle
    simp only [RecvPhase.rank] at hsum
    right
    simp only [weight, giveBack, BlockingChannel.move, hbuffer, List.length_cons]
    omega
  | @miss _ i timed hi hbuffer =>
    have hsum := sum_map_set_add RecvPhase.rank hi .idle
    simp only [RecvPhase.rank] at hsum
    right
    simp only [weight, giveBack, BlockingChannel.move]
    omega
  | @giveUp _ i hi hnot =>
    rw [hready] at hnot
    cases hnot

/-- A step that takes a receiver to another phase has an effect. -/
theorem ne_of_receivers_set (hi : s.receivers[i]? = some p)
    (hreceivers : s'.receivers = s.receivers.set i q) (hpq : q ≠ p) : s' ≠ s := by
  intro heq
  have hq : s'.receivers[i]? = some q := by
    rw [hreceivers, getElem?_set_of_some hi, if_pos rfl]
  rw [heq, hi] at hq
  exact hpq (Option.some.inj hq).symm

/-- The receiver that holds the lock can always go on. -/
theorem receiver_effect_of_holdsLock (hi : s.receivers[i]? = some p) (hp : p.holdsLock = true) :
    s.step (.receiver i) ≠ s := by
  have hstep : s.step (.receiver i) = s.receive i p := by simp only [step, hi]
  rw [hstep]
  cases p with
  | testing timed =>
    refine ne_of_receivers_set hi rfl ?_
    split <;> nofun
  | parking timed => exact ne_of_receivers_set hi rfl nofun
  | lastTest =>
    simp only [receive]
    split
    · exact ne_of_receivers_set hi rfl nofun
    · exact ne_of_receivers_set hi rfl nofun
  | taking timed =>
    simp only [receive]
    split
    · exact ne_of_receivers_set hi rfl nofun
    · exact ne_of_receivers_set hi rfl nofun
  | _ => cases hp

/-- A receiver that is about to look can go on when nobody holds the lock. -/
theorem receiver_effect_of_looking (hfree : s.lockFree = true) (hi : s.receivers[i]? = some p)
    (hp : p.looking = true) : s.step (.receiver i) ≠ s := by
  have hstep : s.step (.receiver i) = s.receive i p := by simp only [step, hi]
  have hlock := holdsLock_of_lockFree hfree hi
  rw [hstep]
  cases p with
  | locking timed =>
    simp only [receive, if_pos hfree]
    exact ne_of_receivers_set hi rfl nofun
  | woken timed =>
    simp only [receive, if_pos hfree]
    exact ne_of_receivers_set hi rfl nofun
  | expiring =>
    simp only [receive, if_pos hfree]
    exact ne_of_receivers_set hi rfl nofun
  | testing | lastTest | taking => cases hlock
  | _ => cases hp

/-- The steps of the receivers and of the notifications. -/
inductive Driving (n : ℕ) : RecvStep T → Prop
  | receiver {k : ℕ} (hk : k < n) : Driving n (.receiver k)
  | notifyOne {k : ℕ} (hk : k < n) : Driving n (.notifyOne k)
  | notifyAll : Driving n .notifyAll

/-- **Nobody is stranded.** While there is something to receive and a receiver has not returned,
the step of some receiver or some notification has an effect. -/
theorem Sound.exists_enabled {n : ℕ} (h : Sound n s) (hready : s.ready = true)
    (hi : s.receivers[i]? = some p) (hp : p ≠ .idle) : ∃ l, Driving n l ∧ s.step l ≠ s := by
  have hlt {j : ℕ} {r : RecvPhase} (hj : s.receivers[j]? = some r) : j < n := by
    obtain ⟨hj, -⟩ := List.getElem?_eq_some_iff.mp hj
    exact h.length_receivers ▸ hj
  by_cases hfree : s.lockFree = true
  · by_cases hlooks : ∃ (j : ℕ) (r : RecvPhase), s.receivers[j]? = some r ∧ r.looking = true
    · obtain ⟨j, r, hj, hr⟩ := hlooks
      exact ⟨_, .receiver (hlt hj), receiver_effect_of_looking hfree hj hr⟩
    · have hcount : s.receivers.countP RecvPhase.looking = 0 := by
        refine List.countP_eq_zero.mpr fun r hr hlooking => hlooks ?_
        obtain ⟨j, hj⟩ := List.mem_iff_getElem?.mp hr
        exact ⟨j, r, hj, hlooking⟩
      -- Nobody has the lock or is about to look: this receiver is parked.
      obtain ⟨timed, rfl⟩ : ∃ timed, p = .parked timed := by
        have hlock := holdsLock_of_lockFree hfree hi
        have hlooking : ¬ p.looking = true := fun hlooking => hlooks ⟨i, p, hi, hlooking⟩
        cases p with
        | parked timed => exact ⟨timed, rfl⟩
        | idle => exact absurd rfl hp
        | parking => cases hlock
        | _ => exact absurd rfl hlooking
      rcases ready_eq_true_iff.mp hready with hvalue | hclosed
      · have htokens := h.attended.tokens hi rfl
        have hlength := List.length_pos_of_ne_nil hvalue
        have hdue : 0 < s.notifying := by omega
        have hsome : s.receivers.any RecvPhase.isParked = true :=
          List.any_eq_true.mpr ⟨_, List.mem_of_getElem? hi, rfl⟩
        refine ⟨_, .notifyOne (hlt hi), ?_⟩
        simp only [step, if_pos hdue, if_pos hsome, hi]
        exact ne_of_receivers_set hi rfl nofun
      · have hdue := h.attended.announced hclosed hi
        refine ⟨_, .notifyAll, fun heq => ?_⟩
        have hwoken : (s.step .notifyAll).receivers[i]? = some (.woken timed) := by
          simp only [step, if_pos hdue, List.getElem?_map, hi, Option.map_some, RecvPhase.wake]
        rw [heq, hi] at hwoken
        cases hwoken
  · obtain ⟨r, hr, hlock⟩ : ∃ r ∈ s.receivers, r.holdsLock = true := by
      simpa [lockFree] using hfree
    obtain ⟨j, hj⟩ := List.mem_iff_getElem?.mp hr
    exact ⟨_, .receiver (hlt hj), receiver_effect_of_holdsLock hj hlock⟩

/-- **Calls return.** From any reachable state, if no further values, calls or closes come and the
receivers and the notifications get their turns again and again, then there is a moment at which
no receiver is in a call any more or the channel is open and empty. -/
theorem receivers_return (n : ℕ) (steps : List (RecvStep T)) (ls : ℕ → RecvStep T)
    (hquiet : ∀ k, (ls k).isQuiet = true) (hfair : ∀ l, Driving n l → AgainAndAgain (· = l) ls) :
    ∃ k, (∀ p ∈ (trace step (run n steps) ls k).receivers, p = .idle) ∨
      (trace step (run n steps) ls k).ready = false := by
  have hsound (k : ℕ) : Sound n (trace step (run n steps) ls k) := by
    rw [trace_eq_foldl, run, ← List.foldl_append]
    exact run_sound n _
  let Done (s : BlockingChannel T) : Prop := (∀ p ∈ s.receivers, p = .idle) ∨ s.ready = false
  have hleads : LeadsTo (trace step (run n steps) ls) (fun s => Sound n s ∧ ¬ Done s) Done := by
    refine leadsTo_of_enabled weight (fun k hbusy => ?_) fun s hbusy => ?_
    · by_cases hdone : Done (trace step (run n steps) ls (k + 1))
      · exact .inl hdone
      · have hready : (trace step (run n steps) ls k).ready = true := by
          simpa using fun hnot => hbusy.2 (.inr hnot)
        exact .inr ⟨⟨hsound _, hdone⟩, weight_lt_of_quiet hready (hquiet k)⟩
    · have hready : s.ready = true := by simpa using fun hnot => hbusy.2 (.inr hnot)
      obtain ⟨p, hmem, hp⟩ : ∃ p ∈ s.receivers, p ≠ .idle := by
        by_contra hnone
        exact hbusy.2 (.inl (by simpa using hnone))
      obtain ⟨i, hi⟩ := List.mem_iff_getElem?.mp hmem
      obtain ⟨l, hdriving, heffect⟩ := hbusy.1.exists_enabled hready hi hp
      exact ⟨l, hfair l hdriving, heffect⟩
  by_cases hdone : Done (run n steps)
  · exact ⟨0, hdone⟩
  · obtain ⟨k, -, hk⟩ := hleads 0 ⟨hsound 0, hdone⟩
    exact ⟨k, hk⟩

/-- Two receivers wait, one of them with a timeout, and two values are sent. -/
def waitingReceivers : List (RecvStep ℕ) :=
  [.call 0 false, .receiver 0, .receiver 0, .receiver 0,
    .call 1 true, .receiver 1, .receiver 1, .receiver 1, .send 7, .send 8]

/-- Two receivers and the notifications take turns. -/
def receiverTurns (k : ℕ) : RecvStep ℕ :=
  match k % 5 with
  | 0 => .receiver 0
  | 1 => .receiver 1
  | 2 => .notifyOne 0
  | 3 => .notifyOne 1
  | _ => .notifyAll

/-- In these turns nothing is sent, called or closed. -/
theorem receiverTurns_quiet (k : ℕ) : (receiverTurns k).isQuiet = true := by
  unfold receiverTurns
  split <;> rfl

/-- Every receiver and every notification has its turn again and again. -/
theorem receiverTurns_fair {l : RecvStep ℕ} (hl : Driving 2 l) :
    AgainAndAgain (· = l) receiverTurns := by
  have hturn (r : ℕ) (hr : r < 5) (i : ℕ) : (5 * i + r) % 5 = r := by omega
  intro i
  cases hl with
  | @receiver k hk =>
    interval_cases k
    · exact ⟨5 * i + 0, by omega, by simp only [receiverTurns, hturn 0 (by decide)]⟩
    · exact ⟨5 * i + 1, by omega, by simp only [receiverTurns, hturn 1 (by decide)]⟩
  | @notifyOne k hk =>
    interval_cases k
    · exact ⟨5 * i + 2, by omega, by simp only [receiverTurns, hturn 2 (by decide)]⟩
    · exact ⟨5 * i + 3, by omega, by simp only [receiverTurns, hturn 3 (by decide)]⟩
  | notifyAll => exact ⟨5 * i + 4, by omega, by simp only [receiverTurns, hturn 4 (by decide)]⟩

/-- Two receivers that wait for a value that has been sent return. -/
theorem receivers_return_receiverTurns :
    (run 2 waitingReceivers).receivers = [.parked false, .parked true] ∧
      (run 2 waitingReceivers).ready = true ∧
      ∃ k, (∀ p ∈ (trace step (run 2 waitingReceivers) receiverTurns k).receivers, p = .idle) ∨
        (trace step (run 2 waitingReceivers) receiverTurns k).ready = false :=
  ⟨rfl, rfl, receivers_return 2 waitingReceivers receiverTurns receiverTurns_quiet
    fun _ => receiverTurns_fair⟩

end BlockingChannel

end TtsServer
