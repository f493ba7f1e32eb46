import TtsServer.PriorityTimer
import TtsServer.Lib.LeadsTo

/-!
# The reactor

`Reactor::run` starts a thread that, as long as the reactor runs, takes the due callbacks out
of the timer queue, calls them, calls the tick function and waits for at most a millisecond.
`stop` clears the flag, requests the stop, joins the thread and shuts the pools down. Any
thread may schedule callbacks at any time.

The steps of the loop thread and of the thread in `stop` interleave here in any order. `run` and
`stop` are called by one thread, which is not the loop thread; in the code a second thread in
`stop` would return at once, while callbacks still run. When `stop` has joined the loop thread it
shuts the pools down, and here this may take any time; `ReactorPools` follows it into the pools.

Every callback is called at most once and, by a clock that does not go back, never before its
deadline. One that has been taken out is called even when a stop is requested in between, but
behind the callbacks that are due with it, however long they take. One that is dropped was two
seconds late; and nothing is called between the return of `stop` and the next `run`.
-/

namespace TtsServer

open Lib

/-- Where the loop thread is. -/
inductive LoopPhase where
  /-- There is no loop thread. -/
  | absent
  /-- About to test the condition of the loop. -/
  | testing
  /-- About to read the clock and take out what is due. -/
  | reading
  /-- The callbacks still to be called, taken out at this reading of the clock. -/
  | calling (now : Int) (due : List TimerEntry)
  /-- About to call the tick function. -/
  | ticking
  /-- In the wait, which ends by itself after a millisecond. -/
  | waiting
  /-- The loop has ended, and the thread has not been joined. -/
  | exited
  deriving DecidableEq, Repr

/-- Where the thread that owns the reactor is in `stop`. -/
inductive ReactorStop where
  | outside
  /-- The flag is cleared. -/
  | requesting
  /-- The stop is requested, and the loop thread is being joined. -/
  | joining
  /-- The pools are being shut down. -/
  | closing
  deriving DecidableEq, Repr

/-- `Reactor`, with the record of what its loop has done. -/
structure Reactor where
  timers : TimerRun := {}
  running : Bool := false
  stopRequested : Bool := false
  loop : LoopPhase := .absent
  stopping : ReactorStop := .outside
  /-- The callbacks that have been called, each with the reading at which it was taken out and the
  time at which it was called. -/
  called : List (TimerEntry × Int × Int) := []
  /-- The readings of the clock. -/
  readings : List Int := []
  ticks : ℕ := 0

/-- The steps of the threads. -/
inductive ReactorEvent where
  /-- `schedule_timer`, for this time, from any thread. -/
  | schedule (tp : Int) (skippable : Bool)
  /-- `run`. -/
  | run
  /-- `stop` is called, or goes on. -/
  | stop
  /-- The loop thread goes on; the clock reads this. -/
  | loop (now : Int)
  /-- A thread of the pools or one that shuts them down goes on. -/
  | pools
  /-- The shutdown of both pools has returned. -/
  | poolsDown
  deriving DecidableEq, Repr

/-- The deadline and the flag of a callback that is scheduled. -/
def ReactorEvent.request : ReactorEvent → Option (Int × Bool)
  | .schedule tp skippable => some (tp, skippable)
  | _ => none

/-- What the clock reads at a step of the loop thread. -/
def ReactorEvent.clock : ReactorEvent → Option Int
  | .loop now => some now
  | _ => none

/-- The clock does not go back. -/
def Steady (events : List ReactorEvent) : Prop :=
  (events.filterMap ReactorEvent.clock).Pairwise (· ≤ ·)

/-- The loop is in a pass, behind the reading of the clock. -/
def LoopPhase.inPass : LoopPhase → Bool
  | .testing | .calling _ _ | .ticking | .waiting => true
  | _ => false

/-- The steps before the condition of the loop is tested again. -/
def LoopPhase.untilTest : LoopPhase → ℕ
  | .calling _ due => 3 + due.length
  | .ticking => 2
  | .waiting => 1
  | _ => 0

namespace Reactor

/-- `skip_threshold_`, in seconds. -/
def skipThreshold : Int := 1

/-- The next step of `main_loop`. -/
def mainLoop (r : Reactor) (now : Int) : Reactor :=
  match r.loop with
  | .absent => r
  | .testing => { r with loop := if !r.stopRequested && r.running then .reading else .exited }
  | .reading =>
    { r with
      timers := r.timers.step (.popExpired now skipThreshold)
      readings := r.readings ++ [now]
      loop := .calling now (r.timers.timer.popExpired now skipThreshold).1 }
  | .calling reading (e :: due) =>
    { r with called := r.called ++ [(e, reading, now)], loop := .calling reading due }
  | .calling _ [] => { r with loop := .ticking }
  | .ticking => { r with ticks := r.ticks + 1, loop := .waiting }
  | .waiting => { r with loop := .testing }
  | .exited => r

/-- `run`: a new loop thread, unless the reactor runs. -/
def start (r : Reactor) : Reactor :=
  if r.running then r else { r with running := true, stopRequested := false, loop := .testing }

/-- The next step of `stop`; a call on a reactor that does not run returns at once. While the
pools are being shut down its steps are theirs. -/
def stop (r : Reactor) : Reactor :=
  match r.stopping with
  | .outside => if r.running then { r with running := false, stopping := .requesting } else r
  | .requesting => { r with stopRequested := true, stopping := .joining }
  | .joining => if r.loop = .exited then { r with loop := .absent, stopping := .closing } else r
  | .closing => r

/-- One step. `run` and `stop` are called by one thread. -/
def step (r : Reactor) : ReactorEvent → Reactor
  | .schedule tp skippable => { r with timers := r.timers.step (.scheduleAt tp skippable) }
  | .run => if r.stopping = .outside then r.start else r
  | .stop => r.stop
  | .loop now => r.mainLoop now
  | .pools => r
  | .poolsDown => if r.stopping = .closing then { r with stopping := .outside } else r

/-- The steps in turn, on a new reactor. -/
def run (events : List ReactorEvent) : Reactor := events.foldl step {}

/-- The callbacks that have been taken out and not yet called. -/
def due (r : Reactor) : List TimerEntry :=
  match r.loop with
  | .calling _ due => due
  | _ => []

/-! ### The loop thread lives from `run` to `stop` -/

variable {r : Reactor} {ev : ReactorEvent}

/-- The flag, the token and the two threads fit together. -/
structure Lifecycle (r : Reactor) : Prop where
  of_running : r.running = true →
    r.stopping = .outside ∧ r.stopRequested = false ∧ r.loop ≠ .absent ∧ r.loop ≠ .exited
  of_stopped : r.running = false → r.stopping = .outside ∨ r.stopping = .closing →
    r.loop = .absent
  of_stopping : r.stopping = .requesting ∨ r.stopping = .joining →
    r.running = false ∧ r.loop ≠ .absent

/-- A new reactor has no threads. -/
theorem lifecycle_empty : Lifecycle {} := ⟨nofun, fun _ _ => rfl, by simp⟩

/-- The reactor does not run while its pools are being shut down. -/
theorem Lifecycle.not_running_of_closing (h : Lifecycle r) (hclosing : r.stopping = .closing) :
    r.running = false := by
  by_contra hrunning
  have houtside := (h.of_running (by simpa using hrunning)).1
  rw [hclosing] at houtside
  cases houtside

/-- A step of the loop thread leaves the flag, the token and `stop` as they are; the loop goes on
as long as the reactor runs. -/
theorem mainLoop_frame (r : Reactor) (now : Int) :
    (r.mainLoop now).running = r.running ∧ (r.mainLoop now).stopRequested = r.stopRequested ∧
      (r.mainLoop now).stopping = r.stopping ∧
      ((r.mainLoop now).loop = .absent ↔ r.loop = .absent) ∧
      (r.running = true → r.stopRequested = false → r.loop ≠ .exited →
        (r.mainLoop now).loop ≠ .exited) := by
  unfold mainLoop
  split
  · next hloop => exact ⟨rfl, rfl, rfl, Iff.rfl, fun _ _ h => h⟩
  · next hloop =>
    refine ⟨rfl, rfl, rfl, ?_, fun hrunning hrequested _ => ?_⟩
    · rw [hloop]
      split <;> simp
    · simp [hrunning, hrequested]
  · next hloop => exact ⟨rfl, rfl, rfl, by simp [hloop], fun _ _ _ => nofun⟩
  · next hloop => exact ⟨rfl, rfl, rfl, by simp [hloop], fun _ _ _ => nofun⟩
  · next hloop => exact ⟨rfl, rfl, rfl, by simp [hloop], fun _ _ _ => nofun⟩
  · next hloop => exact ⟨rfl, rfl, rfl, by simp [hloop], fun _ _ _ => nofun⟩
  · next hloop => exact ⟨rfl, rfl, rfl, by simp [hloop], fun _ _ _ => nofun⟩
  · next hloop => exact ⟨rfl, rfl, rfl, Iff.rfl, fun _ _ h => h⟩

/-- Every step keeps them together. -/
theorem Lifecycle.step (h : Lifecycle r) (ev : ReactorEvent) : Lifecycle (r.step ev) := by
  cases ev with
  | schedule tp skippable => exact ⟨h.of_running, h.of_stopped, h.of_stopping⟩
  | run =>
    simp only [Reactor.step, start]
    split
    · next houtside =>
      split
      · exact h
      · exact ⟨fun _ => ⟨houtside, rfl, nofun, nofun⟩, nofun, fun hin => by simp [houtside] at hin⟩
    · exact h
  | stop =>
    simp only [Reactor.step, stop]
    split
    · next houtside =>
      split
      · next hrunning =>
        exact ⟨nofun, by simp, fun _ => ⟨rfl, (h.of_running hrunning).2.2.1⟩⟩
      · exact h
    · next hrequesting =>
      obtain ⟨hrunning, hloop⟩ := h.of_stopping (.inl hrequesting)
      exact ⟨fun hr => by simp [hrunning] at hr, by simp, fun _ => ⟨hrunning, hloop⟩⟩
    · next hjoining =>
      split
      · obtain ⟨hrunning, -⟩ := h.of_stopping (.inr hjoining)
        exact ⟨fun hr => by simp [hrunning] at hr, fun _ _ => rfl, by simp⟩
      · exact h
    · exact h
  | pools => exact h
  | poolsDown =>
    simp only [Reactor.step]
    split
    · next hclosing =>
      have hrunning := h.not_running_of_closing hclosing
      exact ⟨fun hr => by simp [hrunning] at hr, fun _ _ => h.of_stopped hrunning (.inr hclosing),
        by simp⟩
    · exact h
  | loop now =>
    obtain ⟨hrunning, hrequested, hstopping, habsent, hexited⟩ := r.mainLoop_frame now
    refine ⟨fun hr => ?_, fun hr hs => ?_, fun hs => ?_⟩
    · simp only [Reactor.step] at hr ⊢
      rw [hrunning] at hr
      obtain ⟨houtside, hnot, hloop, hnotexited⟩ := h.of_running hr
      exact ⟨hstopping.trans houtside, hrequested.trans hnot, fun habs => hloop (habsent.mp habs),
        hexited hr hnot hnotexited⟩
    · simp only [Reactor.step] at hr hs ⊢
      rw [hrunning] at hr
      rw [hstopping] at hs
      exact habsent.mpr (h.of_stopped hr hs)
    · simp only [Reactor.step] at hs ⊢
      rw [hstopping] at hs
      obtain ⟨hr, hloop⟩ := h.of_stopping hs
      exact ⟨hrunning.trans hr, fun habs => hloop (habsent.mp habs)⟩

/-! ### What a step puts on record -/

/-- How a step changes the timer queue, the calls and the readings. -/
inductive Recorded (r : Reactor) : ReactorEvent → Reactor → Prop
  | same {ev r'} (htimers : r'.timers = r.timers) (hcalled : r'.called = r.called)
      (hreadings : r'.readings = r.readings) (hrequest : ev.request = none) : Recorded r ev r'
  | schedule {tp skippable r'} (htimers : r'.timers = r.timers.step (.scheduleAt tp skippable))
      (hcalled : r'.called = r.called) (hreadings : r'.readings = r.readings) :
      Recorded r (.schedule tp skippable) r'
  | read {now r'} (hloop : r.loop = .reading)
      (htimers : r'.timers = r.timers.step (.popExpired now skipThreshold))
      (hcalled : r'.called = r.called) (hreadings : r'.readings = r.readings ++ [now]) :
      Recorded r (.loop now) r'
  | call {now reading e due r'} (hloop : r.loop = .calling reading (e :: due))
      (htimers : r'.timers = r.timers) (hcalled : r'.called = r.called ++ [(e, reading, now)])
      (hreadings : r'.readings = r.readings) : Recorded r (.loop now) r'

/-- What each step puts on record. -/
theorem recorded_step (r : Reactor) (ev : ReactorEvent) : Recorded r ev (r.step ev) := by
  cases ev with
  | schedule tp skippable => exact .schedule rfl rfl rfl
  | run =>
    simp only [step, start]
    split
    · split <;> exact .same rfl rfl rfl rfl
    · exact .same rfl rfl rfl rfl
  | stop =>
    simp only [step, stop]
    split
    · split <;> exact .same rfl rfl rfl rfl
    · exact .same rfl rfl rfl rfl
    · split <;> exact .same rfl rfl rfl rfl
    · exact .same rfl rfl rfl rfl
  | loop now =>
    simp only [step, mainLoop]
    split
    · exact .same rfl rfl rfl rfl
    · exact .same rfl rfl rfl rfl
    · next hloop => exact .read hloop rfl rfl rfl
    · next hloop => exact .call hloop rfl rfl rfl
    all_goals exact .same rfl rfl rfl rfl
  | pools => exact .same rfl rfl rfl rfl
  | poolsDown =>
    simp only [step]
    split <;> exact .same rfl rfl rfl rfl

/-- The steps up to the last one, and the last one. -/
theorem run_concat (events : List ReactorEvent) (ev : ReactorEvent) :
    run (events ++ [ev]) = (run events).step ev := by
  rw [run, List.foldl_append]
  rfl

/-- The timer queue has seen calls of its own, among them one for each callback scheduled. -/
theorem exists_timerCalls (events : List ReactorEvent) :
    ∃ calls, (run events).timers = TimerRun.run calls ∧
      calls.filterMap TimerCall.request = events.filterMap ReactorEvent.request := by
  induction events using List.reverseRecOn with
  | nil => exact ⟨[], rfl, rfl⟩
  | append_singleton events ev ih =>
    obtain ⟨calls, htimers, hrequests⟩ := ih
    have hsnoc (call : TimerCall) :
        (TimerRun.run calls).step call = TimerRun.run (calls ++ [call]) := by
      rw [TimerRun.run, TimerRun.run, List.foldl_append]
      rfl
    have hrecorded := recorded_step (run events) ev
    rw [← run_concat] at hrecorded
    rw [List.filterMap_append, ← hrequests]
    cases hrecorded with
    | same hsame hcalled hreadings hrequest =>
      refine ⟨calls, hsame.trans htimers, ?_⟩
      rw [List.filterMap_cons_none hrequest, List.filterMap_nil, List.append_nil]
    | @schedule tp skippable _ hstep =>
      exact ⟨calls ++ [.scheduleAt tp skippable], by rw [hstep, htimers, hsnoc],
        List.filterMap_append⟩
    | @read now _ hloop hstep =>
      exact ⟨calls ++ [.popExpired now skipThreshold], by rw [hstep, htimers, hsnoc],
        List.filterMap_append⟩
    | call hloop hsame =>
      exact ⟨calls, hsame.trans htimers, (List.append_nil _).symm⟩

/-- The record of scheduled callbacks holds what the steps scheduled. -/
theorem run_scheduled (events : List ReactorEvent) :
    (run events).timers.scheduled =
      TimerEntry.numbered (events.filterMap ReactorEvent.request) := by
  obtain ⟨calls, htimers, hrequests⟩ := exists_timerCalls events
  rw [htimers, TimerRun.run_scheduled, TimerCall.entries, hrequests]

/-- The clock is read by the loop thread. -/
theorem loop_mem_of_reading {events : List ReactorEvent} {now : Int}
    (hnow : now ∈ (run events).readings) : .loop now ∈ events := by
  induction events using List.reverseRecOn with
  | nil => cases hnow
  | append_singleton events ev ih =>
    have hrecorded := recorded_step (run events) ev
    rw [← run_concat] at hrecorded
    refine List.mem_append.mpr ?_
    cases hrecorded with
    | same htimers hcalled hreadings => exact .inl (ih (hreadings ▸ hnow))
    | schedule htimers hcalled hreadings => exact .inl (ih (hreadings ▸ hnow))
    | read hloop htimers hcalled hreadings =>
      rw [hreadings] at hnow
      rcases List.mem_append.mp hnow with hnow | hnow
      · exact .inl (ih hnow)
      · rw [List.mem_singleton.mp hnow]
        exact .inr List.mem_cons_self
    | call hloop htimers hcalled hreadings => exact .inl (ih (hreadings ▸ hnow))

/-! ### What becomes of a callback -/

/-- With the reactor's threshold, a due callback is too late when it may be skipped and two whole
seconds have passed: the lag is truncated to seconds before it is compared. -/
theorem tooLate_iff {now : Int} {e : TimerEntry} (hdue : e.deadline ≤ now) :
    PriorityTimer.tooLate now skipThreshold e = true ↔
      e.skippable = true ∧ e.deadline + 2000000000 ≤ now := by
  rw [PriorityTimer.tooLate, Bool.and_eq_true, decide_eq_true_eq, skipThreshold,
    Int.tdiv_eq_ediv_of_nonneg (by omega)]
  refine and_congr_right fun _ => ?_
  omega

/-- What the loop holds and has called is what the queue has given out, each callback at a reading
at which it was due; what is neither queued nor given out was too late at some reading. -/
structure Honest (r : Reactor) : Prop where
  sound : r.timers.Sound
  returned_eq : r.called.map Prod.fst ++ r.due = r.timers.returned
  called_due : ∀ x ∈ r.called, PriorityTimer.Returns x.2.1 skipThreshold x.1
  calling_due : ∀ {now due}, r.loop = .calling now due →
    now ∈ r.readings ∧ ∀ e ∈ due, PriorityTimer.Returns now skipThreshold e
  accounted : ∀ e ∈ r.timers.scheduled, e ∈ r.timers.timer.heap ∨ e ∈ r.timers.returned ∨
    ∃ now ∈ r.readings, e.deadline ≤ now ∧ PriorityTimer.tooLate now skipThreshold e = true

/-- A new reactor has nothing to account for. -/
theorem honest_empty : Honest {} :=
  ⟨TimerRun.sound_empty, rfl, nofun, nofun, nofun⟩

/-- Only a loop that is calling holds callbacks. -/
theorem due_eq_nil (hloop : ∀ now due, r.loop ≠ .calling now due) : r.due = [] := by
  unfold due
  split
  · next hcalling => exact absurd hcalling (hloop _ _)
  · rfl

/-- A step that leaves the record alone and takes the loop from one phase without callbacks to
another. -/
theorem Honest.frame {r' : Reactor} (h : Honest r) (htimers : r'.timers = r.timers)
    (hcalled : r'.called = r.called) (hreadings : r'.readings = r.readings)
    (hdue : r.due = []) (hloop : ∀ now due, r'.loop ≠ .calling now due) : Honest r' := by
  refine ⟨htimers ▸ h.sound, ?_, hcalled ▸ h.called_due,
    fun hcalling => absurd hcalling (hloop _ _), ?_⟩
  · rw [hcalled, htimers, due_eq_nil hloop, ← h.returned_eq, hdue]
  · rw [htimers, hreadings]
    exact h.accounted

/-- A step that leaves the record and the loop alone. -/
theorem Honest.keep {r' : Reactor} (h : Honest r) (htimers : r'.timers = r.timers)
    (hcalled : r'.called = r.called) (hreadings : r'.readings = r.readings)
    (hloop : r'.loop = r.loop) : Honest r' := by
  refine ⟨htimers ▸ h.sound, ?_, hcalled ▸ h.called_due, ?_, ?_⟩
  · rw [hcalled, htimers, ← h.returned_eq, due, due, hloop]
  · rw [hreadings, hloop]
    exact h.calling_due
  · rw [htimers, hreadings]
    exact h.accounted

/-- The loop takes out what is due. -/
theorem Honest.read (h : Honest r) (hloop : r.loop = .reading) (now : Int) :
    Honest (r.mainLoop now) := by
  have hempty : r.due = [] := due_eq_nil (by simp [hloop])
  have hreturned := h.returned_eq
  rw [hempty, List.append_nil] at hreturned
  have hmem := @PriorityTimer.mem_popExpired r.timers.timer now skipThreshold h.sound.ordered
  simp only [mainLoop, hloop]
  refine ⟨h.sound.popExpired now skipThreshold, ?_, h.called_due, fun hcalling => ?_,
    fun e he => ?_⟩
  · simp only [due, TimerRun.step]
    rw [hreturned]
  · obtain ⟨rfl, rfl⟩ := LoopPhase.calling.inj hcalling
    exact ⟨by simp, fun e he => (hmem.mp he).2⟩
  · rcases h.accounted e he with hheap | hreturned | ⟨reading, hreading, hlate⟩
    · -- A queued callback stays queued, is taken out or is dropped now.
      by_cases hdue : e.deadline ≤ now
      · by_cases hlate : PriorityTimer.tooLate now skipThreshold e = true
        · exact .inr (.inr ⟨now, by simp, hdue, hlate⟩)
        · refine .inr (.inl (List.mem_append_right _ (hmem.mpr ⟨hheap, hdue, ?_⟩)))
          exact Bool.eq_false_of_not_eq_true hlate
      · refine .inl ?_
        simp only [TimerRun.step, PriorityTimer.popExpired_eq h.sound.ordered]
        exact List.mem_filter.mpr ⟨hheap, by simpa using hdue⟩
    · exact .inr (.inl (List.mem_append_left _ hreturned))
    · exact .inr (.inr ⟨reading, List.mem_append_left _ hreading, hlate⟩)

/-- The loop calls the next callback. -/
theorem Honest.call (h : Honest r) {reading : Int} {e : TimerEntry} {due : List TimerEntry}
    (hloop : r.loop = .calling reading (e :: due)) (now : Int) : Honest (r.mainLoop now) := by
  have hreturned := h.returned_eq
  obtain ⟨hreading, hready⟩ := h.calling_due hloop
  simp only [Reactor.due, hloop] at hreturned
  simp only [mainLoop, hloop]
  refine ⟨h.sound, ?_, fun x hx => ?_, fun hcalling => ?_, h.accounted⟩
  · simp only [Reactor.due, List.map_append, List.map_cons, List.map_nil]
    rw [List.append_assoc, List.singleton_append, hreturned]
  · rcases List.mem_append.mp hx with hx | hx
    · exact h.called_due x hx
    · rw [List.mem_singleton.mp hx]
      exact hready e List.mem_cons_self
  · obtain ⟨rfl, rfl⟩ := LoopPhase.calling.inj hcalling
    exact ⟨hreading, fun e' he' => hready e' (List.mem_cons_of_mem e he')⟩

/-- The next step of the loop. -/
theorem Honest.mainLoop (h : Honest r) (now : Int) : Honest (r.mainLoop now) := by
  cases hloop : r.loop with
  | reading => exact h.read hloop now
  | calling reading due =>
    cases due with
    | cons e due => exact h.call hloop now
    | nil =>
      simp only [Reactor.mainLoop, hloop]
      exact h.frame rfl rfl rfl (by simp [Reactor.due, hloop]) nofun
  | testing =>
    simp only [Reactor.mainLoop, hloop]
    refine h.frame rfl rfl rfl (by simp [Reactor.due, hloop]) fun now due => ?_
    split <;> nofun
  | absent =>
    simp only [Reactor.mainLoop, hloop]
    exact h
  | exited =>
    simp only [Reactor.mainLoop, hloop]
    exact h
  | ticking =>
    simp only [Reactor.mainLoop, hloop]
    exact h.frame rfl rfl rfl (by simp [Reactor.due, hloop]) nofun
  | waiting =>
    simp only [Reactor.mainLoop, hloop]
    exact h.frame rfl rfl rfl (by simp [Reactor.due, hloop]) nofun

/-- Every step keeps the account. -/
theorem Honest.step (h : Honest r) (hlife : Lifecycle r) (ev : ReactorEvent) :
    Honest (r.step ev) := by
  cases ev with
  | schedule tp skippable =>
    refine ⟨h.sound.scheduleAt tp skippable, h.returned_eq, h.called_due, h.calling_due,
      fun e he => ?_⟩
    have hheap := (List.perm_orderedInsert (fun e o : TimerEntry => o.gt e = true)
      ⟨tp, skippable, r.timers.scheduled.length, r.timers.timer.nextSeq⟩ r.timers.timer.heap)
    rcases List.mem_append.mp he with he | he
    · rcases h.accounted e he with hqueued | hrest
      · exact .inl (hheap.mem_iff.mpr (List.mem_cons_of_mem _ hqueued))
      · exact .inr hrest
    · refine .inl (hheap.mem_iff.mpr ?_)
      rw [List.mem_singleton.mp he]
      exact List.mem_cons_self
  | run =>
    simp only [Reactor.step, start]
    split
    · next houtside =>
      split
      · exact h
      · next hnot =>
        -- The thread of an earlier `run` is gone.
        have habsent := hlife.of_stopped (by simpa using hnot) (.inl houtside)
        exact h.frame rfl rfl rfl (by simp [Reactor.due, habsent]) nofun
    · exact h
  | stop =>
    simp only [Reactor.step, stop]
    split
    · split
      · exact h.keep rfl rfl rfl rfl
      · exact h
    · exact h.keep rfl rfl rfl rfl
    · split
      · next hexited => exact h.frame rfl rfl rfl (by simp [Reactor.due, hexited]) nofun
      · exact h
    · exact h
  | loop now => exact h.mainLoop now
  | pools => exact h
  | poolsDown =>
    simp only [Reactor.step]
    split
    · exact h.keep rfl rfl rfl rfl
    · exact h

/-- What holds in every run. -/
theorem run_honest (events : List ReactorEvent) : Lifecycle (run events) ∧ Honest (run events) :=
  events.foldlRecOn Reactor.step (motive := fun r => Lifecycle r ∧ Honest r)
    ⟨lifecycle_empty, honest_empty⟩ fun _ ⟨hlife, h⟩ ev _ => ⟨hlife.step ev, h.step hlife ev⟩

/-- By a clock that does not go back, a callback is called after the reading at which it was
taken out. -/
theorem reading_le_of_called {events : List ReactorEvent} (hsteady : Steady events) :
    ∀ x ∈ (run events).called, x.2.1 ≤ x.2.2 := by
  induction events using List.reverseRecOn with
  | nil => nofun
  | append_singleton events ev ih =>
    obtain ⟨-, hhonest⟩ := run_honest events
    rw [Steady, List.filterMap_append, List.pairwise_append] at hsteady
    obtain ⟨hbefore, -, hlast⟩ := hsteady
    have hrecorded := recorded_step (run events) ev
    rw [← run_concat] at hrecorded
    cases hrecorded with
    | same htimers hcalled => rw [hcalled]; exact ih hbefore
    | schedule htimers hcalled => rw [hcalled]; exact ih hbefore
    | read hloop htimers hcalled => rw [hcalled]; exact ih hbefore
    | @call now reading e due _ hloop htimers hcalled =>
      rw [hcalled]
      intro x hx
      rcases List.mem_append.mp hx with hx | hx
      · exact ih hbefore x hx
      · rw [List.mem_singleton.mp hx]
        have hread := loop_mem_of_reading (hhonest.calling_due hloop).1
        exact hlast reading (List.mem_filterMap.mpr ⟨_, hread, rfl⟩) now
          (List.mem_singleton.mpr rfl)

/-- **What becomes of a callback**, in any interleaving of the loop, the thread in `run` and
`stop` and the threads that schedule: no callback is called twice; each was taken out at a reading
at or after its deadline, and one that may be skipped at a reading less than two seconds after it;
by a clock that does not go back it is called after that reading. Each one that was scheduled is
queued, about to be called, called, or may be skipped and was found two seconds late. -/
theorem callbacks_accounted (events : List ReactorEvent) :
    ((run events).called.map (·.1.fn)).Nodup ∧
      (∀ x ∈ (run events).called,
        x.1 ∈ TimerEntry.numbered (events.filterMap ReactorEvent.request) ∧
        x.1.deadline ≤ x.2.1 ∧ (x.1.skippable = true → x.2.1 < x.1.deadline + 2000000000)) ∧
      (Steady events → ∀ x ∈ (run events).called, x.2.1 ≤ x.2.2) ∧
      ∀ e ∈ TimerEntry.numbered (events.filterMap ReactorEvent.request),
        e ∈ (run events).timers.timer.heap ∨ e ∈ (run events).due ∨
        (∃ times, (e, times) ∈ (run events).called) ∨
        e.skippable = true ∧ ∃ now, .loop now ∈ events ∧ e.deadline + 2000000000 ≤ now := by
  obtain ⟨-, h⟩ := run_honest events
  have hread {now : Int} := @loop_mem_of_reading events now
  rw [← run_scheduled]
  refine ⟨?_, ?_, reading_le_of_called, ?_⟩
  all_goals generalize run events = r at h hread
  · have honce := h.sound.accounted.once
    rw [← h.returned_eq, List.map_append, List.map_map] at honce
    exact honce.of_append_left
  · intro x hx
    obtain ⟨dropped, hperm, -⟩ := h.sound.account
    obtain ⟨hdue, hlate⟩ := h.called_due x hx
    refine ⟨hperm.mem_iff.mp (List.mem_append_left _ (List.mem_append_right _ ?_)), hdue,
      fun hskip => ?_⟩
    · rw [← h.returned_eq]
      exact List.mem_append_left _ (List.mem_map_of_mem hx)
    · by_contra hnot
      rw [(tooLate_iff hdue).mpr ⟨hskip, by omega⟩] at hlate
      cases hlate
  · intro e he
    rcases h.accounted e he with hheap | hgiven | ⟨now, hnow, hdue, hlate⟩
    · exact .inl hheap
    · rw [← h.returned_eq] at hgiven
      rcases List.mem_append.mp hgiven with hcalled | hdue
      · obtain ⟨x, hx, rfl⟩ := List.mem_map.mp hcalled
        exact .inr (.inr (.inl ⟨x.2, hx⟩))
      · exact .inr (.inl hdue)
    · obtain ⟨hskip, hlag⟩ := (tooLate_iff hdue).mp hlate
      exact .inr (.inr (.inr ⟨hskip, now, hread hnow, hlag⟩))

/-- Two callbacks are taken out together, and the second one is called five seconds later, behind
the first; a third one is found two seconds late. -/
def slowBatch : List ReactorEvent :=
  [.run, .schedule 5 false, .schedule 9 true, .loop 10, .loop 10, .loop 10, .schedule 20 true,
    .loop 5000000010, .loop 5000000010, .loop 5000000010, .loop 5000000010, .loop 5000000010,
    .loop 5000000010]

/-- The second callback is called five seconds after it was taken out, and the third one is
skipped. -/
theorem callbacks_accounted_slowBatch :
    (run slowBatch).called =
        [(⟨5, false, 0, 0⟩, 10, 10), (⟨9, true, 1, 1⟩, 10, 5000000010)] ∧
      (∀ x ∈ (run slowBatch).called, x.2.1 ≤ x.2.2) ∧
      ∃ now, .loop now ∈ slowBatch ∧ (20 : Int) + 2000000000 ≤ now := by
  have hcalled : (run slowBatch).called =
      [(⟨5, false, 0, 0⟩, 10, 10), (⟨9, true, 1, 1⟩, 10, 5000000010)] := by decide +kernel
  obtain ⟨-, -, hclock, haccounted⟩ := callbacks_accounted slowBatch
  have hsteady : Steady slowBatch := by
    unfold Steady
    decide +kernel
  refine ⟨hcalled, hclock hsteady, ?_⟩
  rcases haccounted ⟨20, true, 2, 2⟩ (by decide +kernel) with hheap | hdue | ⟨times, htimes⟩ | hlate
  · exact absurd hheap (by decide +kernel)
  · exact absurd hdue (by decide +kernel)
  · simp [hcalled] at htimes
  · exact hlate.2

/-! ### After `stop` -/

/-- While no loop thread exists and `run` is not called, nothing is called. -/
theorem quiet_step (hrunning : r.running = false) (houtside : r.stopping = .outside)
    (habsent : r.loop = .absent) (hev : ev ≠ .run) :
    ((r.step ev).running = false ∧ (r.step ev).stopping = .outside ∧
      (r.step ev).loop = .absent) ∧
      (r.step ev).called = r.called ∧ (r.step ev).ticks = r.ticks := by
  cases ev with
  | schedule tp skippable => exact ⟨⟨hrunning, houtside, habsent⟩, rfl, rfl⟩
  | run => exact absurd rfl hev
  | stop => simp [step, stop, houtside, hrunning, habsent]
  | loop now => simp [step, mainLoop, habsent, hrunning, houtside]
  | pools => exact ⟨⟨hrunning, houtside, habsent⟩, rfl, rfl⟩
  | poolsDown => simp [step, houtside, hrunning, habsent]

/-- **`stop` is final.** When one thread calls `run` and `stop`, then once `stop` has returned, no
callback and no tick is called until the next `run`; and of the callbacks that may not be skipped,
each that was scheduled before has been called or is still queued, so that none was taken out and
lost. -/
theorem quiet_after_stop (events later : List ReactorEvent)
    (hrunning : (run events).running = false) (houtside : (run events).stopping = .outside)
    (hlater : .run ∉ later) :
    (run (events ++ later)).called = (run events).called ∧
      (run (events ++ later)).ticks = (run events).ticks ∧
      ∀ e ∈ TimerEntry.numbered (events.filterMap ReactorEvent.request), e.skippable = false →
        (∃ times, (e, times) ∈ (run events).called) ∨ e ∈ (run events).timers.timer.heap := by
  obtain ⟨hlife, h⟩ := run_honest events
  rw [← run_scheduled]
  have habsent := hlife.of_stopped hrunning (.inl houtside)
  have hquiet : ((run (events ++ later)).running = false ∧
      (run (events ++ later)).stopping = .outside ∧ (run (events ++ later)).loop = .absent) ∧
      (run (events ++ later)).called = (run events).called ∧
      (run (events ++ later)).ticks = (run events).ticks := by
    rw [run, List.foldl_append]
    refine List.foldlRecOn later step (motive := fun r => (r.running = false ∧
      r.stopping = .outside ∧ r.loop = .absent) ∧ r.called = (run events).called ∧
      r.ticks = (run events).ticks) ⟨⟨hrunning, houtside, habsent⟩, rfl, rfl⟩ ?_
    rintro r ⟨⟨hrunning, houtside, habsent⟩, hcalled, hticks⟩ ev hev
    obtain ⟨hstill, hcalled', hticks'⟩ :=
      @quiet_step r ev hrunning houtside habsent fun heq => hlater (heq ▸ hev)
    exact ⟨hstill, hcalled'.trans hcalled, hticks'.trans hticks⟩
  refine ⟨hquiet.2.1, hquiet.2.2, fun e he hskip => ?_⟩
  rcases h.sound.accounted.kept e he hskip with hreturned | hheap
  · rw [← h.returned_eq, due_eq_nil (by simp [habsent]), List.append_nil] at hreturned
    obtain ⟨x, hx, rfl⟩ := List.mem_map.mp hreturned
    exact .inl ⟨x.2, hx⟩
  · exact .inr hheap

/-- A callback is called, a second one is scheduled for later, and the reactor is stopped. -/
def stoppedRun : List ReactorEvent :=
  [.run, .schedule 5 false, .schedule 90 false, .loop 10, .loop 10, .loop 10, .stop, .loop 10,
    .stop, .loop 10, .loop 10, .loop 10, .stop, .poolsDown]

/-- After a stop no callback is called. -/
theorem quiet_after_stop_stoppedRun :
    (run stoppedRun).called = [(⟨5, false, 0, 0⟩, 10, 10)] ∧
      ((run (stoppedRun ++ [.loop 100, .stop, .loop 100])).called = (run stoppedRun).called ∧
        (run (stoppedRun ++ [.loop 100, .stop, .loop 100])).ticks = (run stoppedRun).ticks ∧
        ∀ e ∈ TimerEntry.numbered (stoppedRun.filterMap ReactorEvent.request),
          e.skippable = false → (∃ times, (e, times) ∈ (run stoppedRun).called) ∨
            e ∈ (run stoppedRun).timers.timer.heap) :=
  ⟨by decide +kernel, quiet_after_stop stoppedRun [.loop 100, .stop, .loop 100]
    (by decide +kernel) (by decide +kernel) (by decide)⟩

/-! ### Progress -/

/-- Only the loop thread moves the loop, as long as there is one that has not exited. -/
theorem loop_frame (hlife : Lifecycle r) (hev : ∀ now, ev ≠ .loop now) (habsent : r.loop ≠ .absent)
    (hexited : r.loop ≠ .exited) : (r.step ev).loop = r.loop := by
  cases ev with
  | schedule tp skippable => rfl
  | run =>
    simp only [step, start]
    split
    · next houtside =>
      split
      · rfl
      · next hnot => exact absurd (hlife.of_stopped (by simpa using hnot) (.inl houtside)) habsent
    · rfl
  | stop =>
    simp only [step, stop, if_neg hexited]
    split
    · split <;> rfl
    · rfl
    · rfl
    · rfl
  | loop now => exact absurd rfl (hev now)
  | pools => rfl
  | poolsDown =>
    simp only [step]
    split <;> rfl

/-- A queued callback stays queued until the loop takes out what is due. -/
theorem heap_frame {e : TimerEntry} (he : e ∈ r.timers.timer.heap)
    (hev : r.loop ≠ .reading ∨ ∀ now, ev ≠ .loop now) : e ∈ (r.step ev).timers.timer.heap := by
  cases recorded_step r ev with
  | same htimers => rwa [htimers]
  | schedule htimers =>
    rw [htimers]
    exact (List.perm_orderedInsert _ _ _).mem_iff.mpr (List.mem_cons_of_mem _ he)
  | read hloop => exact absurd hloop (hev.resolve_right fun hnot => hnot _ rfl)
  | call hloop htimers => rwa [htimers]

/-- The reactor runs until `stop` is called. -/
theorem running_frame (hrunning : r.running = true) (hev : ev ≠ .stop) :
    (r.step ev).running = true := by
  cases ev with
  | schedule tp skippable => exact hrunning
  | run =>
    simp only [step, start, hrunning, if_true]
    split <;> exact hrunning
  | stop => exact absurd rfl hev
  | loop now => exact (r.mainLoop_frame now).1.trans hrunning
  | pools => exact hrunning
  | poolsDown =>
    simp only [step]
    split <;> exact hrunning

/-- Before it shuts the pools down, `stop` goes on by its own steps only. -/
theorem stopping_frame (hclosing : r.stopping ≠ .closing) (hev : ev ≠ .stop) :
    (r.step ev).stopping = r.stopping := by
  cases ev with
  | schedule tp skippable => rfl
  | run =>
    simp only [step, start]
    split
    · split <;> rfl
    · rfl
  | stop => exact absurd rfl hev
  | loop now => exact (r.mainLoop_frame now).2.2.1
  | pools => rfl
  | poolsDown => rw [step, if_neg hclosing]

/-- Each step of a pass brings the next test closer. -/
theorem untilTest_mainLoop (hpass : r.loop.inPass = true) (htesting : r.loop ≠ .testing)
    (now : Int) : (r.mainLoop now).loop.inPass = true ∧
      (r.mainLoop now).loop.untilTest < r.loop.untilTest := by
  cases hloop : r.loop with
  | testing => exact absurd hloop htesting
  | calling reading due =>
    cases due with
    | nil => simp [mainLoop, hloop, LoopPhase.inPass, LoopPhase.untilTest]
    | cons e due => simp [mainLoop, hloop, LoopPhase.inPass, LoopPhase.untilTest]
  | ticking => simp [mainLoop, hloop, LoopPhase.inPass, LoopPhase.untilTest]
  | waiting => simp [mainLoop, hloop, LoopPhase.inPass, LoopPhase.untilTest]
  | absent | reading | exited =>
    rw [hloop] at hpass
    cases hpass

/-- The test of the loop. -/
theorem mainLoop_testing (htesting : r.loop = .testing) (now : Int) :
    (r.mainLoop now).loop = if !r.stopRequested && r.running then .reading else .exited := by
  simp only [mainLoop, htesting]

/-- During a pass the loop thread is there. -/
theorem inPass_ne (hpass : r.loop.inPass = true) : r.loop ≠ .absent ∧ r.loop ≠ .exited := by
  constructor <;> intro hloop <;> rw [hloop] at hpass <;> cases hpass

/-- While the reactor is running, the loop thread is in a pass or reads the clock. -/
theorem inPass_of_running (hlife : Lifecycle r) (hrunning : r.running = true)
    (hreading : r.loop ≠ .reading) : r.loop.inPass = true := by
  obtain ⟨-, -, habsent, hexited⟩ := hlife.of_running hrunning
  cases hloop : r.loop with
  | absent => exact absurd hloop habsent
  | reading => exact absurd hloop hreading
  | exited => exact absurd hloop hexited
  | testing | calling | ticking | waiting => rfl

/-- The join waits until the loop has exited. -/
theorem joining_frame (hjoining : r.stopping = .joining) (hexited : r.loop ≠ .exited) :
    (r.step ev).stopping = .joining := by
  by_cases hev : ev = .stop
  · simp only [hev, step, stop, hjoining, if_neg hexited]
  · exact (stopping_frame (by simp [hjoining]) hev).trans hjoining

/-- A loop that has exited waits to be joined. -/
theorem exited_frame (hexited : r.loop = .exited) (hstopping : r.stopping ≠ .outside)
    (hev : ev ≠ .stop) : (r.step ev).loop = .exited := by
  cases ev with
  | schedule tp skippable => exact hexited
  | run => rwa [step, if_neg hstopping]
  | stop => exact absurd rfl hev
  | loop now => simp only [step, mainLoop, hexited]
  | pools => exact hexited
  | poolsDown =>
    simp only [step]
    split <;> exact hexited

/-- The labels of the loop thread. -/
def IsLoop (ev : ReactorEvent) : Prop := ∃ now, ev = .loop now

section Progress

variable {init : Reactor} {ls : ℕ → ReactorEvent} {e : TimerEntry}
  (hlife : ∀ n, Lifecycle (trace step init ls n)) (hfair : AgainAndAgain IsLoop ls)

include hlife hfair

/-- A callback that has been taken out is called, whether or not a stop is requested. -/
theorem due_leadsTo_called : LeadsTo (trace step init ls) (fun r => e ∈ r.due)
    (fun r => ∃ times, (e, times) ∈ r.called) := by
  refine leadsTo_of_measure hfair (fun r => r.due.length) fun n hdue => ?_
  obtain ⟨reading, due, hloop⟩ :
      ∃ reading due, (trace step init ls n).loop = .calling reading due := by
    by_contra hnot
    rw [due_eq_nil fun reading due hloop => hnot ⟨reading, due, hloop⟩] at hdue
    cases hdue
  have hlist : (trace step init ls n).due = due := by simp only [Reactor.due, hloop]
  by_cases hev : IsLoop (ls n)
  · obtain ⟨now, hnow⟩ := hev
    have hnext : trace step init ls (n + 1) = (trace step init ls n).mainLoop now := by
      rw [trace, hnow]
      rfl
    cases due with
    | nil =>
      rw [hlist] at hdue
      cases hdue
    | cons e' due =>
      rw [hnext]
      simp only [mainLoop, hloop]
      rw [hlist] at hdue ⊢
      rcases List.mem_cons.mp hdue with rfl | hdue
      · exact .inl ⟨(reading, now), by simp⟩
      · exact .inr ⟨hdue, by simp [Reactor.due], fun _ => by simp [Reactor.due]⟩
  · have hsame := @loop_frame _ (ls n) (hlife n) (fun now hnow => hev ⟨now, hnow⟩)
      (by simp [hloop]) (by simp [hloop])
    have hkept : (trace step init ls (n + 1)).due = (trace step init ls n).due := by
      simp only [Reactor.due, trace, hsame]
    rw [hkept]
    exact .inr ⟨hdue, le_rfl, fun hloop => absurd hloop hev⟩

/-- A pass of the loop ends in a test of its condition; what every step of a pass keeps holds at
that test. -/
theorem pass_leadsTo {P Q : Reactor → Prop}
    (hkeep : ∀ n, P (trace step init ls n) → (trace step init ls n).loop.inPass = true →
      P (trace step init ls (n + 1)))
    (htest : ∀ n now, P (trace step init ls n) → (trace step init ls n).loop = .testing →
      Q ((trace step init ls n).mainLoop now)) :
    LeadsTo (trace step init ls) (fun r => P r ∧ r.loop.inPass = true) Q := by
  refine leadsTo_of_measure hfair (fun r => r.loop.untilTest) fun n ⟨hP, hpass⟩ => ?_
  have hP' := hkeep n hP hpass
  by_cases hev : IsLoop (ls n)
  · obtain ⟨now, hnow⟩ := hev
    have hnext : trace step init ls (n + 1) = (trace step init ls n).mainLoop now := by
      rw [trace, hnow]
      rfl
    by_cases htesting : (trace step init ls n).loop = .testing
    · left
      rw [hnext]
      exact htest n now hP htesting
    · obtain ⟨hpass', hless⟩ := untilTest_mainLoop hpass htesting now
      rw [← hnext] at hpass' hless
      exact .inr ⟨⟨hP', hpass'⟩, hless.le, fun _ => hless⟩
  · have hsame := @loop_frame _ (ls n) (hlife n) (fun now hnow => hev ⟨now, hnow⟩)
      (inPass_ne hpass).1 (inPass_ne hpass).2
    refine .inr ⟨⟨hP', ?_⟩, ?_, fun hloop => absurd hloop hev⟩
    · rw [trace, hsame]
      exact hpass
    · rw [trace, hsame]

/-- A callback is queued while the reactor runs. -/
def Queued (e : TimerEntry) (r : Reactor) : Prop :=
  r.running = true ∧ e ∈ r.timers.timer.heap

/-- While the reactor runs and is not stopped, a pass ends in the next reading of the clock; what
is queued stays queued until then. -/
theorem pass_leadsTo_reading (hstop : ∀ n, ls n ≠ .stop) :
    LeadsTo (trace step init ls) (fun r => Queued e r ∧ r.loop.inPass = true)
      (fun r => Queued e r ∧ r.loop = .reading) := by
  have hreading {r : Reactor} (hpass : r.loop.inPass = true) : r.loop ≠ .reading := by
    intro hloop
    rw [hloop] at hpass
    cases hpass
  refine pass_leadsTo hlife hfair (fun n ⟨hrunning, he⟩ hpass =>
    ⟨running_frame hrunning (hstop n), heap_frame he (.inl (hreading hpass))⟩) ?_
  intro n now ⟨hrunning, he⟩ htesting
  have hpass : (trace step init ls n).loop.inPass = true := by
    rw [htesting]
    rfl
  refine ⟨⟨(mainLoop_frame _ now).1.trans hrunning,
    @heap_frame _ (.loop now) _ he (.inl (hreading hpass))⟩, ?_⟩
  rw [mainLoop_testing htesting]
  simp [hrunning, ((hlife n).of_running hrunning).2.1]

/-- At a reading, what is due and may not be skipped is taken out. -/
theorem reading_leadsTo_due (hhonest : ∀ n, Honest (trace step init ls n))
    (hstop : ∀ n, ls n ≠ .stop) (hskip : e.skippable = false)
    (hclock : ∀ n now, ls n = .loop now → e.deadline ≤ now) :
    LeadsTo (trace step init ls) (fun r => Queued e r ∧ r.loop = .reading)
      (fun r => e ∈ r.due) := by
  refine leadsTo_of_measure hfair (fun _ => 0) fun n ⟨⟨hrunning, he⟩, hreading⟩ => ?_
  by_cases hev : IsLoop (ls n)
  · obtain ⟨now, hnow⟩ := hev
    left
    have hmem := @PriorityTimer.mem_popExpired (trace step init ls n).timers.timer now
      skipThreshold (hhonest n).sound.ordered e
    rw [trace, hnow]
    simp only [step, mainLoop, hreading, Reactor.due]
    refine hmem.mpr ⟨he, hclock n now hnow, ?_⟩
    rw [PriorityTimer.tooLate, hskip, Bool.false_and]
  · have hother : ∀ now, ls n ≠ .loop now := fun now hnow => hev ⟨now, hnow⟩
    have hsame := @loop_frame _ (ls n) (hlife n) hother (by simp [hreading]) (by simp [hreading])
    exact .inr ⟨⟨⟨running_frame hrunning (hstop n), heap_frame he (.inr hother)⟩,
      hsame.trans hreading⟩, le_rfl, fun hloop => absurd hloop hev⟩

/-- A pass that is under way is finished, and so the next one. -/
theorem reading_leadsTo_pass : LeadsTo (trace step init ls)
    (fun r => r.stopping = .joining ∧ r.loop = .reading)
    (fun r => r.stopping = .joining ∧ r.loop.inPass = true) := by
  refine leadsTo_of_measure hfair (fun _ => 0) fun n ⟨hjoining, hreading⟩ => ?_
  have hjoining' : (trace step init ls (n + 1)).stopping = .joining :=
    joining_frame hjoining (by simp [hreading])
  by_cases hev : IsLoop (ls n)
  · obtain ⟨now, hnow⟩ := hev
    refine .inl ⟨hjoining', ?_⟩
    rw [trace, hnow]
    simp only [step, mainLoop, hreading, LoopPhase.inPass]
  · have hsame := @loop_frame _ (ls n) (hlife n) (fun now hnow => hev ⟨now, hnow⟩)
      (by simp [hreading]) (by simp [hreading])
    exact .inr ⟨⟨hjoining', hsame.trans hreading⟩, le_rfl, fun hloop => absurd hloop hev⟩

/-- The loop of a reactor that does not run exits at its next test. -/
theorem pass_leadsTo_exited : LeadsTo (trace step init ls)
    (fun r => r.stopping = .joining ∧ r.loop.inPass = true)
    (fun r => r.stopping = .joining ∧ r.loop = .exited) := by
  refine pass_leadsTo hlife hfair (fun n hjoining hpass =>
    joining_frame hjoining (inPass_ne hpass).2) fun n now hjoining htesting => ?_
  refine ⟨(mainLoop_frame _ now).2.2.1.trans hjoining, ?_⟩
  rw [mainLoop_testing htesting]
  simp [((hlife n).of_stopping (.inr hjoining)).1]

/-- The loop exits while it is being joined. -/
theorem joining_leadsTo_exited : LeadsTo (trace step init ls) (fun r => r.stopping = .joining)
    (fun r => r.stopping = .joining ∧ r.loop = .exited) := by
  intro n hjoining
  have hpass := pass_leadsTo_exited hlife hfair
  cases hloop : (trace step init ls n).loop with
  | absent => exact absurd hloop ((hlife n).of_stopping (.inr hjoining)).2
  | exited => exact ⟨n, le_rfl, hjoining, hloop⟩
  | reading => exact ((reading_leadsTo_pass hlife hfair).trans hpass) n ⟨hjoining, hloop⟩
  | testing | calling | ticking | waiting => exact hpass n ⟨hjoining, by rw [hloop]; rfl⟩

end Progress

/-- The states along a schedule from a reachable state are reachable. -/
theorem trace_honest (events : List ReactorEvent) (ls : ℕ → ReactorEvent) (n : ℕ) :
    Lifecycle (trace step (run events) ls n) ∧ Honest (trace step (run events) ls n) := by
  rw [trace_eq_foldl, run, ← List.foldl_append]
  exact run_honest _

/-- **Callbacks are called.** If the reactor runs, is not stopped and its loop thread gets its
turns again and again, then every queued callback that may not be skipped is called, once the clock
has passed its deadline. -/
theorem callback_called (events : List ReactorEvent) (ls : ℕ → ReactorEvent) {e : TimerEntry}
    (hrunning : (run events).running = true) (he : e ∈ (run events).timers.timer.heap)
    (hskip : e.skippable = false) (hstop : ∀ n, ls n ≠ .stop)
    (hclock : ∀ n now, ls n = .loop now → e.deadline ≤ now) (hfair : AgainAndAgain IsLoop ls) :
    ∃ n times, (e, times) ∈ (trace step (run events) ls n).called := by
  have hlife (n : ℕ) := (trace_honest events ls n).1
  have hhonest (n : ℕ) := (trace_honest events ls n).2
  have hcalled := (reading_leadsTo_due hlife hfair hhonest hstop hskip hclock).trans
    (due_leadsTo_called hlife hfair)
  by_cases hreading : (run events).loop = .reading
  · obtain ⟨n, -, hn⟩ := hcalled 0 ⟨⟨hrunning, he⟩, hreading⟩
    exact ⟨n, hn⟩
  · have hpass := inPass_of_running (hlife 0) hrunning hreading
    obtain ⟨n, -, hn⟩ := ((pass_leadsTo_reading hlife hfair hstop).trans hcalled) 0
      ⟨⟨hrunning, he⟩, hpass⟩
    exact ⟨n, hn⟩

/-- A callback scheduled for the time 9 is called by a loop that reads the time 10. -/
theorem callback_called_scheduled :
    ∃ n times, (⟨9, false, 0, 0⟩, times) ∈
      (trace step (run [.run, .schedule 9 false]) (fun _ => .loop 10) n).called :=
  callback_called [.run, .schedule 9 false] (fun _ => .loop 10) (by decide +kernel)
    (by decide +kernel) rfl (fun _ => nofun)
    (fun _ now hnow => by rw [← ReactorEvent.loop.inj hnow]; decide)
    fun i => ⟨i, le_rfl, 10, rfl⟩

/-- What the queue has given out is never forgotten. -/
theorem returned_subset_step {e : TimerEntry} (he : e ∈ r.timers.returned) :
    e ∈ (r.step ev).timers.returned := by
  cases recorded_step r ev with
  | same htimers => rwa [htimers]
  | schedule htimers =>
    rw [htimers]
    exact he
  | read hloop htimers =>
    rw [htimers]
    exact List.mem_append_left _ he
  | call hloop htimers => rwa [htimers]

end Reactor

end TtsServer
