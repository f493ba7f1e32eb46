import TtsServer.Lib.Threads
import Mathlib.Data.List.Infix

/-!
# The workers of the event bus

`start_workers` creates threads that take asynchronous events from the inbox of the bus,
and `stop_workers` closes the inbox and deletes the threads. Three latches are involved:
`running_`, which follows the calls, the stop token of each thread, and the stop source of
the inbox, which is never reset. The steps here are the accesses to shared state, as for the
thread pool; calls of `start_workers` and `stop_workers` follow one another, and events may
be published at any time.
-/

namespace TtsServer

/-- Where a worker is in `run_loop`. -/
inductive BusPhase where
  /-- At the loop condition. -/
  | loopTest
  /-- About to call `try_pop`. -/
  | trying
  /-- In `wait_pop`, about to take the lock. -/
  | locking
  /-- With the lock, about to test the predicate of the wait. -/
  | testing
  /-- With the lock, the predicate found false. -/
  | parking
  /-- Waiting for a notification. -/
  | parked
  /-- Notified, about to take the lock again. -/
  | woken
  /-- With the lock, behind the wait. -/
  | taking
  /-- Running a task. -/
  | running (task : ℕ)
  /-- Behind the loop. -/
  | returned
  deriving DecidableEq, Repr

/-- In this phase the lock of the inbox is held. -/
def BusPhase.holdsLock : BusPhase → Bool
  | testing | parking | taking => true
  | _ => false

/-- `BusWorker`: where its thread is, and whether its stop token is requested. -/
structure BusWorker where
  phase : BusPhase := .loopTest
  stopRequested : Bool := false
  deriving DecidableEq, Repr

/-- A worker whose thread has just been created. -/
def BusWorker.created : BusWorker := {}

/-- The worker holds the lock of the inbox. -/
def BusWorker.holdsLock (w : BusWorker) : Bool := w.phase.holdsLock

/-- Where a call of `stop_workers` is. -/
inductive StopPhase where
  | idle
  /-- `running_` is cleared, the inbox is not closed yet. -/
  | called
  /-- The stop source of the inbox is set, its notification is due. -/
  | flagged
  /-- The worker with this index is deleted next; its stop is requested before it is
  joined. -/
  | deleting (next : ℕ) (requested : Bool)
  deriving DecidableEq, Repr

/-- The calls made to the bus. -/
inductive BusCall where
  | start (n : ℕ)
  | stop
  | publish
  deriving DecidableEq, Repr

/-- The workers of an `EventBus` with its inbox, the calls in progress and those made. -/
structure BusWorkers where
  running : Bool := false
  /-- The workers that a call of `start_workers` still has to create. -/
  spawning : ℕ := 0
  workers : List BusWorker := []
  queue : List ℕ := []
  /-- The number of tasks pushed so far. -/
  published : ℕ := 0
  /-- The tasks whose push is not notified yet. -/
  publishing : List ℕ := []
  /-- The stop source of the inbox. -/
  closed : Bool := false
  /-- A `close` has notified the waiting workers. -/
  announced : Bool := false
  stopping : StopPhase := .idle
  calls : List BusCall := []
  deriving DecidableEq, Repr

/-- A step of the bus. -/
inductive BusStep where
  | call (c : BusCall)
  /-- `start_workers` creates one worker. -/
  | spawn
  /-- `Inbox::close` sets the stop source. -/
  | setStop
  /-- `Inbox::close` notifies all waiting workers. -/
  | notifyAll
  /-- `stop_workers` requests the stop of the next worker, or is done. -/
  | requestStop
  /-- `stop_workers` joins the next worker. -/
  | join
  /-- The worker with this index takes its next step. -/
  | worker (i : ℕ)
  /-- The push of a task notifies one waiting worker. -/
  | notifyOne (task i : ℕ)
  /-- A waiting worker wakes by itself. -/
  | wake (i : ℕ)
  deriving DecidableEq, Repr

namespace BusWorkers

/-- No worker holds the lock of the inbox. -/
def lockFree (s : BusWorkers) : Bool := s.workers.all (!·.holdsLock)

/-- The worker moves to another phase. -/
def move (s : BusWorkers) (i : ℕ) (w : BusWorker) (phase : BusPhase) : BusWorkers :=
  { s with workers := s.workers.set i { w with phase } }

/-- The step of a worker in `run_loop`. -/
def workerStep (s : BusWorkers) (i : ℕ) (w : BusWorker) : BusWorkers :=
  match w.phase with
  | .loopTest => s.move i w (if w.stopRequested then .returned else .trying)
  | .trying =>
    if s.lockFree then
      match s.queue with
      | [] => s.move i w .locking
      | task :: queue => { s.move i w (.running task) with queue }
    else s
  | .locking => if s.lockFree then s.move i w .testing else s
  | .testing => s.move i w (if !s.queue.isEmpty || s.closed then .taking else .parking)
  | .parking => s.move i w .parked
  | .parked => s
  | .woken => if s.lockFree then s.move i w .testing else s
  | .taking =>
    match s.queue with
    | [] => s.move i w .returned
    | task :: queue => { s.move i w (.running task) with queue }
  | .running _ => s.move i w .loopTest
  | .returned => s

/-- A parked worker is woken. -/
def wakeWorker (w : BusWorker) : BusWorker :=
  if w.phase = .parked then { w with phase := .woken } else w

/-- The beginning of a call. `start_workers` and `stop_workers` are called by the one thread that
owns the bus, so that none begins before the last one has returned; of each, only the first of
several in a row has an effect. In the code a second thread in `stop_workers` would return at
once, while the first is still joining. -/
def call (s : BusWorkers) : BusCall → BusWorkers
  | .start n =>
    if s.spawning = 0 ∧ s.stopping = .idle then
      if s.running then { s with calls := s.calls ++ [.start n] }
      else { s with running := true, spawning := n, calls := s.calls ++ [.start n] }
    else s
  | .stop =>
    if s.spawning = 0 ∧ s.stopping = .idle then
      if s.running then
        { s with running := false, stopping := .called, calls := s.calls ++ [.stop] }
      else { s with calls := s.calls ++ [.stop] }
    else s
  | .publish =>
    if s.lockFree then
      { s with
        queue := s.queue ++ [s.published]
        published := s.published + 1
        publishing := s.publishing ++ [s.published]
        calls := s.calls ++ [.publish] }
    else s

/-- One step; a step that is not possible changes nothing. -/
def step (s : BusWorkers) : BusStep → BusWorkers
  | .call c => s.call c
  | .spawn =>
    match s.spawning with
    | 0 => s
    | k + 1 => { s with workers := s.workers ++ [.created], spawning := k }
  | .setStop =>
    if s.stopping = .called then { s with closed := true, stopping := .flagged } else s
  | .notifyAll =>
    if s.stopping = .flagged then
      { s with
        workers := s.workers.map wakeWorker
        announced := true
        stopping := .deleting 0 false }
    else s
  | .requestStop =>
    match s.stopping with
    | .deleting next false =>
      match s.workers[next]? with
      | some w =>
        { s with
          workers := s.workers.set next { w with stopRequested := true }
          stopping := .deleting next true }
      | none => { s with workers := [], stopping := .idle }
    | _ => s
  | .join =>
    match s.stopping with
    | .deleting next true =>
      match s.workers[next]? with
      | some w =>
        if w.phase = .returned then { s with stopping := .deleting (next + 1) false } else s
      | none => s
    | _ => s
  | .worker i =>
    match s.workers[i]? with
    | some w => s.workerStep i w
    | none => s
  | .notifyOne task i =>
    if task ∈ s.publishing then
      if s.workers.any (·.phase = .parked) then
        match s.workers[i]? with
        | some w =>
          if w.phase = .parked then
            { s.move i w .woken with publishing := s.publishing.erase task }
          else s
        | none => s
      else { s with publishing := s.publishing.erase task }
    else s
  | .wake i =>
    match s.workers[i]? with
    | some w => if w.phase = .parked then s.move i w .woken else s
    | none => s

/-- The steps in turn. -/
def run (s : BusWorkers) (steps : List BusStep) : BusWorkers := steps.foldl step s

/-- The run of no steps. -/
@[simp] theorem run_nil (s : BusWorkers) : s.run [] = s := rfl

/-- A run begins with its first step. -/
@[simp] theorem run_cons (s : BusWorkers) (l : BusStep) (steps : List BusStep) :
    s.run (l :: steps) = (s.step l).run steps := rfl

/-- A run of one list of steps after another. -/
theorem run_append (s : BusWorkers) (steps steps' : List BusStep) :
    s.run (steps ++ steps') = (s.run steps).run steps' :=
  List.foldl_append

/-! ### What a step can do -/

/-- The moves of a worker that do not touch the queue. -/
inductive Edge (s : BusWorkers) (stopRequested : Bool) : BusPhase → BusPhase → Prop
  | leave (hstop : stopRequested = true) : Edge s stopRequested .loopTest .returned
  | enter : Edge s stopRequested .loopTest .trying
  | miss : Edge s stopRequested .trying .locking
  | lock (hfree : s.lockFree = true) : Edge s stopRequested .locking .testing
  | relock (hfree : s.lockFree = true) : Edge s stopRequested .woken .testing
  | pass (htest : s.queue ≠ [] ∨ s.closed = true) : Edge s stopRequested .testing .taking
  | wait (hopen : s.closed = false) : Edge s stopRequested .testing .parking
  | park : Edge s stopRequested .parking .parked
  | wake : Edge s stopRequested .parked .woken
  | drained (hqueue : s.queue = []) : Edge s stopRequested .taking .returned
  | finish {task} : Edge s stopRequested (.running task) .loopTest

/-- The steps that change the bus. -/
inductive Transition (s : BusWorkers) : BusWorkers → Prop
  | move {i w q} (hi : s.workers[i]? = some w) (hedge : Edge s w.stopRequested w.phase q) :
      Transition s (s.move i w q)
  | take {i w task queue} (hi : s.workers[i]? = some w)
      (hphase : w.phase = .taking ∨ w.phase = .trying ∧ s.lockFree = true)
      (hqueue : s.queue = task :: queue) :
      Transition s { s.move i w (.running task) with queue }
  | startAgain {n} (hrunning : s.running = true) :
      Transition s { s with calls := s.calls ++ [.start n] }
  | start {n} (hidle : s.stopping = .idle) :
      Transition s { s with running := true, spawning := n, calls := s.calls ++ [.start n] }
  | stopAgain (hrunning : s.running = false) (hidle : s.stopping = .idle) :
      Transition s { s with calls := s.calls ++ [.stop] }
  | stop (hrunning : s.running = true) :
      Transition s
        { s with running := false, stopping := .called, calls := s.calls ++ [.stop] }
  | publish :
      Transition s { s with
        queue := s.queue ++ [s.published]
        published := s.published + 1
        publishing := s.publishing ++ [s.published]
        calls := s.calls ++ [.publish] }
  | spawn {k} : Transition s { s with workers := s.workers ++ [.created], spawning := k }
  | setStop (hstopping : s.stopping = .called) :
      Transition s { s with closed := true, stopping := .flagged }
  | notifyAll (hstopping : s.stopping = .flagged) :
      Transition s { s with
        workers := s.workers.map wakeWorker
        announced := true
        stopping := .deleting 0 false }
  | request {next w} (hstopping : s.stopping = .deleting next false)
      (hi : s.workers[next]? = some w) :
      Transition s { s with
        workers := s.workers.set next { w with stopRequested := true }
        stopping := .deleting next true }
  | clear {next} (hstopping : s.stopping = .deleting next false) :
      Transition s { s with workers := [], stopping := .idle }
  | join {next} (hstopping : s.stopping = .deleting next true) :
      Transition s { s with stopping := .deleting (next + 1) false }
  | notifyNone {publishing} : Transition s { s with publishing }
  | notifyOne {i w publishing} (hi : s.workers[i]? = some w) (hphase : w.phase = .parked) :
      Transition s { s.move i w .woken with publishing }

/-- A step of a worker is a transition or changes nothing. -/
theorem workerStep_cases (s : BusWorkers) {i : ℕ} {w : BusWorker} (hi : s.workers[i]? = some w) :
    s.workerStep i w = s ∨ Transition s (s.workerStep i w) := by
  obtain ⟨phase, stopRequested⟩ := w
  cases phase with
  | loopTest =>
    cases stopRequested with
    | true => exact .inr (.move hi (.leave rfl))
    | false => exact .inr (.move hi .enter)
  | trying =>
    simp only [workerStep]
    split
    · next hfree =>
      split
      · exact .inr (.move hi .miss)
      · next hqueue => exact .inr (.take hi (.inr ⟨rfl, hfree⟩) hqueue)
    · exact .inl rfl
  | locking =>
    simp only [workerStep]
    split
    · next hfree => exact .inr (.move hi (.lock hfree))
    · exact .inl rfl
  | testing =>
    simp only [workerStep]
    split
    · next htest =>
      simp only [Bool.or_eq_true, Bool.not_eq_true', List.isEmpty_eq_false_iff] at htest
      exact .inr (.move hi (.pass htest))
    · next htest =>
      simp only [Bool.or_eq_true, not_or, Bool.not_eq_true] at htest
      exact .inr (.move hi (.wait htest.2))
  | parking => exact .inr (.move hi .park)
  | parked => exact .inl rfl
  | woken =>
    simp only [workerStep]
    split
    · next hfree => exact .inr (.move hi (.relock hfree))
    · exact .inl rfl
  | taking =>
    simp only [workerStep]
    split
    · next hqueue => exact .inr (.move hi (.drained hqueue))
    · next hqueue => exact .inr (.take hi (.inl rfl) hqueue)
  | running task => exact .inr (.move hi .finish)
  | returned => exact .inl rfl

/-- So is a call. -/
theorem call_cases (s : BusWorkers) (c : BusCall) : s.call c = s ∨ Transition s (s.call c) := by
  cases c with
  | start n =>
    simp only [call]
    split
    · next hidle =>
      split
      · next hrunning => exact .inr (.startAgain hrunning)
      · exact .inr (.start hidle.2)
    · exact .inl rfl
  | stop =>
    simp only [call]
    split
    · next hidle =>
      split
      · next hrunning => exact .inr (.stop hrunning)
      · next hrunning => exact .inr (.stopAgain (by simpa using hrunning) hidle.2)
    · exact .inl rfl
  | publish =>
    simp only [call]
    split
    · exact .inr .publish
    · exact .inl rfl

/-- Every step changes nothing or is one of the transitions. -/
theorem step_cases (s : BusWorkers) (l : BusStep) : s.step l = s ∨ Transition s (s.step l) := by
  cases l with
  | call c => exact s.call_cases c
  | spawn =>
    simp only [step]
    split
    · exact .inl rfl
    · exact .inr .spawn
  | setStop =>
    simp only [step]
    split
    · next h => exact .inr (.setStop h)
    · exact .inl rfl
  | notifyAll =>
    simp only [step]
    split
    · next h => exact .inr (.notifyAll h)
    · exact .inl rfl
  | requestStop =>
    simp only [step]
    split
    · next h =>
      split
      · next hi => exact .inr (.request h hi)
      · exact .inr (.clear h)
    · exact .inl rfl
  | join =>
    simp only [step]
    split
    · next h =>
      split
      · split
        · exact .inr (.join h)
        · exact .inl rfl
      · exact .inl rfl
    · exact .inl rfl
  | worker i =>
    simp only [step]
    split
    · next hi => exact s.workerStep_cases hi
    · exact .inl rfl
  | notifyOne task i =>
    simp only [step]
    split
    · split
      · split
        · next hi =>
          split
          · next hphase => exact .inr (.notifyOne hi hphase)
          · exact .inl rfl
        · exact .inl rfl
      · exact .inr .notifyNone
    · exact .inl rfl
  | wake i =>
    simp only [step]
    split
    · next w hi =>
      split
      · next hphase => exact .inr (.move hi (hphase ▸ .wake))
      · exact .inl rfl
    · exact .inl rfl

/-- A property that every transition keeps holds at the end of a run. -/
theorem run_induction {I : BusWorkers → Prop} {s : BusWorkers} (hs : I s)
    (hstep : ∀ s s', I s → Transition s s' → I s') (steps : List BusStep) : I (s.run steps) :=
  Lib.foldl_of_transitions step_cases hs hstep steps

/-! ### Until the inbox is closed, no worker returns -/

variable {s s' : BusWorkers}

/-- A stopped inbox is never reopened, at most one worker holds its lock, and while it is
open no worker is told to stop, finds the queue empty behind the wait or returns. -/
structure Guarded (s : BusWorkers) : Prop where
  mutex : s.workers.countP BusWorker.holdsLock ≤ 1
  closing : s.stopping ≠ .idle → s.stopping ≠ .called → s.closed = true
  unclosed : s.closed = false → ∀ w ∈ s.workers,
    w.phase ≠ .returned ∧ w.stopRequested = false ∧ (w.phase = .taking → s.queue ≠ [])

/-- An empty bus is guarded. -/
theorem guarded_empty : Guarded {} := ⟨by decide, by decide, by simp⟩

/-- Once the inbox is closed only the lock remains to be guarded. -/
theorem Guarded.of_closed (hmutex : s.workers.countP BusWorker.holdsLock ≤ 1)
    (hclosed : s.closed = true) : s.Guarded :=
  ⟨hmutex, fun _ _ => hclosed, fun hopen => by simp [hclosed] at hopen⟩

/-- While the lock is free, no worker holds it. -/
theorem countP_eq_zero_of_lockFree (h : s.lockFree = true) :
    s.workers.countP BusWorker.holdsLock = 0 := by
  refine List.countP_eq_zero.mpr fun w hw => ?_
  simpa using List.all_eq_true.mp h w hw

/-- A worker takes the lock when it is free. -/
theorem Edge.holdsLock {b : Bool} {p q : BusPhase} (h : Edge s b p q) (hq : q.holdsLock = true) :
    p.holdsLock = true ∨ s.lockFree = true := by
  cases h with
  | lock hfree => exact .inr hfree
  | relock hfree => exact .inr hfree
  | pass => exact .inl rfl
  | wait => exact .inl rfl
  | _ => cases hq

/-- A worker that moves on keeps the bus guarded. -/
theorem Guarded.move (h : s.Guarded) {i : ℕ} {w : BusWorker} {q : BusPhase}
    (hi : s.workers[i]? = some w) (hedge : Edge s w.stopRequested w.phase q) :
    (s.move i w q).Guarded := by
  have hcount : (s.move i w q).workers.countP BusWorker.holdsLock + w.phase.holdsLock.toNat =
      s.workers.countP BusWorker.holdsLock + q.holdsLock.toNat :=
    Lib.countP_set_add BusWorker.holdsLock hi { w with phase := q }
  have hmutex := h.mutex
  refine ⟨?_, h.closing, fun hopen w' hw' => ?_⟩
  · cases hq : q.holdsLock with
    | false =>
      rw [hq, Bool.toNat_false] at hcount
      omega
    | true =>
      rcases hedge.holdsLock hq with hp | hfree
      · rw [hq, hp] at hcount
        omega
      · rw [countP_eq_zero_of_lockFree hfree, hq, Bool.toNat_true] at hcount
        omega
  · rcases List.mem_or_eq_of_mem_set hw' with hw' | rfl
    · exact h.unclosed hopen w' hw'
    · obtain ⟨hreturned, hstop, htaking⟩ := h.unclosed hopen w (List.mem_of_getElem? hi)
      refine ⟨?_, hstop, ?_⟩
      · -- a worker returns when its stop is requested or the queue is empty behind the wait
        rintro rfl
        generalize w.phase = phase at *
        cases hedge with
        | leave hrequested => simp [hstop] at hrequested
        | drained hqueue => exact htaking rfl hqueue
      · rintro rfl
        generalize w.phase = phase at *
        cases hedge with
        | pass htest => exact htest.resolve_right (by simp [show s.closed = false from hopen])

/-- So does a worker that takes a task. -/
theorem Guarded.take (h : s.Guarded) {i : ℕ} {w : BusWorker} {task : ℕ} {queue : List ℕ}
    (hi : s.workers[i]? = some w)
    (hphase : w.phase = .taking ∨ w.phase = .trying ∧ s.lockFree = true) :
    Guarded { s.move i w (.running task) with queue } := by
  -- the worker held the lock or nobody did, so nobody holds it afterwards
  have hnone : (s.workers.set i { w with phase := .running task }).countP
      BusWorker.holdsLock = 0 := by
    have hcount : (s.workers.set i { w with phase := .running task }).countP BusWorker.holdsLock +
        w.phase.holdsLock.toNat = s.workers.countP BusWorker.holdsLock :=
      Lib.countP_set_add BusWorker.holdsLock hi { w with phase := .running task }
    have hmutex := h.mutex
    rcases hphase with hphase | ⟨hphase, hfree⟩
    · have hlock : w.phase.holdsLock = true := by rw [hphase]; rfl
      rw [hlock, Bool.toNat_true] at hcount
      omega
    · have hfree := countP_eq_zero_of_lockFree hfree
      omega
  refine ⟨hnone.trans_le (Nat.zero_le 1), h.closing, fun hopen w' hw' => ?_⟩
  have hunlocked := List.countP_eq_zero.mp hnone w' hw'
  refine ⟨?_, ?_, fun htaking => absurd ?_ hunlocked⟩
  · rcases List.mem_or_eq_of_mem_set hw' with hw' | rfl
    · exact (h.unclosed hopen w' hw').1
    · simp
  · rcases List.mem_or_eq_of_mem_set hw' with hw' | rfl
    · exact (h.unclosed hopen w' hw').2.1
    · exact (h.unclosed hopen w (List.mem_of_getElem? hi)).2.1
  · rw [BusWorker.holdsLock, htaking]
    rfl

/-- Waking a worker does not give it the lock. -/
theorem holdsLock_wakeWorker (w : BusWorker) : (wakeWorker w).holdsLock = w.holdsLock := by
  unfold wakeWorker
  split
  · next hparked =>
    rw [BusWorker.holdsLock, BusWorker.holdsLock, hparked]
    rfl
  · rfl

/-- Every transition keeps the bus guarded. -/
theorem Guarded.transition (h : s.Guarded) (htrans : Transition s s') : s'.Guarded := by
  cases htrans with
  | move hi hedge => exact h.move hi hedge
  | take hi hphase hqueue => exact h.take hi hphase
  | startAgain => exact ⟨h.mutex, h.closing, h.unclosed⟩
  | start => exact ⟨h.mutex, h.closing, h.unclosed⟩
  | stopAgain => exact ⟨h.mutex, h.closing, h.unclosed⟩
  | stop => exact ⟨h.mutex, by simp, h.unclosed⟩
  | publish =>
    refine ⟨h.mutex, h.closing, fun hopen w hw => ?_⟩
    obtain ⟨hreturned, hstop, -⟩ := h.unclosed hopen w hw
    exact ⟨hreturned, hstop, by simp⟩
  | spawn =>
    refine ⟨?_, h.closing, fun hopen w hw => ?_⟩
    · rw [List.countP_append]
      exact h.mutex
    · rcases List.mem_append.mp hw with hw | hw
      · exact h.unclosed hopen w hw
      · rw [List.mem_singleton.mp hw]
        simp [BusWorker.created]
  | setStop => exact .of_closed h.mutex rfl
  | notifyAll hstopping =>
    refine .of_closed ?_ (h.closing (by simp [hstopping]) (by simp [hstopping]))
    rw [List.countP_map]
    refine (List.countP_congr fun w _ => ?_).trans_le h.mutex
    simp [holdsLock_wakeWorker]
  | @request next w hstopping hi =>
    have hcount : (s.workers.set next { w with stopRequested := true }).countP
        BusWorker.holdsLock = s.workers.countP BusWorker.holdsLock :=
      Nat.add_right_cancel (Lib.countP_set_add BusWorker.holdsLock hi
        { w with stopRequested := true })
    exact .of_closed (hcount.trans_le h.mutex)
      (h.closing (by simp [hstopping]) (by simp [hstopping]))
  | clear hstopping =>
    exact .of_closed (by simp) (h.closing (by simp [hstopping]) (by simp [hstopping]))
  | join hstopping =>
    exact .of_closed h.mutex (h.closing (by simp [hstopping]) (by simp [hstopping]))
  | notifyNone => exact ⟨h.mutex, h.closing, h.unclosed⟩
  | @notifyOne i w publishing hi hphase =>
    have hmoved := h.move hi (hphase ▸ Edge.wake)
    exact ⟨hmoved.mutex, hmoved.closing, hmoved.unclosed⟩

/-! ### What the calls have done -/

/-- The bus is started, stopped and started again in this sequence of calls. -/
def Restarts (calls : List BusCall) : Prop :=
  ∃ n m, [BusCall.start n, .stop, .start m].Sublist calls

/-- The latches tell which calls have been made: a running bus was started, a closed inbox
was started and stopped, and a running bus with a closed inbox was restarted. -/
structure Recorded (s : BusWorkers) : Prop where
  idle : s.running = true → s.stopping = .idle
  started : s.running = true → ∃ n, [BusCall.start n].Sublist s.calls
  stopped : s.closed = true ∨ s.stopping ≠ .idle → ∃ n, [BusCall.start n, .stop].Sublist s.calls
  restarted : s.running = true → s.closed = true → Restarts s.calls

/-- An empty bus is recorded. -/
theorem recorded_empty : Recorded {} := ⟨by simp, by simp, by simp, by simp⟩

/-- What the calls show is shown by more calls. -/
theorem Recorded.append (h : s.Recorded) (more : List BusCall) :
    Recorded { s with calls := s.calls ++ more } := by
  have hmore := List.sublist_append_left s.calls more
  refine ⟨h.idle, fun hrunning => ?_, fun hstopped => ?_, fun hrunning hclosed => ?_⟩
  · obtain ⟨n, hn⟩ := h.started hrunning
    exact ⟨n, hn.trans hmore⟩
  · obtain ⟨n, hn⟩ := h.stopped hstopped
    exact ⟨n, hn.trans hmore⟩
  · obtain ⟨n, m, hnm⟩ := h.restarted hrunning hclosed
    exact ⟨n, m, hnm.trans hmore⟩

/-- Every transition keeps the record. -/
theorem Recorded.transition (h : s.Recorded) (hguarded : s.Guarded) (htrans : Transition s s') :
    s'.Recorded := by
  cases htrans with
  | startAgain => exact h.append _
  | @start n hidle =>
    have hstopped := (h.append [.start n]).stopped
    refine ⟨fun _ => hidle, fun _ => ⟨n, List.sublist_append_right _ _⟩, hstopped,
      fun _ hclosed => ?_⟩
    obtain ⟨k, hk⟩ := h.stopped (.inl hclosed)
    exact ⟨k, n, hk.append (List.Sublist.refl [BusCall.start n])⟩
  | stopAgain => exact h.append _
  | stop hrunning =>
    obtain ⟨n, hn⟩ := h.started hrunning
    exact ⟨by simp, by simp, fun _ => ⟨n, hn.append (List.Sublist.refl [BusCall.stop])⟩, by simp⟩
  | publish =>
    have happend := h.append [.publish]
    exact ⟨happend.idle, happend.started, happend.stopped, happend.restarted⟩
  | setStop hstopping =>
    have hrunning : s.running = false := by
      cases hrunning : s.running with
      | false => rfl
      | true => simp [h.idle hrunning] at hstopping
    have hstopped := h.stopped (.inr (by simp [hstopping]))
    exact ⟨by simp [hrunning], by simp [hrunning], fun _ => hstopped, by simp [hrunning]⟩
  | notifyAll hstopping =>
    have hclosed := hguarded.closing (by simp [hstopping]) (by simp [hstopping])
    refine ⟨fun hrunning => ?_, h.started, fun _ => h.stopped (.inl hclosed), h.restarted⟩
    simp [h.idle hrunning] at hstopping
  | request hstopping =>
    have hclosed := hguarded.closing (by simp [hstopping]) (by simp [hstopping])
    refine ⟨fun hrunning => ?_, h.started, fun _ => h.stopped (.inl hclosed), h.restarted⟩
    simp [h.idle hrunning] at hstopping
  | clear hstopping =>
    have hclosed := hguarded.closing (by simp [hstopping]) (by simp [hstopping])
    exact ⟨fun _ => rfl, h.started, fun _ => h.stopped (.inl hclosed), h.restarted⟩
  | join hstopping =>
    have hclosed := hguarded.closing (by simp [hstopping]) (by simp [hstopping])
    refine ⟨fun hrunning => ?_, h.started, fun _ => h.stopped (.inl hclosed), h.restarted⟩
    simp [h.idle hrunning] at hstopping
  | move => exact ⟨h.idle, h.started, h.stopped, h.restarted⟩
  | take => exact ⟨h.idle, h.started, h.stopped, h.restarted⟩
  | spawn => exact ⟨h.idle, h.started, h.stopped, h.restarted⟩
  | notifyNone => exact ⟨h.idle, h.started, h.stopped, h.restarted⟩
  | notifyOne => exact ⟨h.idle, h.started, h.stopped, h.restarted⟩

/-- Every run keeps both. -/
theorem guarded_recorded_run (steps : List BusStep) :
    (run {} steps).Guarded ∧ (run {} steps).Recorded :=
  run_induction (I := fun s => s.Guarded ∧ s.Recorded) ⟨guarded_empty, recorded_empty⟩
    (fun _ _ h htrans => ⟨h.1.transition htrans, h.2.transition h.1 htrans⟩) steps

/-- While the bus runs and no `stop_workers` is in progress, its workers are in their
loops. -/
def Healthy (s : BusWorkers) : Prop :=
  s.running = true → s.stopping = .idle → ∀ w ∈ s.workers, w.phase ≠ .returned

/-- Without a restart the workers stay in their loops. -/
theorem healthy_of_not_restarts {steps : List BusStep} (h : ¬ Restarts (run {} steps).calls) :
    (run {} steps).Healthy := by
  obtain ⟨hguarded, hrecorded⟩ := guarded_recorded_run steps
  intro hrunning _ w hw
  cases hclosed : (run {} steps).closed with
  | false => exact (hguarded.unclosed hclosed w hw).1
  | true => exact absurd (hrecorded.restarted hrunning hclosed) h

/-! ### Schedules -/

/-- The creation of the remaining workers. -/
theorem run_spawns (k : ℕ) (hk : s.spawning = k) :
    s.run (List.replicate k .spawn) =
      { s with workers := s.workers ++ List.replicate k .created, spawning := 0 } := by
  induction k generalizing s with
  | zero => rw [List.replicate_zero, List.replicate_zero, List.append_nil, run_nil, ← hk]
  | succ k ih =>
    have hstep : s.step .spawn = { s with workers := s.workers ++ [.created], spawning := k } := by
      simp [step, hk]
    rw [List.replicate_succ, run_cons, hstep, ih rfl]
    simp [List.replicate_succ]

/-- The deletion of the workers from an index on, when none of them has left its loop
condition. -/
def deletions (next : ℕ) : ℕ → List BusStep
  | 0 => [.requestStop]
  | k + 1 => .requestStop :: .worker next :: .join :: deletions (next + 1) k

/-- Deleting workers that have not begun leaves none of them. -/
theorem run_deletions (k : ℕ) (deleted : List BusWorker)
    (hworkers : s.workers = deleted ++ List.replicate k .created)
    (hstopping : s.stopping = .deleting deleted.length false) :
    s.run (deletions deleted.length k) = { s with workers := [], stopping := .idle } := by
  induction k generalizing s deleted with
  | zero => simp [deletions, step, hstopping, hworkers]
  | succ k ih =>
    have hrequest : s.step .requestStop = { s with
        workers := deleted ++ ⟨.loopTest, true⟩ :: List.replicate k .created
        stopping := .deleting deleted.length true } := by
      simp [step, hstopping, hworkers, List.replicate_succ, BusWorker.created]
    have hleave : (s.step .requestStop).step (.worker deleted.length) = { s with
        workers := deleted ++ ⟨.returned, true⟩ :: List.replicate k .created
        stopping := .deleting deleted.length true } := by
      rw [hrequest]
      simp [step, workerStep, move]
    have hjoin : ((s.step .requestStop).step (.worker deleted.length)).step .join = { s with
        workers := deleted ++ [⟨.returned, true⟩] ++ List.replicate k .created
        stopping := .deleting (deleted.length + 1) false } := by
      rw [hleave]
      simp [step]
    rw [deletions, run_cons, run_cons, run_cons, hjoin]
    have hrest := @ih { s with
      workers := deleted ++ [⟨.returned, true⟩] ++ List.replicate k .created
      stopping := .deleting (deleted.length + 1) false } (deleted ++ [⟨.returned, true⟩]) rfl
      (by simp)
    rwa [List.length_append, List.length_singleton] at hrest

/-- Between calls: no call is in progress and no worker has taken a step. -/
structure Calm (s : BusWorkers) : Prop where
  spawning : s.spawning = 0
  stopping : s.stopping = .idle
  fresh : ∃ k, s.workers = List.replicate k .created ∧ (s.running = true → 1 ≤ k) ∧
    (s.running = false → k = 0)
  started : ∀ n, .start n ∈ s.calls → s.running = true ∨ s.closed = true
  stopped : ∀ n, [BusCall.start n, .stop].Sublist s.calls → s.closed = true

/-- An empty bus is calm. -/
theorem calm_empty : Calm {} :=
  ⟨rfl, rfl, ⟨0, rfl, by simp, by simp⟩, by simp, by simp⟩

/-- A stop after a start is not ended by another call. -/
theorem stopped_of_append {calls : List BusCall} {n : ℕ} {c : BusCall} (hc : c ≠ .stop)
    (h : [BusCall.start n, .stop].Sublist (calls ++ [c])) :
    [BusCall.start n, .stop].Sublist calls := by
  obtain ⟨l₁, l₂, heq, hl₁, hl₂⟩ := List.sublist_append_iff.mp h
  rcases List.sublist_singleton.mp hl₂ with rfl | rfl
  · rwa [heq, List.append_nil]
  · have hlast := congrArg List.getLast? heq
    simp only [List.getLast?_append, List.getLast?_singleton] at hlast
    exact absurd (Option.some.inj hlast).symm hc

/-- A start before another call was there without it. -/
theorem start_mem_of_append {calls : List BusCall} {n : ℕ} {c : BusCall} (hc : c ≠ .start n)
    (h : .start n ∈ calls ++ [c]) : .start n ∈ calls := by
  rcases List.mem_append.mp h with hmem | hmem
  · exact hmem
  · exact absurd (List.mem_singleton.mp hmem).symm hc

/-- A calm bus is calm after publishing. -/
theorem Calm.publish (h : s.Calm) :
    (s.run [.call .publish]).Calm ∧ (s.run [.call .publish]).calls = s.calls ++ [.publish] := by
  obtain ⟨k, hworkers, -⟩ := h.fresh
  have hfree : s.lockFree = true := by
    rw [lockFree, hworkers]
    exact List.all_eq_true.mpr fun w hw => by rw [List.eq_of_mem_replicate hw]; rfl
  rw [run_cons, run_nil, step, call, if_pos hfree]
  exact ⟨⟨h.spawning, h.stopping, h.fresh,
    fun n hn => h.started n (start_mem_of_append (by simp) hn),
    fun n hn => h.stopped n (stopped_of_append (by simp) hn)⟩, rfl⟩

/-- A `start_workers` on a stopped bus creates its workers. -/
theorem Calm.start (h : s.Calm) (hrunning : s.running = false) {n : ℕ} (hn : 1 ≤ n) :
    (s.run (.call (.start n) :: List.replicate n .spawn)).Calm ∧
      (s.run (.call (.start n) :: List.replicate n .spawn)).calls = s.calls ++ [.start n] ∧
      (s.run (.call (.start n) :: List.replicate n .spawn)).running = true := by
  obtain ⟨k, hworkers, -, hend⟩ := h.fresh
  have hcall : s.step (.call (.start n)) =
      { s with running := true, spawning := n, calls := s.calls ++ [.start n] } := by
    simp [step, call, h.spawning, h.stopping, hrunning]
  rw [run_cons, hcall, run_spawns n rfl]
  refine ⟨⟨rfl, h.stopping, ⟨n, ?_, fun _ => hn, by simp⟩, fun _ _ => .inl rfl,
    fun m hm => h.stopped m (stopped_of_append (by simp) hm)⟩, rfl, rfl⟩
  simp [hworkers, hend hrunning]

/-- A `stop_workers` on a running bus deletes its workers, which leave their loops at the loop
condition. -/
theorem Calm.stop (h : s.Calm) (hrunning : s.running = true) :
    ∃ steps, (s.run steps).Calm ∧ (s.run steps).calls = s.calls ++ [.stop] := by
  obtain ⟨k, hworkers, -⟩ := h.fresh
  have hwake : s.workers.map wakeWorker = s.workers := by
    rw [hworkers, List.map_replicate]
    rfl
  have hclose : ((s.step (.call .stop)).step .setStop).step .notifyAll = { s with
      running := false
      closed := true
      announced := true
      stopping := .deleting 0 false
      calls := s.calls ++ [.stop] } := by
    simp [step, call, h.spawning, h.stopping, hrunning, hwake]
  have hdelete := @run_deletions (((s.step (.call .stop)).step .setStop).step .notifyAll) k []
    (by rw [hclose, hworkers]; rfl) (by rw [hclose]; rfl)
  rw [List.length_nil] at hdelete
  refine ⟨.call .stop :: .setStop :: .notifyAll :: deletions 0 k, ?_⟩
  rw [run_cons, run_cons, run_cons, hdelete, hclose]
  exact ⟨⟨h.spawning, rfl, ⟨0, rfl, by simp, by simp⟩, fun _ _ => .inr rfl, fun _ _ => rfl⟩, rfl⟩

/-- Every call can be carried out from a calm state, and the bus is calm again. -/
theorem Calm.exists_run (h : s.Calm) (c : BusCall) (hc : ∀ n, c = .start n → 1 ≤ n) :
    ∃ steps, (s.run steps).Calm ∧ (s.run steps).calls = s.calls ++ [c] ∧
      (∀ n, c = .start n → (s.run steps).running = true) := by
  cases c with
  | publish => exact ⟨_, h.publish.1, h.publish.2, by simp⟩
  | start n =>
    cases hrunning : s.running with
    | false =>
      obtain ⟨hcalm, hcalls, hstarted⟩ := h.start hrunning (hc n rfl)
      exact ⟨_, hcalm, hcalls, fun _ _ => hstarted⟩
    | true =>
      have hcall : s.run [.call (.start n)] = { s with calls := s.calls ++ [.start n] } := by
        simp [step, call, h.spawning, h.stopping, hrunning]
      refine ⟨[.call (.start n)], ?_⟩
      rw [hcall]
      exact ⟨⟨h.spawning, h.stopping, h.fresh, fun _ _ => .inl hrunning,
        fun m hm => h.stopped m (stopped_of_append (by simp) hm)⟩, rfl, fun _ _ => hrunning⟩
  | stop =>
    cases hrunning : s.running with
    | true =>
      obtain ⟨steps, hcalm, hcalls⟩ := h.stop hrunning
      exact ⟨steps, hcalm, hcalls, by simp⟩
    | false =>
      have hcall : s.run [.call .stop] = { s with calls := s.calls ++ [.stop] } := by
        simp [step, call, h.spawning, h.stopping, hrunning]
      have hclosed : ∀ n, .start n ∈ s.calls → s.closed = true := fun n hn =>
        (h.started n hn).resolve_left (by simp [hrunning])
      refine ⟨[.call .stop], ?_⟩
      rw [hcall]
      refine ⟨⟨h.spawning, h.stopping, h.fresh, fun n hn => ?_, fun n hn => ?_⟩, rfl, by simp⟩
      · exact h.started n (start_mem_of_append (by simp) hn)
      · exact hclosed n (start_mem_of_append (by simp) (hn.subset List.mem_cons_self))

/-- Every sequence of calls can be carried out so that the bus is calm at its end. -/
theorem exists_calm_run (calls : List BusCall) (hcalls : ∀ n, .start n ∈ calls → 1 ≤ n) :
    ∃ steps, (run {} steps).Calm ∧ (run {} steps).calls = calls := by
  induction calls using List.reverseRecOn with
  | nil => exact ⟨[], calm_empty, rfl⟩
  | append_singleton calls c ih =>
    obtain ⟨steps, hcalm, heq⟩ := ih fun n hn => hcalls n (List.mem_append_left _ hn)
    obtain ⟨more, hcalm', heq', -⟩ := hcalm.exists_run c fun n hn => hcalls n (by simp [hn])
    refine ⟨steps ++ more, ?_⟩
    rw [run_append]
    exact ⟨hcalm', by rw [heq', heq]⟩

/-- The bus with its first worker in a phase and a queue. -/
def firstAt (s : BusWorkers) (rest : List BusWorker) (phase : BusPhase) (queue : List ℕ) :
    BusWorkers :=
  { s with workers := ⟨phase, false⟩ :: rest, queue }

/-- The first worker takes its step. -/
theorem step_firstAt (s : BusWorkers) (rest : List BusWorker) (phase : BusPhase)
    (queue : List ℕ) : (s.firstAt rest phase queue).step (.worker 0) =
      (s.firstAt rest phase queue).workerStep 0 ⟨phase, false⟩ :=
  rfl

/-- With its inbox closed, a worker that is alone at work takes the queued tasks and then
returns. -/
theorem exists_return {rest : List BusWorker} (hrest : ∀ w ∈ rest, w.holdsLock = false)
    (hclosed : s.closed = true) (queue : List ℕ) :
    ∃ steps, (s.firstAt rest .loopTest queue).run steps = s.firstAt rest .returned [] := by
  have hfree : ∀ phase queue, phase.holdsLock = false →
      (s.firstAt rest phase queue).lockFree = true := by
    intro phase queue hphase
    refine List.all_eq_true.mpr fun w hw => ?_
    rcases List.mem_cons.mp hw with rfl | hw
    · simp [BusWorker.holdsLock, hphase]
    · simp [hrest w hw]
  have henter : ∀ queue, (s.firstAt rest .loopTest queue).step (.worker 0) =
      s.firstAt rest .trying queue := fun _ => rfl
  have htrying := fun queue => hfree .trying queue rfl
  induction queue with
  | nil =>
    have hmiss : (s.firstAt rest .trying []).step (.worker 0) = s.firstAt rest .locking [] := by
      simp only [step_firstAt, workerStep, htrying, if_true]
      rfl
    have hlock : (s.firstAt rest .locking []).step (.worker 0) = s.firstAt rest .testing [] := by
      simp only [step_firstAt, workerStep, hfree .locking [] rfl, if_true]
      rfl
    have hpass : (s.firstAt rest .testing []).step (.worker 0) = s.firstAt rest .taking [] := by
      simp [step, workerStep, firstAt, move, hclosed]
    refine ⟨List.replicate 5 (.worker 0), ?_⟩
    simp only [List.replicate, run_cons, run_nil, henter, hmiss, hlock, hpass]
    rfl
  | cons task queue ih =>
    have htake : (s.firstAt rest .trying (task :: queue)).step (.worker 0) =
        s.firstAt rest (.running task) queue := by
      simp only [step_firstAt, workerStep, htrying, if_true]
      rfl
    have hfinish : (s.firstAt rest (.running task) queue).step (.worker 0) =
        s.firstAt rest .loopTest queue := rfl
    obtain ⟨steps, hsteps⟩ := ih
    refine ⟨.worker 0 :: .worker 0 :: .worker 0 :: steps, ?_⟩
    rw [run_cons, run_cons, run_cons, henter, htake, hfinish, hsteps]

/-- A calm bus that runs with a closed inbox loses a worker. -/
theorem Calm.exists_unhealthy (h : s.Calm) (hrunning : s.running = true)
    (hclosed : s.closed = true) :
    ∃ steps, (s.run steps).calls = s.calls ∧ ¬ (s.run steps).Healthy := by
  obtain ⟨k, hworkers, hpos, -⟩ := h.fresh
  obtain ⟨k, rfl⟩ := Nat.exists_eq_add_of_le' (hpos hrunning)
  have hfirst : s = s.firstAt (List.replicate k .created) .loopTest s.queue := by
    rw [firstAt]
    change s = { s with workers := .created :: List.replicate k .created }
    rw [← List.replicate_succ, ← hworkers]
  obtain ⟨steps, hsteps⟩ := @exists_return s (List.replicate k .created)
    (fun w hw => by rw [List.eq_of_mem_replicate hw]; rfl) hclosed s.queue
  rw [← hfirst] at hsteps
  refine ⟨steps, by rw [hsteps]; rfl, fun hhealthy => ?_⟩
  rw [hsteps] at hhealthy
  exact hhealthy hrunning h.stopping ⟨.returned, false⟩ List.mem_cons_self rfl

/-- For every sequence of calls whose starts create at least one worker: in all interleavings
of the calls made so far with the worker loops, a running bus has all its workers in their
loops, exactly when the bus is not started again after it was started and stopped. -/
theorem workers_live_iff (calls : List BusCall) (hcalls : ∀ n, .start n ∈ calls → 1 ≤ n) :
    (∀ steps, (run {} steps).calls <+: calls → (run {} steps).Healthy) ↔ ¬ Restarts calls := by
  constructor
  · rintro hhealthy ⟨n, m, hnm⟩
    -- carry out the calls up to the second start and let one worker run
    have hnm' : ([BusCall.start n, .stop] ++ [BusCall.start m]).Sublist calls := hnm
    obtain ⟨before, after, rfl, hbefore, hafter⟩ := List.append_sublist_iff.mp hnm'
    obtain ⟨mid, post, rfl⟩ := List.append_of_mem (List.singleton_sublist.mp hafter)
    obtain ⟨steps, hcalm, heq⟩ := exists_calm_run (before ++ mid)
      fun k hk => hcalls k (by rw [← List.append_assoc]; exact List.mem_append_left _ hk)
    obtain ⟨start, hcalm', heq', hrunning⟩ := hcalm.exists_run (.start m)
      fun k hk => hcalls k (by simp [hk])
    rw [← run_append] at hcalm' heq' hrunning
    have hclosed := hcalm'.stopped n (by
      rw [heq', heq, List.append_assoc]
      exact hbefore.trans (List.sublist_append_left _ _))
    obtain ⟨more, hmore, hbad⟩ := hcalm'.exists_unhealthy (hrunning m rfl) hclosed
    rw [← run_append] at hmore hbad
    refine hbad (hhealthy _ ⟨post, ?_⟩)
    rw [hmore, heq', heq]
    simp
  · rintro hnone steps ⟨more, rfl⟩
    refine healthy_of_not_restarts fun ⟨n, m, hnm⟩ => hnone ⟨n, m, ?_⟩
    exact hnm.trans (List.sublist_append_left _ _)

/-- A bus that is started once and stopped keeps its workers until the stop. -/
theorem workers_live_once :
    (∀ n, .start n ∈ [BusCall.start 2, .publish, .stop] → 1 ≤ n) ∧
      ∀ steps, (run {} steps).calls <+: [.start 2, .publish, .stop] → (run {} steps).Healthy := by
  have hcalls : ∀ n, .start n ∈ [BusCall.start 2, .publish, .stop] → 1 ≤ n := by simp
  refine ⟨hcalls, (workers_live_iff _ hcalls).mpr ?_⟩
  rintro ⟨n, m, hnm⟩
  have heq := hnm.eq_of_length rfl
  simp at heq

/-- A bus with one worker is started, stopped and started again; the new worker runs. -/
def restartRun : List BusStep :=
  [.call (.start 1), .spawn, .call .stop, .setStop, .notifyAll, .requestStop, .worker 0, .join,
    .requestStop, .call (.start 1), .spawn, .worker 0, .worker 0, .worker 0, .worker 0, .worker 0]

/-- The new worker finds the inbox closed and returns, while the bus is running. -/
theorem restartRun_not_healthy :
    (run {} restartRun).calls = [.start 1, .stop, .start 1] ∧
      (run {} restartRun).workers = [⟨.returned, false⟩] ∧ ¬ (run {} restartRun).Healthy := by
  have hworkers : (run {} restartRun).workers = [⟨.returned, false⟩] := by decide
  refine ⟨by decide, hworkers, fun hhealthy => ?_⟩
  exact hhealthy (by decide) (by decide) ⟨.returned, false⟩ (by rw [hworkers]; simp) rfl

end BusWorkers

end TtsServer
