import TtsServer.Lib.Threads
import Mathlib.Data.List.Range
import Mathlib.Data.List.Nodup

/-!
# The thread pool

The workers of `ThreadPool` take tasks from a queue under a lock and wait on a condition
variable when it is empty. `shutdown` raises a flag, notifies all waiting workers and joins
them. The steps here are the accesses to shared state: a worker's test of the flag in its
loop condition, taking the lock, the test of the wait predicate, parking, waking, and taking
a task; for a `submit` the push and the notification; for `shutdown` the flag, the
notification and one join per worker. Any interleaving of them is a run.

Tasks are numbered by their pushes. The stop tokens of the threads are never requested
while the pool lives, so the loop condition is the flag alone.
-/

namespace TtsServer

/-- Where a worker is in `worker_loop`. -/
inductive PoolPhase where
  /-- At the loop condition. -/
  | loopTest
  /-- About to take the lock. -/
  | locking
  /-- With the lock, about to test the predicate of the wait. -/
  | testing
  /-- With the lock, the predicate found false. -/
  | parking
  /-- Waiting for a notification. -/
  | parked
  /-- Notified, about to take the lock again. -/
  | woken
  /-- With the lock, behind the wait. -/
  | taking
  /-- Running a task. -/
  | running (task : ℕ)
  /-- Behind the loop. -/
  | returned
  deriving DecidableEq, Repr

namespace PoolPhase

/-- The worker holds the lock of the queue. -/
def holdsLock : PoolPhase → Bool
  | testing | parking | taking => true
  | _ => false

/-- The task that the worker is running. -/
def task? : PoolPhase → Option ℕ
  | running task => some task
  | _ => none

/-- The worker has passed the loop condition and has not taken a task yet. -/
def committed : PoolPhase → Bool
  | loopTest | running _ | returned => false
  | _ => true

end PoolPhase

/-- Where a call of `shutdown` is. -/
inductive ShutdownPhase where
  | idle
  /-- Called, the flag not exchanged yet. -/
  | called
  /-- The flag is raised, the notification is due. -/
  | flagged
  /-- All workers were notified; the worker with this index is joined next. -/
  | joining (next : ℕ)
  | returned
  deriving DecidableEq, Repr

/-- `ThreadPool`, with the calls in progress and what has been executed. -/
structure ThreadPool where
  workers : List PoolPhase
  queue : List ℕ := []
  /-- The number of tasks pushed so far. -/
  submitted : ℕ := 0
  /-- The tasks whose `submit` has pushed and not notified yet. -/
  submitting : List ℕ := []
  stop : Bool := false
  shutdown : ShutdownPhase := .idle
  executed : List ℕ := []
  /-- The tasks whose `submit` had returned when `shutdown` was called. -/
  required : List ℕ := []
  deriving DecidableEq, Repr

/-- A step of the pool. -/
inductive PoolStep where
  /-- The worker with this index takes its next step. -/
  | worker (i : ℕ)
  /-- A `submit` pushes its task. -/
  | submit
  /-- The `submit` of a task notifies one waiting worker and returns. -/
  | notifyOne (task i : ℕ)
  /-- A waiting worker wakes by itself. -/
  | wake (i : ℕ)
  | callShutdown
  | setStop
  | notifyAll
  | join
  deriving DecidableEq, Repr

namespace ThreadPool

/-- The constructor: at least one worker. -/
def start (nThreads : ℕ) : ThreadPool :=
  { workers := List.replicate (if nThreads = 0 then 1 else nThreads) .loopTest }

/-- No worker holds the lock. -/
def lockFree (s : ThreadPool) : Bool := s.workers.all (!·.holdsLock)

/-- The worker moves to another phase. -/
def move (s : ThreadPool) (i : ℕ) (phase : PoolPhase) : ThreadPool :=
  { s with workers := s.workers.set i phase }

/-- The step of a worker in `worker_loop`. -/
def workerStep (s : ThreadPool) (i : ℕ) : PoolPhase → ThreadPool
  | .loopTest => s.move i (if s.stop then .returned else .locking)
  | .locking => if s.lockFree then s.move i .testing else s
  | .testing => s.move i (if s.stop || !s.queue.isEmpty then .taking else .parking)
  | .parking => s.move i .parked
  | .parked => s
  | .woken => if s.lockFree then s.move i .testing else s
  | .taking =>
    if s.stop && s.queue.isEmpty then s.move i .returned
    else
      match s.queue with
      | [] => s.move i .loopTest
      | task :: queue => { s.move i (.running task) with queue }
  | .running task => { s.move i .loopTest with executed := s.executed ++ [task] }
  | .returned => s

/-- A parked worker is woken. -/
def wakePhase : PoolPhase → PoolPhase
  | .parked => .woken
  | phase => phase

/-- One step; a step that is not possible changes nothing. -/
def step (s : ThreadPool) : PoolStep → ThreadPool
  | .worker i =>
    match s.workers[i]? with
    | some phase => s.workerStep i phase
    | none => s
  | .submit =>
    if s.lockFree then
      { s with
        queue := s.queue ++ [s.submitted]
        submitted := s.submitted + 1
        submitting := s.submitting ++ [s.submitted] }
    else s
  | .notifyOne task i =>
    if task ∈ s.submitting then
      if s.workers[i]? = some .parked then
        { s.move i .woken with submitting := s.submitting.erase task }
      else if .parked ∈ s.workers then s
      else { s with submitting := s.submitting.erase task }
    else s
  | .wake i => if s.workers[i]? = some .parked then s.move i .woken else s
  | .callShutdown =>
    if s.shutdown = .idle then
      { s with
        shutdown := .called
        required := (List.range s.submitted).filter (· ∉ s.submitting) }
    else s
  | .setStop =>
    if s.shutdown = .called then { s with stop := true, shutdown := .flagged } else s
  | .notifyAll =>
    if s.shutdown = .flagged then
      { s with workers := s.workers.map wakePhase, shutdown := .joining 0 }
    else s
  | .join =>
    match s.shutdown with
    | .joining next =>
      match s.workers[next]? with
      | some .returned => { s with shutdown := .joining (next + 1) }
      | some _ => s
      | none => { s with shutdown := .returned }
    | _ => s

/-- The steps in turn. -/
def run (s : ThreadPool) (steps : List PoolStep) : ThreadPool := steps.foldl step s

/-- The run of no steps. -/
@[simp] theorem run_nil (s : ThreadPool) : s.run [] = s := rfl

/-- A run begins with its first step. -/
@[simp] theorem run_cons (s : ThreadPool) (l : PoolStep) (steps : List PoolStep) :
    s.run (l :: steps) = (s.step l).run steps := rfl

/-- A run of one list of steps after another. -/
theorem run_append (s : ThreadPool) (steps steps' : List PoolStep) :
    s.run (steps ++ steps') = (s.run steps).run steps' :=
  List.foldl_append

/-! ### What a step can do -/

/-- The moves of a worker that touch neither the queue nor a task. -/
inductive Edge (s : ThreadPool) : PoolPhase → PoolPhase → Prop
  | leave (hstop : s.stop = true) : Edge s .loopTest .returned
  | enter (hstop : s.stop = false) : Edge s .loopTest .locking
  | lock : Edge s .locking .testing
  | relock : Edge s .woken .testing
  | pass : Edge s .testing .taking
  | wait (hstop : s.stop = false) : Edge s .testing .parking
  | park : Edge s .parking .parked
  | wake : Edge s .parked .woken
  | drained (hstop : s.stop = true) (hqueue : s.queue = []) : Edge s .taking .returned
  | retry (hstop : s.stop = false) : Edge s .taking .loopTest

/-- The steps that change the pool. -/
inductive Transition (s : ThreadPool) : ThreadPool → Prop
  | move {i p q} (hi : s.workers[i]? = some p) (hedge : Edge s p q) : Transition s (s.move i q)
  | take {i task queue} (hi : s.workers[i]? = some .taking) (hqueue : s.queue = task :: queue) :
      Transition s { s.move i (.running task) with queue }
  | finish {i task} (hi : s.workers[i]? = some (.running task)) :
      Transition s { s.move i .loopTest with executed := s.executed ++ [task] }
  | submit :
      Transition s { s with
        queue := s.queue ++ [s.submitted]
        submitted := s.submitted + 1
        submitting := s.submitting ++ [s.submitted] }
  | notifyNone {submitting} : Transition s { s with submitting }
  | notifyOne {i submitting} (hi : s.workers[i]? = some .parked) :
      Transition s { s.move i .woken with submitting }
  | callShutdown (hshutdown : s.shutdown = .idle) :
      Transition s { s with
        shutdown := .called
        required := (List.range s.submitted).filter (· ∉ s.submitting) }
  | setStop (hshutdown : s.shutdown = .called) :
      Transition s { s with stop := true, shutdown := .flagged }
  | notifyAll (hshutdown : s.shutdown = .flagged) :
      Transition s { s with workers := s.workers.map wakePhase, shutdown := .joining 0 }
  | joinWorker {next} (hshutdown : s.shutdown = .joining next)
      (hreturned : s.workers[next]? = some .returned) :
      Transition s { s with shutdown := .joining (next + 1) }
  | joinDone {next} (hshutdown : s.shutdown = .joining next) (hnone : s.workers[next]? = none) :
      Transition s { s with shutdown := .returned }

/-- A step of a worker is a transition or changes nothing. -/
theorem workerStep_cases (s : ThreadPool) {i : ℕ} {p : PoolPhase} (hi : s.workers[i]? = some p) :
    s.workerStep i p = s ∨ Transition s (s.workerStep i p) := by
  cases p with
  | loopTest =>
    cases hstop : s.stop with
    | true => exact .inr (by simpa [workerStep, hstop] using .move hi (.leave hstop))
    | false => exact .inr (by simpa [workerStep, hstop] using .move hi (.enter hstop))
  | locking =>
    rw [workerStep]
    split
    · exact .inr (.move hi .lock)
    · exact .inl rfl
  | testing =>
    rw [workerStep]
    split
    · exact .inr (.move hi .pass)
    · next htest =>
      simp only [Bool.or_eq_true, not_or, Bool.not_eq_true] at htest
      exact .inr (.move hi (.wait htest.1))
  | parking => exact .inr (.move hi .park)
  | parked => exact .inl rfl
  | woken =>
    rw [workerStep]
    split
    · exact .inr (.move hi .relock)
    · exact .inl rfl
  | taking =>
    rw [workerStep]
    split
    · next hdrained =>
      simp only [Bool.and_eq_true, List.isEmpty_iff] at hdrained
      exact .inr (.move hi (.drained hdrained.1 hdrained.2))
    · next hdrained =>
      split
      · next hqueue =>
        simp only [hqueue, List.isEmpty_nil, Bool.and_true, Bool.not_eq_true] at hdrained
        exact .inr (.move hi (.retry hdrained))
      · next hqueue => exact .inr (.take hi hqueue)
  | running task => exact .inr (.finish hi)
  | returned => exact .inl rfl

/-- Every step changes nothing or is one of the transitions. -/
theorem step_cases (s : ThreadPool) (l : PoolStep) : s.step l = s ∨ Transition s (s.step l) := by
  cases l with
  | worker i =>
    rw [step]
    split
    · next hi => exact s.workerStep_cases hi
    · exact .inl rfl
  | submit =>
    rw [step]
    split
    · exact .inr .submit
    · exact .inl rfl
  | notifyOne task i =>
    rw [step]
    split
    · split
      · next hi => exact .inr (.notifyOne hi)
      · split
        · exact .inl rfl
        · exact .inr .notifyNone
    · exact .inl rfl
  | wake i =>
    rw [step]
    split
    · next hi => exact .inr (.move hi .wake)
    · exact .inl rfl
  | callShutdown =>
    rw [step]
    split
    · next h => exact .inr (.callShutdown h)
    · exact .inl rfl
  | setStop =>
    rw [step]
    split
    · next h => exact .inr (.setStop h)
    · exact .inl rfl
  | notifyAll =>
    rw [step]
    split
    · next h => exact .inr (.notifyAll h)
    · exact .inl rfl
  | join =>
    rw [step]
    split
    · next next h =>
      split
      · next hreturned => exact .inr (.joinWorker h hreturned)
      · exact .inl rfl
      · next hnone => exact .inr (.joinDone h hnone)
    · exact .inl rfl

/-- A property that every transition keeps holds at the end of a run. -/
theorem run_induction {I : ThreadPool → Prop} {s : ThreadPool} (hs : I s)
    (hstep : ∀ s s', I s → Transition s s' → I s') (steps : List PoolStep) : I (s.run steps) :=
  Lib.foldl_of_transitions step_cases hs hstep steps

/-! ### Every task is in one place -/

/-- The tasks that workers are running. -/
def runningTasks (s : ThreadPool) : List ℕ := s.workers.filterMap PoolPhase.task?

/-- The executed, the running and the queued tasks are the tasks pushed so far, each once. -/
def Conserved (s : ThreadPool) : Prop :=
  (s.executed ++ s.runningTasks ++ s.queue).Perm (List.range s.submitted)

variable {s s' : ThreadPool}

/-- A worker that follows an edge has no task before and after. -/
theorem Edge.task?_eq_none {p q : PoolPhase} (h : Edge s p q) :
    p.task? = none ∧ q.task? = none := by
  cases h <;> exact ⟨rfl, rfl⟩

/-- Waking a worker leaves it its task. -/
theorem task?_wakePhase (phase : PoolPhase) : (wakePhase phase).task? = phase.task? := by
  cases phase <;> rfl

/-- A new pool has lost no task. -/
theorem conserved_start (n : ℕ) : (start n).Conserved := by
  have hnone : (start n).runningTasks = [] := by
    refine List.filterMap_eq_nil_iff.mpr fun phase hphase => ?_
    rw [List.eq_of_mem_replicate hphase]
    rfl
  rw [Conserved, hnone]
  exact List.Perm.refl []

/-- No transition loses a task. -/
theorem Conserved.transition (h : s.Conserved) (htrans : Transition s s') : s'.Conserved := by
  unfold Conserved at h ⊢
  cases htrans with
  | @move i p q hi hedge =>
    have hmoved := Lib.filterMap_set_perm PoolPhase.task? hi q
    rw [hedge.task?_eq_none.1, hedge.task?_eq_none.2] at hmoved
    exact ((hmoved.append_left _).append_right _).trans h
  | @take i task queue hi hqueue =>
    have hmoved : ((s.workers.set i (.running task)).filterMap PoolPhase.task?).Perm
        (task :: s.runningTasks) :=
      Lib.filterMap_set_perm PoolPhase.task? hi (.running task)
    refine ((hmoved.append_left _).append_right _).trans (List.Perm.trans ?_ h)
    rw [hqueue, List.append_assoc, List.append_assoc]
    exact (List.perm_middle.symm).append_left _
  | @finish i task hi =>
    have hmoved : (task :: (s.workers.set i .loopTest).filterMap PoolPhase.task?).Perm
        s.runningTasks :=
      Lib.filterMap_set_perm PoolPhase.task? hi .loopTest
    refine List.Perm.trans ?_ h
    rw [List.append_assoc s.executed [task]]
    exact (hmoved.append_left _).append_right _
  | submit =>
    rw [List.range_succ]
    change (s.executed ++ s.runningTasks ++ (s.queue ++ [s.submitted])).Perm _
    rw [← List.append_assoc]
    exact h.append_right _
  | @notifyOne i submitting hi =>
    have hmoved := Lib.filterMap_set_perm PoolPhase.task? hi .woken
    exact ((hmoved.append_left _).append_right _).trans h
  | notifyAll hshutdown =>
    have hmap : (s.workers.map wakePhase).filterMap PoolPhase.task? = s.runningTasks := by
      rw [List.filterMap_map]
      exact List.filterMap_congr fun phase _ => task?_wakePhase phase
    change (s.executed ++ (s.workers.map wakePhase).filterMap PoolPhase.task? ++ s.queue).Perm _
    rw [hmap]
    exact h
  | notifyNone => exact h
  | callShutdown => exact h
  | setStop => exact h
  | joinWorker => exact h
  | joinDone => exact h

/-- No run loses a task. -/
theorem conserved_run (n : ℕ) (steps : List PoolStep) : ((start n).run steps).Conserved :=
  run_induction (conserved_start n) (fun _ _ h htrans => h.transition htrans) steps

/-- A task is pushed, and then it is in exactly one place. -/
theorem Conserved.nodup (h : s.Conserved) :
    (s.executed ++ s.runningTasks ++ s.queue).Nodup :=
  h.nodup_iff.mpr List.nodup_range

/-! ### After `shutdown` -/

/-- What `shutdown` has done so far: the flag is raised with the second step, and a worker
behind the joins has returned. -/
structure Joined (s : ThreadPool) : Prop where
  stop_iff : s.stop = true ↔ s.shutdown ≠ .idle ∧ s.shutdown ≠ .called
  joining : ∀ next, s.shutdown = .joining next → ∀ j < next, s.workers[j]? = some .returned
  returned : s.shutdown = .returned → ∀ phase ∈ s.workers, phase = .returned

/-- No worker of a new pool has been joined. -/
theorem joined_start (n : ℕ) : (start n).Joined :=
  ⟨by simp [start], by simp [start], by simp [start]⟩

/-- The flag does not change while `shutdown` goes from one phase to another on the same side
of it. -/
theorem Joined.stop_iff_of_phase (h : s.Joined) {p q : ShutdownPhase} (hp : s.shutdown = p)
    (hpq : p ≠ .idle ∧ p ≠ .called ↔ q ≠ .idle ∧ q ≠ .called) :
    s.stop = true ↔ q ≠ .idle ∧ q ≠ .called := by
  rw [← hpq, ← hp]
  exact h.stop_iff

/-- A worker that is not behind its loop may move without disturbing the joins. -/
theorem Joined.move (h : s.Joined) {i : ℕ} {p : PoolPhase} (hi : s.workers[i]? = some p)
    (hp : p ≠ .returned) (q : PoolPhase) : (s.move i q).Joined := by
  refine ⟨h.stop_iff, fun next hnext j hj => ?_, fun hreturned => ?_⟩
  · have hreturned := h.joining next hnext j hj
    have hne : i ≠ j := by
      rintro rfl
      rw [hi] at hreturned
      exact hp (Option.some.inj hreturned)
    rw [ThreadPool.move, List.getElem?_set_ne hne, hreturned]
  · exact absurd (h.returned hreturned p (List.mem_of_getElem? hi)) hp

/-- Every transition keeps what `shutdown` has done so far. -/
theorem Joined.transition (h : s.Joined) (htrans : Transition s s') : s'.Joined := by
  cases htrans with
  | move hi hedge =>
    refine h.move hi ?_ _
    rintro rfl
    cases hedge
  | @take i task queue hi hqueue =>
    have hmoved := h.move hi (by simp) (.running task)
    exact ⟨hmoved.stop_iff, hmoved.joining, hmoved.returned⟩
  | finish hi =>
    have hmoved := h.move hi (by simp) .loopTest
    exact ⟨hmoved.stop_iff, hmoved.joining, hmoved.returned⟩
  | submit => exact ⟨h.stop_iff, h.joining, h.returned⟩
  | notifyNone => exact ⟨h.stop_iff, h.joining, h.returned⟩
  | notifyOne hi =>
    have hmoved := h.move hi (by simp) .woken
    exact ⟨hmoved.stop_iff, hmoved.joining, hmoved.returned⟩
  | callShutdown hshutdown =>
    exact ⟨h.stop_iff_of_phase hshutdown (by simp), by simp, by simp⟩
  | setStop => exact ⟨by simp, by simp, by simp⟩
  | notifyAll hshutdown =>
    refine ⟨h.stop_iff_of_phase hshutdown (by simp), fun next hnext j hj => ?_, by simp⟩
    cases hnext
    omega
  | @joinWorker next hshutdown hreturned =>
    refine ⟨h.stop_iff_of_phase hshutdown (by simp), fun next' hnext j hj => ?_, by simp⟩
    cases hnext
    rcases Nat.lt_succ_iff_lt_or_eq.mp hj with hj | rfl
    · exact h.joining next hshutdown j hj
    · exact hreturned
  | @joinDone next hshutdown hnone =>
    refine ⟨h.stop_iff_of_phase hshutdown (by simp), by simp, fun _ phase hphase => ?_⟩
    obtain ⟨j, hj, rfl⟩ : ∃ j, ∃ hj : j < s.workers.length, s.workers[j] = phase :=
      List.getElem_of_mem hphase
    have hlen := List.getElem?_eq_none_iff.mp hnone
    have hreturned := h.joining next hshutdown j (by omega)
    rw [List.getElem?_eq_getElem hj] at hreturned
    exact Option.some.inj hreturned

/-- So does every run. -/
theorem joined_run (n : ℕ) (steps : List PoolStep) : ((start n).run steps).Joined :=
  run_induction (joined_start n) (fun _ _ h htrans => h.transition htrans) steps

/-- The number of workers that have passed the loop condition and not taken a task yet. -/
def committedCount (s : ThreadPool) : ℕ := s.workers.countP PoolPhase.committed

/-- What remains of the state in which the flag was raised: tasks have left the front of its
queue and new ones have joined behind. Each task that left took one of the workers that were
committed then, and as long as tasks of that queue remain, no such worker gave up. -/
structure Draining (s₀ s : ThreadPool) : Prop where
  stop : s.stop = true
  required : s.required = s₀.required
  taken : ∃ count later, s.queue = (s₀.queue ++ later).drop count ∧
    count ≤ (s₀.queue ++ later).length ∧ (∀ task ∈ later, s₀.submitted ≤ task) ∧
    s₀.submitted ≤ s.submitted ∧
    count + s.committedCount ≤ s₀.committedCount ∧
    (count + s.committedCount = s₀.committedCount ∨ s₀.queue.length ≤ count)

/-- With the flag raised, a worker stays committed until it takes a task or finds the queue
empty. -/
theorem Edge.committed_eq {p q : PoolPhase} (h : Edge s p q) (hstop : s.stop = true)
    (hqueue : s.queue ≠ []) : q.committed = p.committed := by
  cases h with
  | enter hdown => simp [hstop] at hdown
  | wait hdown => rfl
  | drained _ hempty => exact absurd hempty hqueue
  | retry hdown => simp [hstop] at hdown
  | _ => rfl

/-- With the flag raised, no worker commits. -/
theorem Edge.committed_le {p q : PoolPhase} (h : Edge s p q) (hstop : s.stop = true) :
    q.committed.toNat ≤ p.committed.toNat := by
  cases h with
  | enter hdown => simp [hstop] at hdown
  | _ => decide

/-- What neither the queue nor a commitment changes with. -/
theorem Draining.of_eq {s₀ : ThreadPool} (h : Draining s₀ s) (hstop : s'.stop = true)
    (hrequired : s'.required = s.required) (hqueue : s'.queue = s.queue)
    (hsubmitted : s'.submitted = s.submitted)
    (hcommitted : s'.committedCount = s.committedCount) : Draining s₀ s' :=
  ⟨hstop, hrequired.trans h.required, by rw [hqueue, hsubmitted, hcommitted]; exact h.taken⟩

/-- Waking a worker does not change what it is committed to. -/
theorem committed_wakePhase (phase : PoolPhase) :
    (wakePhase phase).committed = phase.committed := by
  cases phase <;> rfl

/-- A pool that drains goes on draining. -/
theorem Draining.transition {s₀ : ThreadPool} (h : Draining s₀ s) (hjoined : s.Joined)
    (htrans : Transition s s') : Draining s₀ s' := by
  obtain ⟨count, later, hqueue, hlength, hlater, hsubmitted, hle, hall⟩ := h.taken
  cases htrans with
  | @move i p q hi hedge =>
    have hcount := Lib.countP_set_add PoolPhase.committed hi q
    have hless := hedge.committed_le h.stop
    refine ⟨h.stop, h.required, count, later, hqueue, hlength, hlater, hsubmitted, ?_, ?_⟩
    · simp only [committedCount, move] at hle ⊢
      omega
    · rcases hall with heq | hdone
      · by_cases hempty : s.queue = []
        · right
          rw [hempty] at hqueue
          have := List.drop_eq_nil_iff.mp hqueue.symm
          rw [List.length_append] at this
          omega
        · left
          have hsame := hedge.committed_eq h.stop hempty
          simp only [committedCount, move] at heq ⊢
          rw [hsame] at hcount
          omega
      · exact .inr hdone
  | @take i task queue hi htask =>
    -- the worker that takes the task is no longer committed
    have hcount : (s.workers.set i (.running task)).countP PoolPhase.committed + 1 =
        s.workers.countP PoolPhase.committed :=
      Lib.countP_set_add PoolPhase.committed hi (.running task)
    have hdrop : queue = (s₀.queue ++ later).drop (count + 1) := by
      rw [← List.drop_drop, ← hqueue, htask]
      rfl
    have hlength' : count < (s₀.queue ++ later).length := by
      refine Nat.lt_of_not_le fun hall => ?_
      rw [List.drop_eq_nil_iff.mpr hall, htask] at hqueue
      cases hqueue
    refine ⟨h.stop, h.required, count + 1, later, hdrop, hlength', hlater, hsubmitted, ?_, ?_⟩
    · simp only [committedCount, move] at hle ⊢
      omega
    · simp only [committedCount, move] at hall ⊢
      omega
  | @finish i task hi =>
    refine h.of_eq h.stop rfl rfl rfl ?_
    exact Lib.countP_set_add PoolPhase.committed hi .loopTest
  | submit =>
    refine ⟨h.stop, h.required, count, later ++ [s.submitted], ?_, ?_, fun task htask => ?_,
      hsubmitted.trans (Nat.le_succ _), hle, hall⟩
    · rw [← List.append_assoc, List.drop_append_of_le_length hlength, ← hqueue]
    · rw [← List.append_assoc, List.length_append]
      omega
    · rcases List.mem_append.mp htask with htask | htask
      · exact hlater task htask
      · rwa [List.mem_singleton.mp htask]
  | notifyNone => exact h.of_eq h.stop rfl rfl rfl rfl
  | @notifyOne i submitting hi =>
    refine h.of_eq h.stop rfl rfl rfl (Nat.add_right_cancel (m := 1) ?_)
    exact Lib.countP_set_add PoolPhase.committed hi .woken
  | callShutdown hidle => exact absurd hidle (hjoined.stop_iff.mp h.stop).1
  | setStop => exact h.of_eq rfl rfl rfl rfl rfl
  | notifyAll =>
    refine h.of_eq h.stop rfl rfl rfl ?_
    rw [committedCount, committedCount, List.countP_map]
    exact List.countP_congr fun phase _ => by simp [committed_wakePhase]
  | joinWorker => exact h.of_eq h.stop rfl rfl rfl rfl
  | joinDone => exact h.of_eq h.stop rfl rfl rfl rfl

/-- From the step that raises the flag on, the queue is drained as far as workers are
committed. -/
theorem draining_run {n : ℕ} {before after : List PoolStep}
    (hcalled : ((start n).run before).shutdown = .called) :
    Draining ((start n).run before) ((start n).run (before ++ .setStop :: after)) := by
  have hjoined := joined_run n before
  have hsplit : (start n).run (before ++ .setStop :: after) =
      { (start n).run before with stop := true, shutdown := .flagged }.run after := by
    rw [run_append, run_cons, step, if_pos hcalled]
  generalize (start n).run before = s₀ at *
  rw [hsplit]
  refine (run_induction (I := fun s => s.Joined ∧ Draining s₀ s) ⟨?_, ?_⟩ ?_ after).2
  · exact hjoined.transition (.setStop hcalled)
  · exact ⟨rfl, rfl, 0, [], by simp, by simp, by simp, le_rfl, by simp [committedCount],
      .inl (by simp [committedCount])⟩
  · exact fun s s' h htrans => ⟨h.1.transition htrans, h.2.transition h.1 htrans⟩

/-- Every task whose `submit` returned before `shutdown` was called has been executed. -/
def Drained (s : ThreadPool) : Prop := ∀ task ∈ s.required, task ∈ s.executed

/-- Every required task that is queued is among the first ones, as many as workers are
committed to taking one. -/
def WithinCommitted (s : ThreadPool) : Prop :=
  ∀ task ∈ s.required, task ∈ s.queue → task ∈ s.queue.take s.committedCount

/-- In a pool that has been shut down, what is not executed is queued. -/
theorem mem_executed_or_queue (hconserved : s.Conserved) (hjoined : s.Joined)
    (hreturned : s.shutdown = .returned) {task : ℕ} (htask : task < s.submitted) :
    task ∈ s.executed ↔ task ∉ s.queue := by
  have hnone : s.runningTasks = [] := by
    refine List.filterMap_eq_nil_iff.mpr fun phase hphase => ?_
    rw [hjoined.returned hreturned phase hphase]
    rfl
  have hmem := hconserved.mem_iff.mpr (List.mem_range.mpr htask)
  have hnodup := hconserved.nodup
  rw [hnone, List.append_nil] at hmem hnodup
  constructor
  · exact fun hexecuted hqueue => (List.nodup_append.mp hnodup).2.2 task hexecuted task hqueue rfl
  · exact fun hqueue => (List.mem_append.mp hmem).resolve_right hqueue

/-- The required tasks have been pushed. -/
theorem required_lt_run (n : ℕ) (steps : List PoolStep) :
    ∀ task ∈ ((start n).run steps).required, task < ((start n).run steps).submitted := by
  refine run_induction (I := fun s => ∀ task ∈ s.required, task < s.submitted) (by simp [start])
    (fun s s' h htrans => ?_) steps
  cases htrans with
  | submit => exact fun task htask => (h task htask).trans (Nat.lt_succ_self _)
  | callShutdown => exact fun task htask => List.mem_range.mp (List.mem_filter.mp htask).1
  | _ => exact h

/-- Only one step of `shutdown` touches the flag. -/
theorem stop_step_of_ne {l : PoolStep} (hl : l ≠ .setStop) : (s.step l).stop = s.stop := by
  cases l with
  | setStop => exact absurd rfl hl
  | worker i =>
    rw [step]
    split
    · next phase _ =>
      cases phase <;> simp only [workerStep, move] <;> (repeat' split) <;> rfl
    · rfl
  | _ =>
    simp only [step, move]
    (repeat' split) <;> rfl

/-- The flag is raised by `shutdown` and by nothing else. -/
theorem stop_step {l : PoolStep} (h : (s.step l).stop = true) :
    s.stop = true ∨ l = .setStop ∧ s.shutdown = .called := by
  by_cases hl : l = .setStop
  · subst hl
    by_cases hcalled : s.shutdown = .called
    · exact .inr ⟨rfl, hcalled⟩
    · rw [step, if_neg hcalled] at h
      exact .inl h
  · rw [stop_step_of_ne hl] at h
    exact .inl h

/-- A raised flag was raised by a step of `shutdown`. -/
theorem exists_setStop (n : ℕ) (steps : List PoolStep) (h : ((start n).run steps).stop = true) :
    ∃ before after, steps = before ++ .setStop :: after ∧
      ((start n).run before).shutdown = .called := by
  obtain ⟨before, l, after, rfl, hdown, hup⟩ :=
    Lib.exists_split_of_foldl (R := fun s : ThreadPool => s.stop = true) (by simp [start]) h
  obtain ⟨rfl, hcalled⟩ := (stop_step hup).resolve_left hdown
  exact ⟨before, after, rfl, hcalled⟩

/-- When `shutdown` returns, the required tasks have been executed exactly when those that
were queued as the flag was raised had workers committed to them. -/
theorem drained_iff {n : ℕ} {before after : List PoolStep}
    (hcalled : ((start n).run before).shutdown = .called)
    (hreturned : ((start n).run (before ++ .setStop :: after)).shutdown = .returned) :
    ((start n).run (before ++ .setStop :: after)).Drained ↔
      ((start n).run before).WithinCommitted := by
  have hdraining := @draining_run n before after hcalled
  have hconserved := conserved_run n (before ++ .setStop :: after)
  have hjoined := joined_run n (before ++ .setStop :: after)
  have hpushed := required_lt_run n before
  have hnodup := (conserved_run n before).nodup.of_append_right
  generalize (start n).run before = s₀ at *
  generalize (start n).run (before ++ .setStop :: after) = s at *
  obtain ⟨count, later, hqueue, hlength, hlater, hsubmitted, hle, hall⟩ := hdraining.taken
  have hnone : s.committedCount = 0 := by
    refine List.countP_eq_zero.mpr fun phase hphase => ?_
    rw [hjoined.returned hreturned phase hphase]
    decide
  -- as many tasks left the queue as workers were committed, or all of it
  have htake : s₀.queue.take count = s₀.queue.take s₀.committedCount := by
    rcases hall with heq | hdone
    · rw [← heq, hnone, Nat.add_zero]
    · rw [List.take_of_length_le hdone, List.take_of_length_le (by omega)]
  have hleft : ∀ task ∈ s₀.required, task ∈ s.queue ↔ task ∈ s₀.queue.drop count := by
    intro task htask
    rw [hqueue, List.drop_append, List.mem_append, or_iff_left]
    intro hmem
    have := hlater task (List.mem_of_mem_drop hmem)
    have := hpushed task htask
    omega
  unfold Drained WithinCommitted
  rw [hdraining.required, ← htake]
  refine forall_congr' fun task => forall_congr' fun htask => ?_
  rw [mem_executed_or_queue hconserved hjoined hreturned
    ((hpushed task htask).trans_le hsubmitted), hleft task htask]
  have hsplit := List.take_append_drop count s₀.queue
  rw [← hsplit, List.nodup_append] at hnodup
  constructor
  · intro hout hin
    rw [← hsplit] at hin
    exact (List.mem_append.mp hin).resolve_right hout
  · intro hin hdrop
    exact hnodup.2.2 task (hin (List.mem_of_mem_drop hdrop)) task hdrop rfl

/-- At the step that raises the flag, the required tasks in the queue have workers committed
to them. -/
def StopsCommitted (s : ThreadPool) (l : PoolStep) : Prop :=
  l = .setStop → s.shutdown = .called → s.WithinCommitted

instance (s : ThreadPool) (l : PoolStep) : Decidable (s.StopsCommitted l) :=
  inferInstanceAs (Decidable (l = .setStop → s.shutdown = .called →
    ∀ task ∈ s.required, task ∈ s.queue → task ∈ s.queue.take s.committedCount))

/-- One worker, committed to the one task as the flag is raised. -/
def committedRun : List PoolStep :=
  [.submit, .notifyOne 0 0, .worker 0, .callShutdown, .setStop, .notifyAll, .worker 0, .worker 0,
    .worker 0, .worker 0, .worker 0, .join, .join]

/-- One worker, running a first task while a second one is queued and `shutdown` is called. -/
def abandonedRun : List PoolStep :=
  [.submit, .notifyOne 0 0, .worker 0, .worker 0, .worker 0, .worker 0, .submit, .notifyOne 1 0,
    .callShutdown, .setStop, .notifyAll, .worker 0, .worker 0, .join, .join]

end ThreadPool

end TtsServer
