import TtsServer.ThreadPool
import TtsServer.BusWorkers

/-!
# Notifications that come too early

Both the thread pool and the inbox of the event bus raise their stop flag and notify all
waiting workers without the lock under which a worker tests the flag. A worker that has
found the flag down and has not parked yet is missed by the notification: it parks
afterwards, and the thread that stops the workers joins it for ever. Such a worker at the
moment of the notification is the only way in which a wake-up is lost.
-/

namespace TtsServer

/-! ### The thread pool -/

namespace ThreadPool

variable {s s' : ThreadPool}

/-- How a worker in a phase waits. -/
def waiting : PoolPhase → Lib.WaitPhase
  | .parking => .deciding
  | .parked => .parked
  | _ => .away

/-- An edge of a worker is a step of the waiting protocol, with `stop` as its flag. -/
theorem Edge.waitStep {p q : PoolPhase} (h : Edge s p q) :
    Lib.WaitStep (¬ s.stop = true) (waiting p) (waiting q) := by
  cases h with
  | wait hstop => exact .decide (by simp [hstop])
  | park => exact .park
  | wake => exact .leave
  | _ => exact .stay

/-- So is every transition of the pool, seen from one of its workers. -/
theorem Transition.waitStep (h : Transition s s') (i : ℕ) :
    Lib.WaitStep (¬ s.stop = true) (Lib.waitPhase waiting s.workers i)
      (Lib.waitPhase waiting s'.workers i) := by
  cases h with
  | move hi hedge => exact Lib.waitStep_set hi hedge.waitStep i
  | take hi => exact Lib.waitStep_set hi .leave i
  | finish hi => exact Lib.waitStep_set hi .leave i
  | notifyOne hi => exact Lib.waitStep_set hi .leave i
  | notifyAll =>
    refine Lib.waitStep_map (fun p => ?_) i
    cases p <;> first | exact .stay | exact .leave
  | _ => exact .stay

/-- The flag `stop` is never taken back. -/
theorem Transition.stop_eq_true (h : Transition s s') (hstop : s.stop = true) :
    s'.stop = true := by
  cases h with
  | setStop => rfl
  | _ => exact hstop

/-- The workers follow the rules of waiting for the stop flag. -/
theorem wakeProtocol : Lib.WakeProtocol step (fun s : ThreadPool => s.stop = true)
    (fun s => Lib.waitPhase waiting s.workers) where
  flag_kept s l hstop := by
    rcases s.step_cases l with heq | htrans
    · rwa [heq]
    · exact htrans.stop_eq_true hstop
  waits s l i := by
    rcases s.step_cases l with heq | htrans
    · rw [heq]
      exact .stay
    · exact htrans.waitStep i

/-- `shutdown` has performed its `notify_all`. -/
def Announced (s : ThreadPool) : Prop :=
  s.shutdown ≠ .idle ∧ s.shutdown ≠ .called ∧ s.shutdown ≠ .flagged

/-- A worker waits although `shutdown` has notified all, and no `submit` is about to notify. -/
def Stranded (s : ThreadPool) : Prop :=
  s.Announced ∧ s.submitting = [] ∧ .parked ∈ s.workers

/-- The step is the `notify_all` of `shutdown`. -/
def Announces (s : ThreadPool) (l : PoolStep) : Prop := l = .notifyAll ∧ s.shutdown = .flagged

/-- When `shutdown` notifies all, no worker is between its test of the flag and parking. -/
def AnnouncesQuietly (s : ThreadPool) (l : PoolStep) : Prop :=
  s.Announces l → .parking ∉ s.workers

/-- A step of a worker does not move the shutdown. -/
theorem shutdown_workerStep (s : ThreadPool) (i : ℕ) (p : PoolPhase) :
    (s.workerStep i p).shutdown = s.shutdown := by
  cases p <;> simp only [workerStep, move] <;> (repeat' split) <;> rfl

/-- The step of a worker leaves the other workers and the submits in progress alone. -/
theorem workerStep_frame (s : ThreadPool) (i : ℕ) (p : PoolPhase) :
    (s.workerStep i p).submitting = s.submitting ∧
      ∀ j, i ≠ j → (s.workerStep i p).workers[j]? = s.workers[j]? := by
  cases p <;> simp only [workerStep, move] <;> (repeat' split) <;>
    simp +contextual [List.getElem?_set_ne]

/-- The shutdown is announced by no other step than its `notify_all`. -/
theorem announces_of_announced {l : PoolStep} (hbefore : ¬ s.Announced)
    (hafter : (s.step l).Announced) : s.Announces l := by
  cases l with
  | notifyAll =>
    refine ⟨rfl, ?_⟩
    by_contra hflagged
    rw [step, if_neg hflagged] at hafter
    exact hbefore hafter
  | worker i =>
    refine absurd ?_ hbefore
    rw [step] at hafter
    split at hafter
    · rwa [Announced, shutdown_workerStep] at hafter
    · exact hafter
  | callShutdown =>
    rw [step] at hafter
    split at hafter
    · exact absurd rfl hafter.2.1
    · exact absurd hafter hbefore
  | setStop =>
    rw [step] at hafter
    split at hafter
    · exact absurd rfl hafter.2.2
    · exact absurd hafter hbefore
  | join =>
    refine absurd ?_ hbefore
    rw [step] at hafter
    split at hafter
    · next h => simp [Announced, h]
    · exact hafter
  | _ =>
    refine absurd ?_ hbefore
    simp only [step, move] at hafter
    revert hafter
    (repeat' split) <;> exact id

/-- Announcing wakes every worker, and the joining begins. -/
theorem step_of_announces {l : PoolStep} (h : s.Announces l) :
    s.step l = { s with workers := s.workers.map wakePhase, shutdown := .joining 0 } := by
  obtain ⟨rfl, hflagged⟩ := h
  rw [step, if_pos hflagged]

/-- No worker is parked right after the wake-up. -/
theorem waiting_wakePhase_ne_parked (p : PoolPhase) : waiting (wakePhase p) ≠ .parked := by
  cases p <;> exact Lib.WaitPhase.noConfusion

/-- The parked phase of the protocol is the parked phase of the worker. -/
theorem waiting_eq_parked_iff {p : PoolPhase} : waiting p = .parked ↔ p = .parked := by
  cases p <;> simp [waiting]

/-- A worker that is about to park is the one that is deciding. -/
theorem waiting_eq_deciding_iff {p : PoolPhase} : waiting p = .deciding ↔ p = .parking := by
  cases p <;> simp [waiting]

/-- If every notification finds no worker deciding, no worker is stranded. -/
theorem not_stranded {n : ℕ} {steps : List PoolStep}
    (h : Lib.Along step AnnouncesQuietly (start n) steps) : ¬ ((start n).run steps).Stranded := by
  rintro ⟨hannounced, -, hparked⟩
  obtain ⟨i, hi⟩ := (Lib.exists_waitPhase_iff (by simp)).mpr
    ⟨_, hparked, waiting_eq_parked_iff.mpr rfl⟩
  refine wakeProtocol.not_parked Announced Announces (by simp [Announced, start])
    (fun s l => announces_of_announced) (fun s l i hl => ?_) ?_ hannounced i hi
  · rw [step_of_announces hl]
    exact Lib.waitPhase_map_ne_parked waiting_wakePhase_ne_parked i
  · -- the flag is raised before the notification
    refine Lib.along_iff_forall_split.mpr fun pre l post hsplit hl => ⟨?_, fun i hi => ?_⟩
    · exact (joined_run n pre).stop_iff.mpr (by rw [run, hl.2]; decide)
    · obtain ⟨p, hp, hwaiting⟩ := (Lib.exists_waitPhase_iff (by simp)).mp ⟨i, hi⟩
      obtain rfl := waiting_eq_deciding_iff.mp hwaiting
      exact Lib.along_iff_forall_split.mp h pre l post hsplit hl hp

/-- The pending notifications reach nobody when no worker is parked. -/
theorem run_notifications {submitting : List ℕ} (hsubmitting : s.submitting = submitting)
    (hparked : .parked ∉ s.workers) :
    s.run (submitting.map fun task => .notifyOne task 0) = { s with submitting := [] } := by
  induction submitting generalizing s with
  | nil => rw [List.map_nil, run_nil, ← hsubmitting]
  | cons task submitting ih =>
    have hstep : s.step (.notifyOne task 0) = { s with submitting } := by
      have hnot : ¬ s.workers[0]? = some .parked := fun h => hparked (List.mem_of_getElem? h)
      simp [step, hsubmitting, hnot, hparked]
    rw [List.map_cons, run_cons, hstep]
    exact @ih { s with submitting } rfl hparked

/-- A worker that is deciding at the moment of the notification is stranded in a
continuation: the notifications of the pending calls come first, and then it parks. -/
theorem exists_stranded (hflagged : s.shutdown = .flagged) (hparking : .parking ∈ s.workers) :
    ∃ post, (s.run (.notifyAll :: post)).Stranded := by
  obtain ⟨i, hi⟩ := List.getElem?_of_mem hparking
  have hnotify := step_of_announces (s := s) ⟨rfl, hflagged⟩
  have hnone : .parked ∉ s.workers.map wakePhase := by
    intro hmem
    obtain ⟨p, -, hp⟩ := List.mem_map.mp hmem
    exact waiting_wakePhase_ne_parked p (by rw [hp]; rfl)
  have hrest := @run_notifications
    { s with workers := s.workers.map wakePhase, shutdown := .joining 0 } s.submitting rfl hnone
  refine ⟨s.submitting.map (fun task => .notifyOne task 0) ++ [.worker i], ?_⟩
  have hpark : (s.run (.notifyAll :: (s.submitting.map (fun task => .notifyOne task 0) ++
      [.worker i]))) = { s with
        workers := (s.workers.map wakePhase).set i .parked
        submitting := []
        shutdown := .joining 0 } := by
    rw [run_cons, hnotify, run_append, hrest]
    simp [step, hi, wakePhase, workerStep, move]
  rw [hpark]
  refine ⟨⟨by simp, by simp, by simp⟩, rfl, ?_⟩
  obtain ⟨hlt, -⟩ := List.getElem?_eq_some_iff.mp hi
  exact List.mem_set (by simpa using hlt) _

/-- The step can wake no worker that a pending notification does not reach. -/
def Silent (l : PoolStep) : Prop := l ≠ .submit ∧ ∀ i, l ≠ .wake i

/-- A stranded worker stays parked while no task is submitted and it does not wake by
itself. -/
theorem Stranded.step {l : PoolStep} (h : s.Stranded) (hl : Silent l) : (s.step l).Stranded := by
  obtain ⟨hannounced, hsubmitting, hparked⟩ := h
  cases l with
  | submit => exact absurd rfl hl.1
  | wake i => exact absurd rfl (hl.2 i)
  | notifyOne task i =>
    simpa [ThreadPool.step, hsubmitting] using ⟨hannounced, hsubmitting, hparked⟩
  | callShutdown =>
    rw [ThreadPool.step, if_neg hannounced.1]
    exact ⟨hannounced, hsubmitting, hparked⟩
  | setStop =>
    rw [ThreadPool.step, if_neg hannounced.2.1]
    exact ⟨hannounced, hsubmitting, hparked⟩
  | notifyAll =>
    rw [ThreadPool.step, if_neg hannounced.2.2]
    exact ⟨hannounced, hsubmitting, hparked⟩
  | join =>
    rw [ThreadPool.step]
    split
    · split
      · exact ⟨⟨by simp, by simp, by simp⟩, hsubmitting, hparked⟩
      · exact ⟨hannounced, hsubmitting, hparked⟩
      · exact ⟨⟨by simp, by simp, by simp⟩, hsubmitting, hparked⟩
    · exact ⟨hannounced, hsubmitting, hparked⟩
  | worker i =>
    rw [ThreadPool.step]
    split
    · next p hi =>
      obtain ⟨hsubmitting', hother⟩ := s.workerStep_frame i p
      refine ⟨?_, hsubmitting'.trans hsubmitting, ?_⟩
      · rwa [Announced, shutdown_workerStep]
      · -- the parked worker is another one, or its step changes nothing
        obtain ⟨j, hj⟩ := List.getElem?_of_mem hparked
        by_cases hij : i = j
        · subst hij
          obtain rfl := Option.some.inj (hi.symm.trans hj)
          exact hparked
        · exact List.mem_of_getElem? ((hother j hij).trans hj)
    · exact ⟨hannounced, hsubmitting, hparked⟩

/-- Once a worker is stranded, `shutdown` does not return unless another task is submitted or
the worker wakes by itself. -/
theorem shutdown_ne_returned_of_stranded {n : ℕ} {steps rest : List PoolStep}
    (h : ((start n).run steps).Stranded) (hrest : ∀ l ∈ rest, Silent l) :
    ((start n).run (steps ++ rest)).shutdown ≠ .returned := by
  have hstranded : ((start n).run (steps ++ rest)).Stranded := by
    rw [run_append]
    exact rest.foldlRecOn ThreadPool.step h fun s hs l hl => hs.step (hrest l hl)
  intro hreturned
  have hphase := (joined_run n (steps ++ rest)).returned hreturned .parked hstranded.2.2
  cases hphase

end ThreadPool

/-! ### The inbox of the bus -/

namespace BusWorkers

variable {s s' : BusWorkers}

/-- How a worker waits. -/
def waiting (w : BusWorker) : Lib.WaitPhase :=
  match w.phase with
  | .parking => .deciding
  | .parked => .parked
  | _ => .away

/-- An edge of a worker of the bus is a step of the waiting protocol, with `closed` as its flag. -/
theorem Edge.waitStep {w : BusWorker} {q : BusPhase} (h : Edge s w.stopRequested w.phase q) :
    Lib.WaitStep (¬ s.closed = true) (waiting w) (waiting { w with phase := q }) := by
  obtain ⟨p, stopRequested⟩ := w
  cases h with
  | wait hopen => exact .decide (by simp [hopen])
  | park => exact .park
  | wake => exact .leave
  | _ => exact .stay

/-- No worker of the bus is parked right after the wake-up. -/
theorem waiting_wakeWorker_ne_parked (w : BusWorker) : waiting (wakeWorker w) ≠ .parked := by
  obtain ⟨p, stopRequested⟩ := w
  cases p <;> exact Lib.WaitPhase.noConfusion

/-- So is every transition of the bus, seen from one of its workers. -/
theorem Transition.waitStep (h : Transition s s') (i : ℕ) :
    Lib.WaitStep (¬ s.closed = true) (Lib.waitPhase waiting s.workers i)
      (Lib.waitPhase waiting s'.workers i) := by
  cases h with
  | move hi hedge => exact Lib.waitStep_set hi hedge.waitStep i
  | take hi => exact Lib.waitStep_set hi .leave i
  | spawn =>
    rw [Lib.waitPhase, Lib.waitPhase, List.getElem?_append]
    split
    · exact .stay
    · cases i - s.workers.length <;> exact .leave
  | notifyAll =>
    refine Lib.waitStep_map (fun w => ?_) i
    obtain ⟨p, stopRequested⟩ := w
    cases p <;> first | exact .stay | exact .leave
  | @request next w _ hi =>
    have hsame : waiting { w with stopRequested := true } = waiting w := rfl
    exact Lib.waitStep_set hi (by rw [hsame]; exact .stay) i
  | clear => exact .leave
  | notifyOne hi => exact Lib.waitStep_set hi .leave i
  | _ => exact .stay

/-- A closed inbox is never opened again. -/
theorem Transition.closed_eq_true (h : Transition s s') (hclosed : s.closed = true) :
    s'.closed = true := by
  cases h with
  | setStop => rfl
  | _ => exact hclosed

/-- The workers follow the rules of waiting for the stop source of the inbox. -/
theorem wakeProtocol : Lib.WakeProtocol step (fun s : BusWorkers => s.closed = true)
    (fun s => Lib.waitPhase waiting s.workers) where
  flag_kept s l hclosed := by
    rcases s.step_cases l with heq | htrans
    · rwa [heq]
    · exact htrans.closed_eq_true hclosed
  waits s l i := by
    rcases s.step_cases l with heq | htrans
    · rw [heq]
      exact .stay
    · exact htrans.waitStep i

/-- A worker waits although `close` has notified all, and no push is about to notify. -/
def Stranded (s : BusWorkers) : Prop :=
  s.announced = true ∧ s.publishing = [] ∧ ∃ w ∈ s.workers, w.phase = .parked

/-- The step is the `notify_all` of `close`. -/
def Announces (s : BusWorkers) (l : BusStep) : Prop := l = .notifyAll ∧ s.stopping = .flagged

/-- When `close` notifies all, no worker is between its test of the flag and parking. -/
def AnnouncesQuietly (s : BusWorkers) (l : BusStep) : Prop :=
  s.Announces l → ∀ w ∈ s.workers, w.phase ≠ .parking

/-- Only `notify_all` announces. -/
theorem announced_step_of_ne {l : BusStep} (hl : l ≠ .notifyAll) :
    (s.step l).announced = s.announced := by
  cases l with
  | notifyAll => exact absurd rfl hl
  | worker i =>
    simp only [step]
    split
    · next w _ =>
      obtain ⟨p, stopRequested⟩ := w
      cases p <;> simp only [workerStep, move] <;> (repeat' split) <;> rfl
    · rfl
  | call c => cases c <;> simp only [step, call] <;> (repeat' split) <;> rfl
  | _ =>
    simp only [step, move]
    (repeat' split) <;> rfl

/-- The end is announced by no other step than its `notify_all`. -/
theorem announces_of_announced {l : BusStep} (hbefore : ¬ s.announced = true)
    (hafter : (s.step l).announced = true) : s.Announces l := by
  by_cases hl : l = .notifyAll
  · subst hl
    refine ⟨rfl, ?_⟩
    by_contra hflagged
    rw [step, if_neg hflagged] at hafter
    exact hbefore hafter
  · rw [announced_step_of_ne hl] at hafter
    exact absurd hafter hbefore

/-- Announcing wakes every worker of the bus. -/
theorem step_of_announces {l : BusStep} (h : s.Announces l) :
    s.step l = { s with
      workers := s.workers.map wakeWorker
      announced := true
      stopping := .deleting 0 false } := by
  obtain ⟨rfl, hflagged⟩ := h
  rw [step, if_pos hflagged]

/-- The parked phase of the protocol is the parked phase of the worker. -/
theorem waiting_eq_parked_iff {w : BusWorker} : waiting w = .parked ↔ w.phase = .parked := by
  obtain ⟨p, stopRequested⟩ := w
  cases p <;> simp [waiting]

/-- A worker that is about to park is the one that is deciding. -/
theorem waiting_eq_deciding_iff {w : BusWorker} : waiting w = .deciding ↔ w.phase = .parking := by
  obtain ⟨p, stopRequested⟩ := w
  cases p <;> simp [waiting]

/-- If every notification finds no worker deciding, no worker is stranded. -/
theorem not_stranded {steps : List BusStep} (h : Lib.Along step AnnouncesQuietly {} steps) :
    ¬ (run {} steps).Stranded := by
  rintro ⟨hannounced, -, w, hw, hparked⟩
  obtain ⟨i, hi⟩ := (Lib.exists_waitPhase_iff (by simp)).mpr
    ⟨w, hw, waiting_eq_parked_iff.mpr hparked⟩
  refine wakeProtocol.not_parked (fun s => s.announced = true) Announces (by simp)
    (fun s l => announces_of_announced) (fun s l i hl => ?_) ?_ hannounced i hi
  · rw [step_of_announces hl]
    exact Lib.waitPhase_map_ne_parked waiting_wakeWorker_ne_parked i
  · -- the inbox is closed before the notification
    refine Lib.along_iff_forall_split.mpr fun pre l post hsplit hl => ⟨?_, fun i hi => ?_⟩
    · exact (guarded_recorded_run pre).1.closing (by rw [run, hl.2]; decide)
        (by rw [run, hl.2]; decide)
    · obtain ⟨w, hw, hwaiting⟩ := (Lib.exists_waitPhase_iff (by simp)).mp ⟨i, hi⟩
      exact Lib.along_iff_forall_split.mp h pre l post hsplit hl w hw
        (waiting_eq_deciding_iff.mp hwaiting)

/-- The pending notifications reach nobody when no worker is parked. -/
theorem run_notifications {publishing : List ℕ} (hpublishing : s.publishing = publishing)
    (hparked : ∀ w ∈ s.workers, w.phase ≠ .parked) :
    s.run (publishing.map fun task => .notifyOne task 0) = { s with publishing := [] } := by
  induction publishing generalizing s with
  | nil => rw [List.map_nil, run_nil, ← hpublishing]
  | cons task publishing ih =>
    have hstep : s.step (.notifyOne task 0) = { s with publishing } := by
      have hnone : s.workers.any (·.phase = .parked) = false := by simpa using hparked
      simp [step, hpublishing, hnone]
    rw [List.map_cons, run_cons, hstep]
    exact @ih { s with publishing } rfl hparked

/-- A worker that is deciding at the moment of the notification is stranded in a
continuation. -/
theorem exists_stranded (hflagged : s.stopping = .flagged) {w : BusWorker} (hw : w ∈ s.workers)
    (hparking : w.phase = .parking) : ∃ post, (s.run (.notifyAll :: post)).Stranded := by
  obtain ⟨i, hi⟩ := List.getElem?_of_mem hw
  have hnotify := step_of_announces (s := s) ⟨rfl, hflagged⟩
  have hnone : ∀ w ∈ s.workers.map wakeWorker, w.phase ≠ .parked := by
    intro w hmem hparked
    obtain ⟨w, -, rfl⟩ := List.mem_map.mp hmem
    exact waiting_wakeWorker_ne_parked w (waiting_eq_parked_iff.mpr hparked)
  have hrest := @run_notifications { s with
    workers := s.workers.map wakeWorker
    announced := true
    stopping := .deleting 0 false } s.publishing rfl hnone
  refine ⟨s.publishing.map (fun task => .notifyOne task 0) ++ [.worker i], ?_⟩
  have hpark : (s.run (.notifyAll :: (s.publishing.map (fun task => .notifyOne task 0) ++
      [.worker i]))) = { s with
        workers := (s.workers.map wakeWorker).set i { w with phase := .parked }
        publishing := []
        announced := true
        stopping := .deleting 0 false } := by
    rw [run_cons, hnotify, run_append, hrest]
    simp [step, hi, wakeWorker, hparking, workerStep, move]
  rw [hpark]
  obtain ⟨hlt, -⟩ := List.getElem?_eq_some_iff.mp hi
  exact ⟨rfl, rfl, { w with phase := .parked }, List.mem_set (by simpa using hlt) _, rfl⟩

end BusWorkers

/-! ### Both -/

/-- In the thread pool and in the inbox of the bus, for every number of workers and every
interleaving: if at each `notify_all` of `shutdown` and of `close` no worker is between a test
that found the flag down and parking, no worker is left waiting; and from every state in which
the `notify_all` is due and such a worker exists, one is left waiting in some continuation. -/
theorem no_lost_wakeup (n : ℕ) (steps : List PoolStep) (busSteps : List BusStep) :
    ((Lib.Along ThreadPool.step ThreadPool.AnnouncesQuietly (.start n) steps →
        ¬ ((ThreadPool.start n).run steps).Stranded) ∧
      (((ThreadPool.start n).run steps).shutdown = .flagged →
        .parking ∈ ((ThreadPool.start n).run steps).workers →
        ∃ post, ((ThreadPool.start n).run (steps ++ .notifyAll :: post)).Stranded)) ∧
    ((Lib.Along BusWorkers.step BusWorkers.AnnouncesQuietly {} busSteps →
        ¬ (BusWorkers.run {} busSteps).Stranded) ∧
      ((BusWorkers.run {} busSteps).stopping = .flagged →
        (∃ w ∈ (BusWorkers.run {} busSteps).workers, w.phase = .parking) →
        ∃ post, (BusWorkers.run {} (busSteps ++ .notifyAll :: post)).Stranded)) := by
  refine ⟨⟨ThreadPool.not_stranded, fun hflagged hparking => ?_⟩,
    ⟨BusWorkers.not_stranded, fun hflagged hparking => ?_⟩⟩
  · obtain ⟨post, hpost⟩ := ThreadPool.exists_stranded hflagged hparking
    exact ⟨post, by rwa [ThreadPool.run_append]⟩
  · obtain ⟨w, hw, hphase⟩ := hparking
    obtain ⟨post, hpost⟩ := BusWorkers.exists_stranded hflagged hw hphase
    exact ⟨post, by rwa [BusWorkers.run_append]⟩

/-- Workers that are parked when the notification comes are woken. -/
theorem no_lost_wakeup_parked :
    ¬ ((ThreadPool.start 1).run [.worker 0, .worker 0, .worker 0, .worker 0, .callShutdown,
        .setStop, .notifyAll]).Stranded ∧
      ¬ (BusWorkers.run {} [.call (.start 1), .spawn, .worker 0, .worker 0, .worker 0, .worker 0,
        .worker 0, .call .stop, .setStop, .notifyAll]).Stranded := by
  have h := no_lost_wakeup 1 [.worker 0, .worker 0, .worker 0, .worker 0, .callShutdown, .setStop,
    .notifyAll] [.call (.start 1), .spawn, .worker 0, .worker 0, .worker 0, .worker 0, .worker 0,
    .call .stop, .setStop, .notifyAll]
  refine ⟨h.1.1 ?_, h.2.1 ?_⟩
  · unfold ThreadPool.AnnouncesQuietly ThreadPool.Announces
    decide
  · unfold BusWorkers.AnnouncesQuietly BusWorkers.Announces
    decide

/-- A worker tests the flag, the flag is raised and notified, and the worker parks: in the
pool and in the inbox of the bus it is left waiting. -/
theorem wakeups_lost :
    ((ThreadPool.start 1).run [.worker 0, .worker 0, .worker 0, .callShutdown, .setStop,
        .notifyAll, .worker 0]).Stranded ∧
      (BusWorkers.run {} [.call (.start 1), .spawn, .worker 0, .worker 0, .worker 0, .worker 0,
        .call .stop, .setStop, .notifyAll, .worker 0]).Stranded := by
  constructor
  · unfold ThreadPool.Stranded ThreadPool.Announced
    decide
  · unfold BusWorkers.Stranded
    decide

end TtsServer
