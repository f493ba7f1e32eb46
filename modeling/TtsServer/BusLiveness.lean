import TtsServer.BusEvents
import TtsServer.Lib.LeadsTo
import Mathlib.Data.Nat.Pairing

/-!
# Asynchronous events are delivered

A push to the inbox notifies one worker after the lock is released, so the notification may
find nobody parked, or a worker that is already on its way. No event is left behind: while a
worker waits, the events in the inbox are no more than the pushes that have still to notify
and the workers that will look at the inbox. Hence, on a bus that has workers and was not
restarted, every event is started once publishing pauses.
-/

namespace TtsServer

open Lib

namespace BusPhase

/-- The worker is parked or about to park. -/
def isWaiting : BusPhase → Bool
  | parking | parked => true
  | _ => false

/-- The worker will look at the inbox before it waits. -/
def isBusy : BusPhase → Bool
  | parking | parked | returned => false
  | _ => true

/-- How far a worker is from taking a task when there is one. -/
def rank : BusPhase → ℕ
  | returned => 0
  | trying => 3
  | loopTest => 4
  | running _ => 5
  | taking => 6
  | testing => 7
  | woken | locking => 8
  | parked => 9
  | parking => 10

/-- A busy worker is not waiting. -/
theorem isWaiting_of_isBusy {p : BusPhase} (h : p.isBusy = true) : p.isWaiting = false := by
  cases p with
  | parking | parked | returned => cases h
  | _ => rfl

end BusPhase

namespace BusWorkers

variable {s s' : BusWorkers} {l : BusStep} {i : ℕ} {w : BusWorker}

/-- A worker about to park has found the inbox empty, and while a worker waits the tasks in the
inbox are attended to. -/
structure Watched (s : BusWorkers) : Prop where
  parking : ∀ w ∈ s.workers, w.phase = .parking → s.queue = []
  tokens : s.closed = false → ∀ w ∈ s.workers, w.phase.isWaiting = true →
    s.queue.length ≤ s.publishing.length + s.workers.countP (·.phase.isBusy)

/-- A bus without workers has nothing to watch. -/
theorem watched_empty : Watched {} := ⟨nofun, nofun⟩

/-- When a worker has taken a task, nobody holds the lock. -/
theorem unlocked_of_take (hguarded : s.Guarded) (hi : s.workers[i]? = some w)
    (hphase : w.phase = .taking ∨ w.phase = .trying ∧ s.lockFree = true) {task : ℕ} :
    ∀ w' ∈ s.workers.set i { w with phase := .running task }, w'.holdsLock = false := by
  have hmutex := hguarded.mutex
  have hcount := countP_set_add BusWorker.holdsLock hi { w with phase := .running task }
  have hnew : (BusWorker.holdsLock { w with phase := .running task }).toNat = 0 := rfl
  have hnone : (s.workers.set i { w with phase := .running task }).countP
      BusWorker.holdsLock = 0 := by
    rcases hphase with hphase | ⟨hphase, hfree⟩
    · have hold : w.holdsLock.toNat = 1 := by
        rw [BusWorker.holdsLock, hphase]
        rfl
      omega
    · have hzero := countP_eq_zero_of_lockFree hfree
      omega
  intro w' hw'
  simpa using List.countP_eq_zero.mp hnone w' hw'

/-- A worker that waits is parked or holds the lock. -/
theorem eq_parked_of_waiting (hwaiting : w.phase.isWaiting = true) (hlock : w.holdsLock = false) :
    w.phase = .parked := by
  obtain ⟨phase, stopRequested⟩ := w
  cases phase with
  | parked => rfl
  | parking => cases hlock
  | _ => cases hwaiting

/-- A worker that moves on leaves the queue watched. -/
theorem Watched.move (h : Watched s) (hguarded : s.Guarded) {q : BusPhase}
    (hi : s.workers[i]? = some w) (hhop : Hop s w.stopRequested w.phase q) :
    Watched (s.move i w q) := by
  refine ⟨fun w' hw' hparking => ?_, fun hopen w' hw' hwaiting => ?_⟩
  · rcases List.mem_or_eq_of_mem_set hw' with hw' | rfl
    · exact h.parking w' hw' hparking
    · simp only at hparking
      subst hparking
      generalize w.phase = p at hhop
      cases hhop with
      | wait hqueue hopen => exact hqueue
  · have hmem := List.mem_of_getElem? hi
    obtain ⟨-, hstop, -⟩ := hguarded.unclosed hopen w hmem
    have hcount := countP_set_add (fun w : BusWorker => w.phase.isBusy) hi { w with phase := q }
    simp only at hcount
    -- With an empty inbox there is nothing to show.
    by_cases hqueue : s.queue = []
    · simp [BusWorkers.move, hqueue]
    have hbusy : w.phase.isBusy = true → q.isBusy = true := by
      intro hbusy
      generalize w.phase = p at hhop hbusy
      cases hhop with
      | leave hrequested =>
        rw [hstop] at hrequested
        cases hrequested
      | wait hempty hopen => exact absurd hempty hqueue
      | drained hempty => exact absurd hempty hqueue
      | park | wake => cases hbusy
      | _ => rfl
    have hbefore : s.queue.length ≤
        s.publishing.length + s.workers.countP (·.phase.isBusy) := by
      rcases List.mem_or_eq_of_mem_set hw' with hw' | rfl
      · exact h.tokens hopen w' hw' hwaiting
      · refine h.tokens hopen w hmem ?_
        simp only at hwaiting
        generalize w.phase = p at hhop
        cases hhop with
        | wait hempty hopen => exact absurd hempty hqueue
        | park => rfl
        | _ => cases hwaiting
    simp only [BusWorkers.move]
    cases hp : w.phase.isBusy with
    | false =>
      rw [hp, Bool.toNat_false] at hcount
      omega
    | true =>
      rw [hp, hbusy hp] at hcount
      omega

/-- A worker goes from one phase in which it will look at the inbox to another, and the inbox does
not grow. -/
theorem Watched.busy (h : Watched s) (hi : s.workers[i]? = some w) {q : BusPhase}
    {queue : List ℕ} (hp : w.phase.isBusy = true) (hq : q.isBusy = true)
    (hparking : ∀ w' ∈ s.workers.set i { w with phase := q }, w'.phase = .parking → queue = [])
    (hlength : queue.length ≤ s.queue.length) : Watched { s.move i w q with queue } := by
  have hcount := countP_set_add (fun w : BusWorker => w.phase.isBusy) hi { w with phase := q }
  simp only at hcount
  rw [hp, hq] at hcount
  refine ⟨hparking, fun hopen w' hw' hwaiting => ?_⟩
  rcases List.mem_or_eq_of_mem_set hw' with hw' | rfl
  · have hbefore := h.tokens hopen w' hw' hwaiting
    simp only [BusWorkers.move]
    omega
  · rw [BusPhase.isWaiting_of_isBusy hq] at hwaiting
    cases hwaiting

/-- A notification goes to a parked worker: there is one notification less to come, and one worker
more that will look at the inbox. -/
theorem Watched.notifyOne (h : Watched s) (hguarded : s.Guarded) {task : ℕ}
    (htask : task ∈ s.publishing) (hi : s.workers[i]? = some w) (hparked : w.phase = .parked) :
    Watched { s.move i w .woken with publishing := s.publishing.erase task } := by
  have hmoved := h.move hguarded hi (hparked ▸ Hop.wake)
  refine ⟨hmoved.parking, fun hopen w' hw' hwaiting => ?_⟩
  have hbefore := h.tokens hopen w (List.mem_of_getElem? hi) (by rw [hparked]; rfl)
  have hcount := countP_set_add (fun w : BusWorker => w.phase.isBusy) hi
    { w with phase := .woken }
  have hold : (w.phase.isBusy).toNat = 0 := by
    rw [hparked]
    rfl
  have hnew : (BusPhase.woken.isBusy).toNat = 1 := rfl
  have herase := List.length_erase_of_mem htask
  have hpos := List.length_pos_of_mem htask
  simp only [BusWorkers.move] at hcount ⊢
  omega

/-- A notification goes to nobody: who waits is about to park, and has found the inbox empty. -/
theorem Watched.notifyNobody (h : Watched s) {task : ℕ}
    (hnobody : s.workers.any (·.phase = .parked) = false) :
    Watched { s with publishing := s.publishing.erase task } := by
  refine ⟨h.parking, fun hopen w hw hwaiting => ?_⟩
  have hparking : w.phase = .parking := by
    cases hphase : w.phase with
    | parking => rfl
    | parked =>
      have hsome : s.workers.any (·.phase = .parked) = true :=
        List.any_eq_true.mpr ⟨w, hw, by simp [hphase]⟩
      rw [hsome] at hnobody
      cases hnobody
    | _ =>
      rw [hphase] at hwaiting
      cases hwaiting
  simp [h.parking w hw hparking]

/-- Every change of the bus leaves the queue watched. -/
theorem Watched.change (h : Watched s) (hguarded : s.Guarded) (hchange : Change s l s') :
    Watched s' := by
  have hunlocked (hfree : s.lockFree = true) (w : BusWorker) (hw : w ∈ s.workers) :
      w.holdsLock = false := by
    simpa using List.all_eq_true.mp hfree w hw
  have hclosed (hidle : s.stopping ≠ .idle) (hcalled : s.stopping ≠ .called) :
      ¬ s.closed = false := by
    simp [hguarded.closing hidle hcalled]
  cases hchange with
  | none hstarts hfinishes => exact h
  | record => exact ⟨h.parking, h.tokens⟩
  | start hstopped hidle => exact ⟨h.parking, h.tokens⟩
  | stop hspawned => exact ⟨h.parking, h.tokens⟩
  | publish hfree =>
    refine ⟨fun w hw hparking => ?_, fun hopen w hw hwaiting => ?_⟩
    · have hlock := hunlocked hfree w hw
      rw [BusWorker.holdsLock, hparking] at hlock
      cases hlock
    · have hbefore := h.tokens hopen w hw hwaiting
      simp only [List.length_append, List.length_singleton]
      omega
  | spawn hspawning =>
    refine ⟨fun w hw hparking => ?_, fun hopen w hw hwaiting => ?_⟩
    · rcases List.mem_append.mp hw with hw | hw
      · exact h.parking w hw hparking
      · rw [List.mem_singleton.mp hw] at hparking
        cases hparking
    · rcases List.mem_append.mp hw with hw | hw
      · have hbefore := h.tokens hopen w hw hwaiting
        simp only [List.countP_append]
        omega
      · rw [List.mem_singleton.mp hw] at hwaiting
        cases hwaiting
  | setStop hcalled => exact ⟨h.parking, by simp⟩
  | notifyAll hflagged =>
    refine ⟨fun w hw hparking => ?_, fun hopen => ?_⟩
    · obtain ⟨w', hw', rfl⟩ := List.mem_map.mp hw
      refine h.parking w' hw' ?_
      unfold wakeWorker at hparking
      split at hparking
      · cases hparking
      · exact hparking
    · exact absurd hopen (hclosed (by simp [hflagged]) (by simp [hflagged]))
  | request hdeleting hnext =>
    refine ⟨fun w hw hparking => ?_, fun hopen => ?_⟩
    · rcases List.mem_or_eq_of_mem_set hw with hw | rfl
      · exact h.parking w hw hparking
      · exact h.parking _ (List.mem_of_getElem? hnext) hparking
    · exact absurd hopen (hclosed (by simp [hdeleting]) (by simp [hdeleting]))
  | clear hdeleting hnext => exact ⟨by simp, by simp⟩
  | join hdeleting hnext hreturned => exact ⟨h.parking, h.tokens⟩
  | notifyOne htask hi hparked => exact h.notifyOne hguarded htask hi hparked
  | notifyNobody htask hnobody => exact h.notifyNobody hnobody
  | move hi hhop hstarts hfinishes => exact h.move hguarded hi hhop
  | @take i w task queue hi hphase hqueue =>
    refine h.busy hi ?_ rfl (fun w' hw' hparking => ?_) (by simp [hqueue])
    · rcases hphase with hphase | ⟨hphase, -⟩ <;> rw [hphase] <;> rfl
    · have hlock := unlocked_of_take hguarded hi hphase w' hw'
      rw [BusWorker.holdsLock, hparking] at hlock
      cases hlock
  | @finish i w task hi hrunning =>
    refine h.busy hi (by rw [hrunning]; rfl) rfl (fun w' hw' hparking => ?_) le_rfl
    rcases List.mem_or_eq_of_mem_set hw' with hw' | rfl
    · exact h.parking w' hw' hparking
    · cases hparking

/-- The queue is watched after every run. -/
theorem watched_run (steps : List BusStep) : Watched (run {} steps) := by
  have hboth : Guarded (run {} steps) ∧ Watched (run {} steps) :=
    steps.foldlRecOn step (motive := fun s => Guarded s ∧ Watched s)
      ⟨guarded_empty, watched_empty⟩ fun s ⟨hguarded, hwatched⟩ l _ => by
        refine ⟨?_, hwatched.change hguarded (change_step s l)⟩
        rcases step_cases s l with hsame | htransition
        · rwa [hsame]
        · exact hguarded.transition htransition
  exact hboth.2

/-! ### A bus that stays up -/

/-- The workers are started and not told to stop, and there is one or one is about to be
created. -/
structure Up (s : BusWorkers) : Prop where
  running : s.running = true
  idle : s.stopping = .idle
  unclosed : s.closed = false
  staffed : 0 < s.workers.length + s.spawning

/-- The workers stay up until `stop_workers` is called. -/
theorem Up.change (h : Up s) (hchange : Change s l s') (hl : l ≠ .call .stop) : Up s' := by
  have hstaffed := h.staffed
  have hidle := h.idle
  cases hchange with
  | start hstopped => rw [h.running] at hstopped; cases hstopped
  | stop => exact absurd rfl hl
  | spawn hspawning =>
    refine ⟨h.running, hidle, h.unclosed, ?_⟩
    simp only [List.length_append, List.length_singleton]
    omega
  | setStop hcalled => rw [hidle] at hcalled; cases hcalled
  | notifyAll hflagged => rw [hidle] at hflagged; cases hflagged
  | request hdeleting | clear hdeleting | join hdeleting => rw [hidle] at hdeleting; cases hdeleting
  | notifyOne | move | take | finish =>
    exact ⟨h.running, hidle, h.unclosed, by simpa [BusWorkers.move] using hstaffed⟩
  | none | record | publish | notifyNobody => exact ⟨h.running, hidle, h.unclosed, hstaffed⟩

/-- How far the bus is from starting a task. -/
def weight (s : BusWorkers) (task : ℕ) : ℕ :=
  (s.workers.map (·.phase.rank)).sum + 10 * s.queue.idxOf task + 5 * s.spawning

/-- Nobody has moved, and no notification has been used up that somebody waits for. -/
structure Still (s s' : BusWorkers) : Prop where
  workers : s'.workers = s.workers
  spawning : s'.spawning = s.spawning
  publishing : ∀ w ∈ s.workers, w.phase = .parked → s.publishing ⊆ s'.publishing

/-- When a worker moves to a lower rank, the weight falls. -/
theorem weight_move_lt {q : BusPhase} {task : ℕ} (hi : s.workers[i]? = some w)
    (hrank : q.rank < w.phase.rank) (hworkers : s'.workers = s.workers.set i { w with phase := q })
    (hqueue : s'.queue = s.queue) (hspawning : s'.spawning = s.spawning) :
    s'.weight task < s.weight task := by
  have hsum := sum_map_set_add (fun w : BusWorker => w.phase.rank) hi { w with phase := q }
  simp only at hsum
  unfold weight
  rw [hworkers, hqueue, hspawning]
  omega

/-- Moves that can be made while there are tasks. -/
theorem Hop.rank_lt {p q : BusPhase} (hhop : Hop s false p q) (hqueue : s.queue ≠ []) :
    q.rank < p.rank := by
  cases hhop with
  | leave hstop => cases hstop
  | miss hempty | wait hempty | drained hempty => exact absurd hempty hqueue
  | enter | lock | relock | pass | park | wake => decide

/-- Every step brings the bus closer to starting a task of the inbox, starts it, or leaves the
others as they are. -/
theorem Up.weight_change (h : Up s) (hguarded : s.Guarded) (hnodup : s.queue.Nodup) {task : ℕ}
    (htask : task ∈ s.queue) (hchange : Change s l s') (hl : l ≠ .call .stop) :
    task ∉ s'.queue ∨
      task ∈ s'.queue ∧ (s'.weight task < s.weight task ∨
        s'.weight task = s.weight task ∧ Still s s') := by
  have hidle := h.idle
  have hqueue : s.queue ≠ [] := List.ne_nil_of_mem htask
  have hless (hsame : s'.queue = s.queue) (hlt : s'.weight task < s.weight task) :
      task ∈ s'.queue ∧ (s'.weight task < s.weight task ∨
        s'.weight task = s.weight task ∧ Still s s') :=
    ⟨hsame ▸ htask, Or.inl hlt⟩
  cases hchange with
  | start hstopped => rw [h.running] at hstopped; cases hstopped
  | stop => exact absurd rfl hl
  | setStop hcalled => rw [hidle] at hcalled; cases hcalled
  | notifyAll hflagged => rw [hidle] at hflagged; cases hflagged
  | request hdeleting | clear hdeleting | join hdeleting => rw [hidle] at hdeleting; cases hdeleting
  | none | record =>
    exact Or.inr ⟨htask, Or.inr ⟨rfl, rfl, rfl, fun _ _ _ => List.Subset.refl _⟩⟩
  | publish hfree =>
    refine Or.inr ⟨List.mem_append_left _ htask, Or.inr ⟨?_, rfl, rfl, fun _ _ _ =>
      List.subset_append_left _ _⟩⟩
    simp only [weight, List.idxOf_append_of_mem htask]
  | spawn hspawning =>
    refine Or.inr (hless rfl ?_)
    simp only [weight, List.map_append, List.sum_append, hspawning]
    simp [BusWorker.created, BusPhase.rank]
    omega
  | notifyOne htask' hi hparked =>
    refine Or.inr (hless rfl (weight_move_lt hi ?_ rfl rfl rfl))
    rw [hparked]
    decide
  | notifyNobody htask' hnobody =>
    refine Or.inr ⟨htask, Or.inr ⟨rfl, rfl, rfl, fun w hw hparked => ?_⟩⟩
    have hsome : s.workers.any (·.phase = .parked) = true :=
      List.any_eq_true.mpr ⟨w, hw, by simp [hparked]⟩
    rw [hsome] at hnobody
    cases hnobody
  | @move k i w q hi hhop hstarts hfinishes =>
    rw [(hguarded.unclosed h.unclosed w (List.mem_of_getElem? hi)).2.1] at hhop
    exact Or.inr (hless rfl (weight_move_lt hi (hhop.rank_lt hqueue) rfl rfl rfl))
  | @take i w task' queue hi hphase htaken =>
    by_cases hmem : task ∈ queue
    · refine Or.inr ⟨hmem, Or.inl ?_⟩
      rw [htaken] at hnodup
      have hne : task' ≠ task := fun heq => (List.nodup_cons.mp hnodup).1 (heq ▸ hmem)
      have hindex : s.queue.idxOf task = queue.idxOf task + 1 := by
        rw [htaken, List.idxOf_cons_ne _ hne]
      have hrank : BusPhase.rank (.running task') ≤ w.phase.rank + 2 := by
        rcases hphase with hphase | ⟨hphase, -⟩ <;> rw [hphase] <;> simp [BusPhase.rank]
      have hsum := sum_map_set_add (fun w : BusWorker => w.phase.rank) hi
        { w with phase := .running task' }
      simp only at hsum
      simp only [weight, BusWorkers.move, hindex]
      omega
    · exact Or.inl hmem
  | finish hi hrunning =>
    refine Or.inr (hless rfl (weight_move_lt hi ?_ rfl rfl rfl))
    rw [hrunning]
    exact Nat.lt_succ_self 4

/-! ### Some step is ready -/

/-- The steps that move a worker or create one. -/
inductive Ready (s : BusWorkers) : BusStep → Prop
  | spawn (hspawning : s.spawning ≠ 0) : Ready s .spawn
  | unlock {k : ℕ} {v : BusWorker} (hi : s.workers[k]? = some v) (hlock : v.holdsLock = true) :
      Ready s (.worker k)
  | work {k : ℕ} {v : BusWorker} (hi : s.workers[k]? = some v) (hbusy : v.phase.isBusy = true)
      (hfree : s.lockFree = true) : Ready s (.worker k)
  | notify {task k : ℕ} {v : BusWorker} (htask : task ∈ s.publishing)
      (hi : s.workers[k]? = some v) (hparked : v.phase = .parked) : Ready s (.notifyOne task k)

/-- A worker that is ready stays ready while the bus stands still. -/
theorem Ready.still (h : Ready s l) (hstill : Still s s') : Ready s' l := by
  have hworkers := hstill.workers
  cases h with
  | spawn hspawning => exact .spawn (hstill.spawning ▸ hspawning)
  | unlock hi hlock => exact .unlock (hworkers ▸ hi) hlock
  | work hi hbusy hfree =>
    refine .work (hworkers ▸ hi) hbusy ?_
    unfold lockFree at hfree ⊢
    rwa [hworkers]
  | notify htask hi hparked =>
    exact .notify (hstill.publishing _ (List.mem_of_getElem? hi) hparked htask) (hworkers ▸ hi)
      hparked

/-- Moving a worker to another phase changes the workers. -/
theorem set_phase_ne {q : BusPhase} (hi : s.workers[i]? = some w) (hphase : q ≠ w.phase) :
    s.workers.set i { w with phase := q } ≠ s.workers := by
  intro heq
  have hlength := (List.getElem?_eq_some_iff.mp hi).1
  have hget : (s.workers.set i { w with phase := q })[i]? = some { w with phase := q } :=
    List.getElem?_set_self hlength
  rw [heq, hi] at hget
  exact hphase (congrArg BusWorker.phase (Option.some.inj hget)).symm

/-- A worker that holds the lock, or can take it, moves. -/
theorem workerStep_moves (hi : s.workers[i]? = some w)
    (hcan : w.holdsLock = true ∨ w.phase.isBusy = true ∧ s.lockFree = true) :
    (s.workerStep i w).workers ≠ s.workers := by
  obtain ⟨phase, stopRequested⟩ := w
  cases phase with
  | loopTest =>
    refine set_phase_ne hi ?_
    split <;> simp
  | trying =>
    have hfree := hcan.elim (fun hlock => by cases hlock) And.right
    simp only [workerStep, hfree, if_true]
    split <;> exact set_phase_ne hi (by simp)
  | locking | woken =>
    have hfree := hcan.elim (fun hlock => by cases hlock) And.right
    simp only [workerStep, hfree, if_true]
    exact set_phase_ne hi (by simp)
  | testing =>
    refine set_phase_ne hi ?_
    split <;> simp
  | parking => exact set_phase_ne hi (by simp)
  | taking =>
    simp only [workerStep]
    split <;> exact set_phase_ne hi (by simp)
  | running task => exact set_phase_ne hi (by simp)
  | parked | returned =>
    rcases hcan with hlock | ⟨hbusy, -⟩
    · cases hlock
    · cases hbusy

/-- What is ready has an effect. -/
theorem Ready.moves (h : Ready s l) (hworkers : (s.step l).workers = s.workers) :
    (s.step l).spawning ≠ s.spawning := by
  cases h with
  | spawn hspawning =>
    obtain ⟨k, hk⟩ := Nat.exists_eq_succ_of_ne_zero hspawning
    simp [step, hk]
  | unlock hi hlock =>
    simp only [step, hi] at hworkers
    exact absurd hworkers (workerStep_moves hi (Or.inl hlock))
  | work hi hbusy hfree =>
    simp only [step, hi] at hworkers
    exact absurd hworkers (workerStep_moves hi (Or.inr ⟨hbusy, hfree⟩))
  | @notify task i w htask hi hparked =>
    have hsome : s.workers.any (·.phase = .parked) = true :=
      List.any_eq_true.mpr ⟨w, List.mem_of_getElem? hi, by simp [hparked]⟩
    simp only [step, htask, hsome, hi, hparked, if_true] at hworkers
    exact absurd hworkers (set_phase_ne hi (by simp [hparked]))

/-- **No lost wakeup.** While there are tasks and the bus is up, some step is ready. -/
theorem exists_ready (hguarded : s.Guarded) (hwatched : s.Watched) (hup : s.Up)
    (hqueue : s.queue ≠ []) : ∃ l, Ready s l := by
  by_cases hspawning : s.spawning = 0
  swap
  · exact ⟨_, .spawn hspawning⟩
  have hstaffed := hup.staffed
  by_cases hfree : s.lockFree = true
  swap
  · -- Somebody holds the lock and moves on.
    obtain ⟨w, hw, hlock⟩ : ∃ w ∈ s.workers, w.holdsLock = true := by
      simpa [lockFree] using hfree
    obtain ⟨i, hi⟩ := List.mem_iff_getElem?.mp hw
    exact ⟨_, .unlock hi hlock⟩
  by_cases hbusy : ∃ w ∈ s.workers, w.phase.isBusy = true
  · obtain ⟨w, hw, hbusy⟩ := hbusy
    obtain ⟨i, hi⟩ := List.mem_iff_getElem?.mp hw
    exact ⟨_, .work hi hbusy hfree⟩
  -- All workers are parked, so that a notification is due.
  obtain ⟨w, hw⟩ := List.exists_mem_of_length_pos (l := s.workers) (by omega)
  have hwaiting : w.phase.isWaiting = true := by
    have hnot : w.phase.isBusy ≠ true := fun h => hbusy ⟨w, hw, h⟩
    have hreturned := (hguarded.unclosed hup.unclosed w hw).1
    cases hphase : w.phase with
    | parking | parked => rfl
    | returned => exact absurd hphase hreturned
    | _ =>
      rw [hphase] at hnot
      exact absurd rfl hnot
  have hparked := eq_parked_of_waiting hwaiting (by simpa using List.all_eq_true.mp hfree w hw)
  have htokens := hwatched.tokens hup.unclosed w hw hwaiting
  have hnone : s.workers.countP (·.phase.isBusy) = 0 :=
    List.countP_eq_zero.mpr fun w hw h => hbusy ⟨w, hw, h⟩
  have hpos := List.length_pos_of_ne_nil hqueue
  obtain ⟨task, htask⟩ := List.exists_mem_of_length_pos (l := s.publishing) (by omega)
  obtain ⟨i, hi⟩ := List.mem_iff_getElem?.mp hw
  exact ⟨_, .notify htask hi hparked⟩

/-- A worker that runs a task runs it until its own next step. -/
theorem Up.running_change (h : Up s) {task : ℕ} (hi : s.workers[i]? = some w)
    (hrunning : w.phase = .running task) (hchange : Change s l s') (hl : l ≠ .call .stop)
    (hother : l ≠ .worker i) : ∃ w', s'.workers[i]? = some w' ∧ w'.phase = .running task := by
  have hidle := h.idle
  have hset {j : ℕ} {v v' : BusWorker} (hj : s.workers[j]? = some v)
      (hne : v.phase ≠ .running task) : (s.workers.set j v')[i]? = some w := by
    have hji : j ≠ i := by
      rintro rfl
      rw [hi] at hj
      exact hne (Option.some.inj hj ▸ hrunning)
    rw [List.getElem?_set_ne hji, hi]
  cases hchange with
  | start hstopped => rw [h.running] at hstopped; cases hstopped
  | stop => exact absurd rfl hl
  | setStop hcalled => rw [hidle] at hcalled; cases hcalled
  | notifyAll hflagged => rw [hidle] at hflagged; cases hflagged
  | request hdeleting | clear hdeleting | join hdeleting => rw [hidle] at hdeleting; cases hdeleting
  | none | record | publish | notifyNobody => exact ⟨w, hi, hrunning⟩
  | spawn hspawning =>
    refine ⟨w, ?_, hrunning⟩
    rw [List.getElem?_append_left (List.getElem?_eq_some_iff.mp hi).1, hi]
  | notifyOne htask hj hparked => exact ⟨w, hset hj (by simp [hparked]), hrunning⟩
  | @move k j v q hj hhop hstarts hfinishes =>
    refine ⟨w, hset hj fun heq => ?_, hrunning⟩
    have htask := hhop.tasks.2.1
    rw [heq] at htask
    cases htask
  | @take j v task' queue hj hphase hqueue =>
    refine ⟨w, hset hj fun heq => ?_, hrunning⟩
    rw [heq] at hphase
    rcases hphase with htaking | ⟨htrying, -⟩
    · cases htaking
    · cases htrying
  | @finish j v task' hj hrunning' =>
    refine ⟨w, ?_, hrunning⟩
    have hji : j ≠ i := fun heq => hother (heq ▸ rfl)
    rw [BusWorkers.move, List.getElem?_set_ne hji, hi]

end BusWorkers

namespace BusLog

open BusWorkers (Guarded Recorded Restarts Ready Up Watched change_step exists_ready
  guarded_recorded_run watched_run)

variable {steps : List BusStep} {ls : ℕ → BusStep} {task : ℕ}

/-- A schedule goes on with a run. -/
theorem trace_run (n : ℕ) :
    trace step (run steps) ls n = run (steps ++ (List.range n).map ls) := by
  rw [trace_eq_foldl, run, run, List.foldl_append]

/-- The lock of the queue is held by one thread at a time after every run. -/
theorem guarded_run (steps : List BusStep) : Guarded (run steps).bus := by
  rw [run_bus]
  exact (guarded_recorded_run steps).1

/-- No event stands in the queue twice. -/
theorem nodup_queue (steps : List BusStep) : (run steps).bus.queue.Nodup := by
  have hnodup : (List.range (run steps).bus.published).Nodup := List.nodup_range
  rw [← (run_kept steps).2.started_eq] at hnodup
  exact (List.nodup_append.mp hnodup).2.1

/-- The number of published events never falls. -/
theorem published_step_le (x : BusLog) (l : BusStep) :
    x.bus.published ≤ (x.step l).bus.published := by
  have hchange := change_step x.bus l
  change x.bus.published ≤ (x.bus.step l).published
  generalize x.bus.step l = s' at hchange
  cases hchange with
  | publish => exact Nat.le_succ _
  | _ => exact le_rfl

/-- A bus that was started and not restarted is up if it has workers. -/
theorem up_of_running (hrunning : (run steps).bus.running = true)
    (honce : ¬ Restarts (run steps).bus.calls)
    (hstaffed : 0 < (run steps).bus.workers.length + (run steps).bus.spawning) :
    Up (run steps).bus := by
  have hrecorded : Recorded (run steps).bus := by
    rw [run_bus]
    exact (guarded_recorded_run steps).2
  refine ⟨hrunning, hrecorded.idle hrunning, ?_, hstaffed⟩
  cases hclosed : (run steps).bus.closed with
  | false => rfl
  | true => exact absurd (hrecorded.restarted hrunning hclosed) honce

/-- A task of the inbox is taken. -/
theorem inbox_leadsTo (hup : ∀ n, Up (trace step (run steps) ls n).bus)
    (hstays : ∀ n, ls n ≠ .call .stop) (hspawn : AgainAndAgain (· = .spawn) ls)
    (hworker : ∀ i, AgainAndAgain (· = .worker i) ls)
    (hnotify : ∀ task i, AgainAndAgain (· = .notifyOne task i) ls) :
    LeadsTo (trace step (run steps) ls) (fun x => task ∈ x.bus.queue)
      fun x => task ∉ x.bus.queue := by
  refine @leadsTo_of_ready _ _ _ ls _ _ (fun l x => Ready x.bus l) (fun x => x.bus.weight task)
    (fun n htask => ?_) fun n htask => ?_
  · have hguarded : Guarded (trace step (run steps) ls n).bus := trace_run n ▸ guarded_run _
    have hnodup : (trace step (run steps) ls n).bus.queue.Nodup := trace_run n ▸ nodup_queue _
    rcases (hup n).weight_change hguarded hnodup htask (change_step _ (ls n)) (hstays n) with
      hgone | ⟨hmem, hlt | ⟨heq, hstill⟩⟩
    · exact Or.inl hgone
    · exact Or.inr ⟨hmem, Or.inl hlt⟩
    · exact Or.inr ⟨hmem, Or.inr ⟨heq,
        fun hready => hready.moves hstill.workers hstill.spawning,
        fun l hready => hready.still hstill⟩⟩
  · have hwatched : Watched (trace step (run steps) ls n).bus := by
      rw [trace_run, run_bus]
      exact watched_run _
    have hguarded : Guarded (trace step (run steps) ls n).bus := trace_run n ▸ guarded_run _
    obtain ⟨l, hready⟩ := exists_ready hguarded hwatched (hup n) (List.ne_nil_of_mem htask)
    refine ⟨l, ?_, hready⟩
    cases hready with
    | spawn => exact hspawn
    | unlock | work => exact hworker _
    | notify => exact hnotify _ _

/-- A task that is being run is finished. -/
theorem active_leadsTo (hup : ∀ n, Up (trace step (run steps) ls n).bus)
    (hstays : ∀ n, ls n ≠ .call .stop) (hworker : ∀ i, AgainAndAgain (· = .worker i) ls) :
    LeadsTo (trace step (run steps) ls) (fun x => task ∈ x.bus.active)
      fun x => task ∈ x.finished := by
  intro n hactive
  obtain ⟨w, hw, htask⟩ := List.mem_filterMap.mp hactive
  obtain ⟨i, hi⟩ := List.mem_iff_getElem?.mp hw
  have hrunning : w.phase = .running task := by
    cases hphase : w.phase with
    | running task' =>
      rw [hphase] at htask
      rw [Option.some.inj htask]
    | _ =>
      rw [hphase] at htask
      cases htask
  -- It is the step of this worker that finishes the task.
  have hleads : LeadsTo (trace step (run steps) ls)
      (fun x => ∃ w, x.bus.workers[i]? = some w ∧ w.phase = .running task)
      fun x => task ∈ x.finished := by
    refine leadsTo_of_measure (hworker i) (fun _ => 0) fun n hbusy => ?_
    obtain ⟨w, hi, hrunning⟩ := hbusy
    by_cases hl : ls n = .worker i
    · left
      have hfinishes : (trace step (run steps) ls n).bus.finishes (ls n) = some task := by
        simp only [BusWorkers.finishes, hl, hi, hrunning, BusPhase.task?]
      refine List.mem_append_right _ ?_
      rw [hfinishes]
      exact List.mem_singleton_self task
    · exact Or.inr ⟨(hup n).running_change hi hrunning (change_step _ _) (hstays n) hl,
        le_rfl, fun heq => absurd heq hl⟩
  exact hleads n ⟨w, hi, hrunning⟩

/-- **Events are delivered.** A bus has been started and not restarted, and it has a worker or is
about to create one. From then on it is not stopped, while events are published at will, and
`start_workers`, the workers and the publishers get their turns again and again. Then every event
that has been published is run to its end; no worker needs to wake without a notification. -/
theorem event_delivered (steps : List BusStep) (ls : ℕ → BusStep) (task : ℕ)
    (hpublished : task < (run steps).bus.published)
    (hrunning : (run steps).bus.running = true) (honce : ¬ Restarts (run steps).bus.calls)
    (hstaffed : 0 < (run steps).bus.workers.length + (run steps).bus.spawning)
    (hstays : ∀ n, ls n ≠ .call .stop) (hspawn : AgainAndAgain (· = .spawn) ls)
    (hworker : ∀ i, AgainAndAgain (· = .worker i) ls)
    (hnotify : ∀ task i, AgainAndAgain (· = .notifyOne task i) ls) :
    ∃ n, task ∈ (trace step (run steps) ls n).finished := by
  have hup (n : ℕ) : Up (trace step (run steps) ls n).bus := by
    induction n with
    | zero => exact up_of_running hrunning honce hstaffed
    | succ n ih => exact ih.change (change_step _ _) (hstays n)
  have hkept (n : ℕ) : Kept (trace step (run steps) ls n) := trace_run n ▸ (run_kept _).2
  have hcounted (n : ℕ) : task < (trace step (run steps) ls n).bus.published := by
    induction n with
    | zero => exact hpublished
    | succ n ih => exact ih.trans_le (published_step_le _ _)
  -- Out of the inbox, the event is finished or being run.
  have htaken {n : ℕ} (hgone : task ∉ (trace step (run steps) ls n).bus.queue) :
      task ∈ (trace step (run steps) ls n).finished ∨
        task ∈ (trace step (run steps) ls n).bus.active := by
    have hmem := List.mem_range.mpr (hcounted n)
    rw [← (hkept n).started_eq] at hmem
    have hstarted := (List.mem_append.mp hmem).resolve_right hgone
    exact List.mem_append.mp ((hkept n).finished_perm.mem_iff.mpr hstarted)
  have hinbox : ∃ n, task ∉ (trace step (run steps) ls n).bus.queue := by
    by_cases hqueue : task ∈ (trace step (run steps) ls 0).bus.queue
    · obtain ⟨n, -, hgone⟩ := inbox_leadsTo hup hstays hspawn hworker hnotify 0 hqueue
      exact ⟨n, hgone⟩
    · exact ⟨0, hqueue⟩
  obtain ⟨n, hgone⟩ := hinbox
  rcases htaken hgone with hfinished | hactive
  · exact ⟨n, hfinished⟩
  · obtain ⟨m, -, hfinished⟩ := active_leadsTo hup hstays hworker n hactive
    exact ⟨m, hfinished⟩

/-- Two workers are wanted and one is there when an event is published. -/
def earlyEvent : List BusStep := [.call (.start 2), .spawn, .call .publish]

/-- The steps of a bus that stays up, by number. -/
def numberedStep (k : ℕ) : BusStep :=
  match k.unpair.1 with
  | 0 => .spawn
  | 1 => .worker k.unpair.2
  | 2 => .notifyOne k.unpair.2.unpair.1 k.unpair.2.unpair.2
  | _ => .call .publish

/-- Every step of a bus that stays up, again and again. -/
def everyStep (n : ℕ) : BusStep := numberedStep n.unpair.1

/-- In this schedule every step is taken again and again. -/
theorem everyStep_again (k : ℕ) : AgainAndAgain (· = numberedStep k) everyStep := by
  refine fun i => ⟨Nat.pair k i, Nat.right_le_pair k i, ?_⟩
  rw [everyStep, Nat.unpair_pair]

/-- In this schedule nobody stops the workers. -/
theorem everyStep_ne_stop (n : ℕ) : everyStep n ≠ .call .stop := by
  unfold everyStep numberedStep
  split <;> nofun

/-- The first event that a run publishes is handled in this schedule. -/
theorem event_delivered_everyStep :
    (∀ i, ∃ j, i ≤ j ∧ everyStep j = .call .publish) ∧
      ∃ n, 0 ∈ (trace step (run earlyEvent) everyStep n).finished := by
  refine ⟨fun i => ?_, event_delivered earlyEvent everyStep 0 (by decide) (by decide) ?_
    (by decide) everyStep_ne_stop ?_ (fun i => ?_) fun task i => ?_⟩
  · have hagain := everyStep_again (Nat.pair 3 0)
    simp only [numberedStep, Nat.unpair_pair] at hagain
    exact hagain i
  · rintro ⟨n, m, hsublist⟩
    have hthree : 3 ≤ (run earlyEvent).bus.calls.length := hsublist.length_le
    exact absurd hthree (by decide)
  · have hagain := everyStep_again (Nat.pair 0 0)
    simpa only [numberedStep, Nat.unpair_pair] using hagain
  · have hagain := everyStep_again (Nat.pair 1 i)
    simpa only [numberedStep, Nat.unpair_pair] using hagain
  · have hagain := everyStep_again (Nat.pair 2 (Nat.pair task i))
    simpa only [numberedStep, Nat.unpair_pair] using hagain

end BusLog

end TtsServer
