import TtsServer.BusWorkers

/-!
# The events of the bus

What the workers of the bus do with the events that are published asynchronously: they start
them in the order of publication, each once, and `stop_workers` returns only when no listener
is running any more. With one worker the events are also finished in that order. Events that
are still in the inbox when the workers stop stay there. As in `BusWorkers`, any thread may
publish, and one thread starts and stops the workers.
-/

namespace TtsServer

open Lib

/-- The task that a worker in this phase is running. -/
def BusPhase.task? : BusPhase → Option ℕ
  | running task => some task
  | _ => none

namespace BusWorkers

/-- The task that a step takes out of the inbox. -/
def starts (s : BusWorkers) : BusStep → Option ℕ
  | .worker i =>
    match s.workers[i]? with
    | some w =>
      if w.phase = .taking ∨ w.phase = .trying ∧ s.lockFree = true then s.queue.head? else none
    | none => none
  | _ => none

/-- The task that a step finishes. -/
def finishes (s : BusWorkers) : BusStep → Option ℕ
  | .worker i =>
    match s.workers[i]? with
    | some w => w.phase.task?
    | none => none
  | _ => none

/-- The tasks that are being run. -/
def active (s : BusWorkers) : List ℕ := s.workers.filterMap (·.phase.task?)

/-! ### What a step can do -/

variable {s s' : BusWorkers} {l : BusStep}

/-- The moves of a worker that neither take nor finish a task. -/
inductive Hop (s : BusWorkers) (stopRequested : Bool) : BusPhase → BusPhase → Prop
  | leave (hstop : stopRequested = true) : Hop s stopRequested .loopTest .returned
  | enter (hgo : stopRequested = false) : Hop s stopRequested .loopTest .trying
  | miss (hqueue : s.queue = []) : Hop s stopRequested .trying .locking
  | lock (hfree : s.lockFree = true) : Hop s stopRequested .locking .testing
  | relock (hfree : s.lockFree = true) : Hop s stopRequested .woken .testing
  | pass (htest : s.queue ≠ [] ∨ s.closed = true) : Hop s stopRequested .testing .taking
  | wait (hqueue : s.queue = []) (hopen : s.closed = false) :
      Hop s stopRequested .testing .parking
  | park : Hop s stopRequested .parking .parked
  | wake : Hop s stopRequested .parked .woken
  | drained (hqueue : s.queue = []) : Hop s stopRequested .taking .returned

/-- A worker that hops has no task before and after. -/
theorem Hop.tasks {stopRequested : Bool} {p q : BusPhase} (h : Hop s stopRequested p q) :
    p ≠ .returned ∧ p.task? = none ∧ q.task? = none := by
  cases h <;> exact ⟨nofun, rfl, rfl⟩

/-- The changes of the bus, with the steps that make them where that matters for the tasks. -/
inductive Change (s : BusWorkers) : BusStep → BusWorkers → Prop
  | none {k : BusStep} (hstarts : s.starts k = .none) (hfinishes : s.finishes k = .none) :
      Change s k s
  /-- A call without effect is on record. -/
  | record {c calls} : Change s (.call c) { s with calls }
  | start {n calls} (hstopped : s.running = false) (hidle : s.stopping = .idle) :
      Change s (.call (.start n)) { s with running := true, spawning := n, calls }
  | stop {calls} (hspawned : s.spawning = 0) :
      Change s (.call .stop) { s with running := false, stopping := .called, calls }
  | publish {calls} (hfree : s.lockFree = true) :
      Change s (.call .publish) { s with
        queue := s.queue ++ [s.published]
        published := s.published + 1
        publishing := s.publishing ++ [s.published]
        calls }
  | spawn {k} (hspawning : s.spawning = k + 1) :
      Change s .spawn { s with workers := s.workers ++ [.created], spawning := k }
  | setStop (hcalled : s.stopping = .called) :
      Change s .setStop { s with closed := true, stopping := .flagged }
  | notifyAll (hflagged : s.stopping = .flagged) :
      Change s .notifyAll { s with
        workers := s.workers.map wakeWorker
        announced := true
        stopping := .deleting 0 false }
  | request {next w} (hdeleting : s.stopping = .deleting next false)
      (hnext : s.workers[next]? = some w) :
      Change s .requestStop { s with
        workers := s.workers.set next { w with stopRequested := true }
        stopping := .deleting next true }
  | clear {next} (hdeleting : s.stopping = .deleting next false)
      (hnext : s.workers[next]? = .none) :
      Change s .requestStop { s with workers := [], stopping := .idle }
  | join {next w} (hdeleting : s.stopping = .deleting next true)
      (hnext : s.workers[next]? = some w) (hreturned : w.phase = .returned) :
      Change s .join { s with stopping := .deleting (next + 1) false }
  | notifyOne {task i w} (htask : task ∈ s.publishing) (hi : s.workers[i]? = some w)
      (hparked : w.phase = .parked) :
      Change s (.notifyOne task i)
        { s.move i w .woken with publishing := s.publishing.erase task }
  | notifyNobody {task i} (htask : task ∈ s.publishing)
      (hnobody : s.workers.any (·.phase = .parked) = false) :
      Change s (.notifyOne task i) { s with publishing := s.publishing.erase task }
  | move {k : BusStep} {i w q} (hi : s.workers[i]? = some w)
      (hhop : Hop s w.stopRequested w.phase q) (hstarts : s.starts k = .none)
      (hfinishes : s.finishes k = .none) : Change s k (s.move i w q)
  | take {i w task queue} (hi : s.workers[i]? = some w)
      (hphase : w.phase = .taking ∨ w.phase = .trying ∧ s.lockFree = true)
      (hqueue : s.queue = task :: queue) :
      Change s (.worker i) { s.move i w (.running task) with queue }
  | finish {i w task} (hi : s.workers[i]? = some w) (hrunning : w.phase = .running task) :
      Change s (.worker i) (s.move i w .loopTest)

/-- A step of a worker is one of the changes. -/
theorem change_worker {i : ℕ} {w : BusWorker} (hi : s.workers[i]? = some w) :
    Change s (.worker i) (s.workerStep i w) := by
  obtain ⟨phase, stopRequested⟩ := w
  have hsame (htask : phase.task? = .none)
      (hphase : ¬ (phase = .taking ∨ phase = .trying ∧ s.lockFree = true)) :
      Change s (.worker i) s :=
    .none (by simp only [starts, hi, if_neg hphase])
      (by simp only [finishes, hi, htask])
  have hmove {q : BusPhase} (hhop : Hop s stopRequested phase q)
      (hnot : phase = .taking ∨ phase = .trying ∧ s.lockFree = true → s.queue = []) :
      Change s (.worker i) (s.move i ⟨phase, stopRequested⟩ q) := by
    refine .move hi hhop ?_ (by simp only [finishes, hi, hhop.tasks.2.1])
    simp only [starts, hi]
    split
    · next htakes =>
      rw [hnot htakes]
      rfl
    · rfl
  cases phase with
  | loopTest =>
    cases stopRequested with
    | true => exact hmove (.leave rfl) (by simp)
    | false => exact hmove (.enter rfl) (by simp)
  | trying =>
    simp only [workerStep]
    split
    · next hfree =>
      split
      · next hqueue => exact hmove (.miss hqueue) fun _ => hqueue
      · next hqueue => exact .take hi (.inr ⟨rfl, hfree⟩) hqueue
    · next hfree => exact hsame rfl (by simp [hfree])
  | locking =>
    simp only [workerStep]
    split
    · next hfree => exact hmove (.lock hfree) (by simp)
    · exact hsame rfl (by simp)
  | testing =>
    simp only [workerStep]
    split
    · next htest =>
      simp only [Bool.or_eq_true, Bool.not_eq_true', List.isEmpty_eq_false_iff] at htest
      exact hmove (.pass htest) (by simp)
    · next htest =>
      simp only [Bool.or_eq_true, Bool.not_eq_true', List.isEmpty_eq_false_iff, not_or, not_not,
        Bool.not_eq_true] at htest
      exact hmove (.wait htest.1 htest.2) (by simp)
  | parking => exact hmove .park (by simp)
  | parked => exact hsame rfl (by simp)
  | woken =>
    simp only [workerStep]
    split
    · next hfree => exact hmove (.relock hfree) (by simp)
    · exact hsame rfl (by simp)
  | taking =>
    simp only [workerStep]
    split
    · next hqueue => exact hmove (.drained hqueue) fun _ => hqueue
    · next hqueue => exact .take hi (.inl rfl) hqueue
  | running task => exact .finish hi rfl
  | returned => exact hsame rfl (by simp)

/-- A call of the interface is a change. -/
theorem change_call (s : BusWorkers) (c : BusCall) : Change s (.call c) (s.step (.call c)) := by
  cases c with
  | start n =>
    simp only [step, call]
    split
    · next hidle =>
      split
      · exact .record
      · next hstopped => exact .start (by simpa using hstopped) hidle.2
    · exact .none rfl rfl
  | stop =>
    simp only [step, call]
    split
    · next hidle =>
      split
      · exact .stop hidle.1
      · exact .record
    · exact .none rfl rfl
  | publish =>
    simp only [step, call]
    split
    · next hfree => exact .publish hfree
    · exact .none rfl rfl

/-- Every step is one of the changes. -/
theorem change_step (s : BusWorkers) (l : BusStep) : Change s l (s.step l) := by
  cases l with
  | call c => exact change_call s c
  | spawn =>
    simp only [step]
    split
    · exact .none rfl rfl
    · next hspawning => exact .spawn hspawning
  | setStop =>
    simp only [step]
    split
    · next hcalled => exact .setStop hcalled
    · exact .none rfl rfl
  | notifyAll =>
    simp only [step]
    split
    · next hflagged => exact .notifyAll hflagged
    · exact .none rfl rfl
  | requestStop =>
    simp only [step]
    split
    · next hdeleting =>
      split
      · next hnext => exact .request hdeleting hnext
      · next hnext => exact .clear hdeleting hnext
    · exact .none rfl rfl
  | join =>
    simp only [step]
    split
    · next hdeleting =>
      split
      · next hnext =>
        split
        · next hreturned => exact .join hdeleting hnext hreturned
        · exact .none rfl rfl
      · exact .none rfl rfl
    · exact .none rfl rfl
  | worker i =>
    simp only [step]
    split
    · next hi => exact change_worker hi
    · next hi =>
      exact .none (by simp [starts, hi]) (by simp [finishes, hi])
  | notifyOne task i =>
    simp only [step]
    split
    · next htask =>
      split
      · split
        · next hi =>
          split
          · next hparked => exact .notifyOne htask hi hparked
          · exact .none rfl rfl
        · exact .none rfl rfl
      · next hnobody => exact .notifyNobody htask (by simpa using hnobody)
    · exact .none rfl rfl
  | wake i =>
    simp only [step]
    split
    · next hi =>
      split
      · next hparked => exact .move hi (hparked ▸ .wake) rfl rfl
      · exact .none rfl rfl
    · exact .none rfl rfl

/-! ### Workers are joined before they are removed -/

/-- The workers that `stop_workers` has passed have returned, and it runs only when no worker is
still to be created. -/
structure Joined (s : BusWorkers) : Prop where
  returned : ∀ {next requested}, s.stopping = .deleting next requested →
    ∀ w ∈ s.workers.take next, w.phase = .returned
  separate : s.stopping ≠ .idle → s.spawning = 0
  stopped : s.running = false → s.stopping = .idle → s.workers = [] ∧ s.spawning = 0

/-- An empty bus has no workers to join. -/
theorem joined_empty : Joined {} := ⟨nofun, fun h => absurd rfl h, fun _ _ => ⟨rfl, rfl⟩⟩

/-- A worker that moves has not returned, so that it is behind those that have been joined. -/
theorem Joined.move (h : Joined s) {i : ℕ} {w w' : BusWorker} (hi : s.workers[i]? = some w)
    (hphase : w.phase ≠ .returned) (hworkers : s'.workers = s.workers.set i w')
    (hstopping : s'.stopping = s.stopping) (hspawning : s'.spawning = s.spawning)
    (hrunning : s'.running = s.running) : Joined s' := by
  refine ⟨fun {next requested} hdeleting w'' hw'' => ?_, fun hbusy => ?_, fun hstopped hidle => ?_⟩
  · rw [hstopping] at hdeleting
    rw [hworkers] at hw''
    have hle : next ≤ i := by
      by_contra hlt
      have hmem : w ∈ s.workers.take next := by
        refine List.mem_of_getElem? (i := i) ?_
        rw [List.getElem?_take_of_lt (by omega), hi]
      exact hphase (h.returned hdeleting w hmem)
    rw [List.take_set_of_le hle] at hw''
    exact h.returned hdeleting w'' hw''
  · rw [hspawning]
    exact h.separate (hstopping ▸ hbusy)
  · rw [hrunning] at hstopped
    rw [hstopping] at hidle
    obtain ⟨hnone, hspawned⟩ := h.stopped hstopped hidle
    rw [hnone] at hi
    cases hi

/-- Every change keeps the order of joining and removing. -/
theorem Joined.change (h : Joined s) (hchange : Change s l s') : Joined s' := by
  cases hchange with
  | none hstarts hfinishes => exact h
  | record => exact ⟨h.returned, h.separate, h.stopped⟩
  | start hstopped hidle => exact ⟨h.returned, fun hbusy => absurd hidle hbusy, nofun⟩
  | stop hspawned => exact ⟨nofun, fun _ => hspawned, nofun⟩
  | publish hfree => exact ⟨h.returned, h.separate, h.stopped⟩
  | spawn hspawning =>
    have hidle : s.stopping = .idle := by
      by_contra hbusy
      rw [h.separate hbusy] at hspawning
      cases hspawning
    have hrunning : ¬ s.running = false := by
      intro hstopped
      rw [(h.stopped hstopped hidle).2] at hspawning
      cases hspawning
    exact ⟨fun hdeleting => by simp [hidle] at hdeleting, fun hbusy => absurd hidle hbusy,
      fun hstopped => absurd hstopped hrunning⟩
  | setStop hcalled => exact ⟨nofun, fun _ => h.separate (by simp [hcalled]), nofun⟩
  | notifyAll hflagged =>
    refine ⟨fun hdeleting w hw => ?_, fun _ => h.separate (by simp [hflagged]), nofun⟩
    obtain ⟨rfl, -⟩ := StopPhase.deleting.inj hdeleting
    rw [List.take_zero] at hw
    cases hw
  | request hdeleting hnext =>
    refine ⟨fun hdeleting' w' hw' => ?_, fun _ => h.separate (by simp [hdeleting]), nofun⟩
    obtain ⟨rfl, -⟩ := StopPhase.deleting.inj hdeleting'
    rw [List.take_set_of_le le_rfl] at hw'
    exact h.returned hdeleting w' hw'
  | clear hdeleting hnext =>
    exact ⟨nofun, fun hbusy => absurd rfl hbusy,
      fun _ _ => ⟨rfl, h.separate (by simp [hdeleting])⟩⟩
  | join hdeleting hnext hreturned =>
    refine ⟨fun hdeleting' w' hw' => ?_, fun _ => h.separate (by simp [hdeleting]), nofun⟩
    obtain ⟨rfl, -⟩ := StopPhase.deleting.inj hdeleting'
    rw [List.take_add_one, hnext] at hw'
    rcases List.mem_append.mp hw' with hw' | hw'
    · exact h.returned hdeleting w' hw'
    · rw [List.mem_singleton.mp hw']
      exact hreturned
  | notifyOne htask hi hparked => exact h.move hi (by simp [hparked]) rfl rfl rfl rfl
  | notifyNobody htask hnobody => exact ⟨h.returned, h.separate, h.stopped⟩
  | move hi hhop hstarts hfinishes => exact h.move hi hhop.tasks.1 rfl rfl rfl rfl
  | take hi hphase hqueue =>
    refine h.move hi ?_ rfl rfl rfl rfl
    rcases hphase with hphase | ⟨hphase, -⟩ <;> simp [hphase]
  | finish hi hrunning => exact h.move hi (by simp [hrunning]) rfl rfl rfl rfl

end BusWorkers

/-- The workers with the record of the tasks that have been started and finished. -/
structure BusLog where
  bus : BusWorkers := {}
  started : List ℕ := []
  finished : List ℕ := []

namespace BusLog

open BusWorkers (Change Joined joined_empty change_step)

/-- One step. -/
def step (x : BusLog) (l : BusStep) : BusLog :=
  { bus := x.bus.step l
    started := x.started ++ (x.bus.starts l).toList
    finished := x.finished ++ (x.bus.finishes l).toList }

/-- The steps in turn, on a new bus. -/
def run (steps : List BusStep) : BusLog := steps.foldl step {}

/-- The step is a call of `publish_async`. -/
def isPublish : BusStep → Bool
  | .call .publish => true
  | _ => false

/-- The number of events that are published in a run. A publication whose turn comes while a
worker has the lock of the inbox is not made: it has to wait for another turn. -/
def publications (steps : List BusStep) : ℕ :=
  (passing BusWorkers.step (fun s _ => s.lockFree) {} steps).countP isPublish

/-- The record does not change what the bus does. -/
theorem run_bus (steps : List BusStep) : (run steps).bus = BusWorkers.run {} steps := by
  have hfold (x : BusLog) : (steps.foldl step x).bus = steps.foldl BusWorkers.step x.bus := by
    induction steps generalizing x with
    | nil => rfl
    | cons l steps ih => exact ih (x.step l)
  exact hfold {}

/-- The counter of the bus is advanced by the publications that get the lock, and by nothing
else. -/
theorem published_step (s : BusWorkers) (l : BusStep) :
    (s.step l).published = s.published + (s.lockFree && isPublish l).toNat := by
  have hkeeps {s' : BusWorkers} (hchange : Change s l s') (hl : isPublish l = false) :
      s'.published = s.published := by
    cases hchange with
    | publish hfree => cases hl
    | _ => rfl
  cases hl : isPublish l with
  | false =>
    rw [Bool.and_false]
    exact hkeeps (change_step s l) hl
  | true =>
    obtain rfl : l = .call .publish := by
      unfold isPublish at hl
      split at hl
      · rfl
      · cases hl
    simp only [BusWorkers.step, BusWorkers.call]
    split
    · next hfree => simp [hfree]
    · next hfree => simp [hfree]

/-- Events are numbered in the order of their publication. -/
theorem run_published (steps : List BusStep) : (run steps).bus.published = publications steps := by
  rw [run_bus]
  exact (foldl_count_passing published_step).trans (Nat.zero_add _)

/-! ### What a step does to the tasks -/

variable {s s' : BusWorkers} {x : BusLog} {l : BusStep}

/-- How a step changes the inbox, what is being run and the record. -/
inductive Flow (x y : BusLog) : Prop
  /-- A task is published. -/
  | publish (hqueue : y.bus.queue = x.bus.queue ++ [x.bus.published])
      (hpublished : y.bus.published = x.bus.published + 1)
      (hactive : y.bus.active = x.bus.active) (hstarted : y.started = x.started)
      (hfinished : y.finished = x.finished)
  /-- A worker takes the first task. -/
  | start {task : ℕ} (hqueue : x.bus.queue = task :: y.bus.queue)
      (hpublished : y.bus.published = x.bus.published)
      (hactive : y.bus.active.Perm (task :: x.bus.active))
      (hstarted : y.started = x.started ++ [task]) (hfinished : y.finished = x.finished)
  /-- A worker finishes its task. -/
  | finish {task : ℕ} (hqueue : y.bus.queue = x.bus.queue)
      (hpublished : y.bus.published = x.bus.published)
      (hactive : (task :: y.bus.active).Perm x.bus.active)
      (hstarted : y.started = x.started) (hfinished : y.finished = x.finished ++ [task])
  /-- No task is concerned. -/
  | other (hqueue : y.bus.queue = x.bus.queue) (hpublished : y.bus.published = x.bus.published)
      (hactive : y.bus.active.Perm x.bus.active) (hstarted : y.started = x.started)
      (hfinished : y.finished = x.finished)

/-- What is being run when a worker has moved. -/
theorem active_move {i : ℕ} {w w' : BusWorker} (hi : s.workers[i]? = some w)
    (hworkers : s'.workers = s.workers.set i w') :
    (w.phase.task?.toList ++ s'.active).Perm (w'.phase.task?.toList ++ s.active) := by
  unfold BusWorkers.active
  rw [hworkers]
  exact filterMap_set_perm (fun w => w.phase.task?) hi w'

/-- Waking the workers changes no task. -/
theorem task?_wakeWorker (w : BusWorker) :
    (BusWorkers.wakeWorker w).phase.task? = w.phase.task? := by
  unfold BusWorkers.wakeWorker
  split
  · next hparked =>
    rw [hparked]
    rfl
  · rfl

/-- A worker that is woken or told to stop keeps its task. -/
theorem active_set {i : ℕ} {w w' : BusWorker} (hi : s.workers[i]? = some w)
    (htask : w'.phase.task? = w.phase.task?) :
    ((s.workers.set i w').filterMap (·.phase.task?)).Perm s.active := by
  have hmoved := filterMap_set_perm (fun w : BusWorker => w.phase.task?) hi w'
  simp only [htask] at hmoved
  exact (List.perm_append_left_iff _).mp hmoved

/-- Every step moves at most one task; the workers that `stop_workers` removes have none. -/
theorem flow_step (hjoined : Joined x.bus) (l : BusStep) : Flow x (x.step l) := by
  have hchange := change_step x.bus l
  have hkept (hstarts : x.bus.starts l = .none) (hfinishes : x.bus.finishes l = .none)
      (hqueue : (x.bus.step l).queue = x.bus.queue)
      (hpublished : (x.bus.step l).published = x.bus.published)
      (hactive : (x.bus.step l).active.Perm x.bus.active) : Flow x (x.step l) :=
    .other hqueue hpublished hactive (by simp [step, hstarts]) (by simp [step, hfinishes])
  generalize hafter : x.bus.step l = s' at hchange hkept
  have hbus : (x.step l).bus = s' := hafter
  cases hchange with
  | none hstarts hfinishes => exact hkept hstarts hfinishes rfl rfl (List.Perm.refl _)
  | record => exact hkept rfl rfl rfl rfl (List.Perm.refl _)
  | start hstopped hidle => exact hkept rfl rfl rfl rfl (List.Perm.refl _)
  | stop hspawned => exact hkept rfl rfl rfl rfl (List.Perm.refl _)
  | publish hfree =>
    exact .publish (by rw [hbus]) (by rw [hbus]) (by rw [hbus]; rfl) (List.append_nil _)
      (List.append_nil _)
  | spawn hspawning =>
    refine hkept rfl rfl rfl rfl ?_
    simp [BusWorkers.active, BusWorker.created, BusPhase.task?]
  | setStop hcalled => exact hkept rfl rfl rfl rfl (List.Perm.refl _)
  | notifyAll hflagged =>
    refine hkept rfl rfl rfl rfl ?_
    simp only [BusWorkers.active, List.filterMap_map]
    exact List.Perm.of_eq (List.filterMap_congr fun w _ => task?_wakeWorker w)
  | request hdeleting hnext => exact hkept rfl rfl rfl rfl (active_set hnext rfl)
  | @clear next hdeleting hnext =>
    refine hkept rfl rfl rfl rfl ?_
    have hall : x.bus.workers.take next = x.bus.workers :=
      List.take_of_length_le (List.getElem?_eq_none_iff.mp hnext)
    have hnone : x.bus.active = [] := by
      refine List.filterMap_eq_nil_iff.mpr fun w hw => ?_
      rw [hjoined.returned hdeleting w (hall.symm ▸ hw)]
      rfl
    rw [hnone]
    exact List.Perm.refl _
  | join hdeleting hnext hreturned => exact hkept rfl rfl rfl rfl (List.Perm.refl _)
  | notifyOne htask hi hparked =>
    exact hkept rfl rfl rfl rfl (active_set hi (by rw [hparked]; rfl))
  | notifyNobody htask hnobody => exact hkept rfl rfl rfl rfl (List.Perm.refl _)
  | move hi hhop hstarts hfinishes =>
    obtain ⟨-, htask, htask'⟩ := hhop.tasks
    exact hkept hstarts hfinishes rfl rfl (active_set hi (htask'.trans htask.symm))
  | @take i w task queue hi hphase hqueue =>
    have htask : w.phase.task? = .none := by
      rcases hphase with hphase | ⟨hphase, -⟩ <;> rw [hphase] <;> rfl
    have hstarts : x.bus.starts (.worker i) = some task := by
      simp only [BusWorkers.starts, hi, if_pos hphase, hqueue, List.head?_cons]
    have hworkers : (x.step (.worker i)).bus.workers =
        x.bus.workers.set i { w with phase := .running task } := by rw [hbus]; rfl
    have hactive := active_move hi hworkers
    rw [htask] at hactive
    refine @Flow.start x _ task ?_ ?_ hactive ?_ ?_
    · rw [hbus, hqueue]
    · rw [hbus]
      rfl
    · simp [step, hstarts]
    · simp [step, BusWorkers.finishes, hi, htask]
  | @finish i w task hi hrunning =>
    have hworkers : (x.step (.worker i)).bus.workers =
        x.bus.workers.set i { w with phase := .loopTest } := by rw [hbus]; rfl
    have hactive := active_move hi hworkers
    rw [hrunning] at hactive
    refine @Flow.finish x _ task ?_ ?_ hactive ?_ ?_
    · rw [hbus]
      rfl
    · rw [hbus]
      rfl
    · simp [step, BusWorkers.starts, hi, hrunning]
    · simp [step, BusWorkers.finishes, hi, hrunning, BusPhase.task?]

/-! ### Every run -/

/-- What has been started is what has been published, up to what is in the inbox; and what has
been started is finished or being run. -/
structure Kept (x : BusLog) : Prop where
  started_eq : x.started ++ x.bus.queue = List.range x.bus.published
  finished_perm : (x.finished ++ x.bus.active).Perm x.started

/-- What the record says stays true along the flow of the events. -/
theorem Kept.flow {y : BusLog} (h : Kept x) (hflow : Flow x y) : Kept y := by
  have hstarted_eq := h.started_eq
  have hperm := h.finished_perm
  cases hflow with
  | publish hqueue hpublished hactive hstarted hfinished =>
    refine ⟨?_, ?_⟩
    · rw [hstarted, hqueue, hpublished, ← List.append_assoc, hstarted_eq, List.range_succ]
    · rwa [hfinished, hactive, hstarted]
  | start hqueue hpublished hactive hstarted hfinished =>
    refine ⟨?_, ?_⟩
    · rw [hstarted, hpublished, List.append_assoc, List.singleton_append, ← hqueue, hstarted_eq]
    · rw [hfinished, hstarted]
      refine (hactive.append_left _).trans ?_
      refine List.perm_middle.trans ?_
      exact (hperm.cons _).trans (List.perm_append_singleton _ _).symm
  | finish hqueue hpublished hactive hstarted hfinished =>
    refine ⟨?_, ?_⟩
    · rw [hstarted, hpublished, hqueue, hstarted_eq]
    · rw [hfinished, hstarted, List.append_assoc, List.singleton_append]
      exact (hactive.append_left _).trans hperm
  | other hqueue hpublished hactive hstarted hfinished =>
    refine ⟨?_, ?_⟩
    · rw [hstarted, hpublished, hqueue, hstarted_eq]
    · rw [hfinished, hstarted]
      exact (hactive.append_left _).trans hperm

/-- Both hold after every run. -/
theorem run_kept (steps : List BusStep) : Joined (run steps).bus ∧ Kept (run steps) :=
  steps.foldlRecOn step (motive := fun x => Joined x.bus ∧ Kept x)
    ⟨joined_empty, rfl, List.Perm.refl _⟩
    fun x ⟨hjoined, hkept⟩ l _ =>
      ⟨hjoined.change (change_step x.bus l), hkept.flow (flow_step hjoined l)⟩

/-- **Events are started once and in order.** In every run of publishers, workers and one thread
in `start_workers` and `stop_workers`, the events that have been started and those in the inbox
are those that have been published, in the order of publication. Those that have been started are
finished or being run, and once `stop_workers` has returned they are all finished. -/
theorem events_started_in_order (steps : List BusStep) :
    (run steps).started ++ (run steps).bus.queue = List.range (publications steps) ∧
      ((run steps).finished ++ (run steps).bus.active).Perm (run steps).started ∧
      ((run steps).bus.running = false → (run steps).bus.stopping = .idle →
        (run steps).finished.Perm (run steps).started) := by
  obtain ⟨hjoined, hkept⟩ := run_kept steps
  refine ⟨?_, hkept.finished_perm, fun hstopped hidle => ?_⟩
  · rw [← run_published]
    exact hkept.started_eq
  · have hnone : (run steps).bus.active = [] := by
      rw [BusWorkers.active, (hjoined.stopped hstopped hidle).1]
      rfl
    have hperm := hkept.finished_perm
    rwa [hnone, List.append_nil] at hperm

/-- Two workers take two of three events, and the first one finishes its event. -/
def twoWorkers : List BusStep :=
  [.call (.start 2), .spawn, .spawn, .call .publish, .worker 0, .worker 0, .call .publish,
    .worker 1, .worker 1, .call .publish, .worker 0]

/-- Of three events two are taken by two workers, and one of these is done. -/
theorem events_started_in_order_twoWorkers :
    publications twoWorkers = 3 ∧ (run twoWorkers).started = [0, 1] ∧
      (run twoWorkers).finished = [0] ∧
      (run twoWorkers).started ++ (run twoWorkers).bus.queue =
        List.range (publications twoWorkers) ∧
      ((run twoWorkers).finished ++ (run twoWorkers).bus.active).Perm (run twoWorkers).started := by
  obtain ⟨hstarted, hfinished, -⟩ := events_started_in_order twoWorkers
  exact ⟨by decide +kernel, by decide +kernel, by decide +kernel, hstarted, hfinished⟩

/-! ### One worker -/

/-- There is at most one worker, and what it has finished and is running is what it has started,
in order. -/
structure Alone (x : BusLog) : Prop where
  length_le : x.bus.workers.length + x.bus.spawning ≤ 1
  finished_eq : x.finished ++ x.bus.active = x.started

/-- Each worker has at most one event. -/
theorem length_active_le (s : BusWorkers) : s.active.length ≤ s.workers.length :=
  List.length_filterMap_le _ _

/-- No step but `start_workers` adds a worker to those that are there or still to be created. -/
theorem length_change_le (hjoined : Joined s) (hfew : s.workers.length + s.spawning ≤ 1)
    (hchange : Change s l s') (hl : ∀ n, l = .call (.start n) → n ≤ 1) :
    s'.workers.length + s'.spawning ≤ 1 := by
  cases hchange with
  | @start n calls hstopped hidle =>
    have hn := hl n rfl
    simp only [(hjoined.stopped hstopped hidle).1, List.length_nil]
    omega
  | spawn hspawning =>
    simp only [List.length_append, List.length_singleton]
    omega
  | notifyAll hflagged => simpa using hfew
  | request hdeleting hnext => simpa using hfew
  | clear hdeleting hnext =>
    simp only [List.length_nil]
    omega
  | notifyOne | move | take | finish => simpa [BusWorkers.move] using hfew
  | none | record | stop | publish | setStop | join | notifyNobody => exact hfew

/-- The events stay in order while there is one worker. -/
theorem Alone.flow {y : BusLog} (h : Alone x) (hfew : y.bus.workers.length + y.bus.spawning ≤ 1)
    (hflow : Flow x y) : Alone y := by
  have hx := length_active_le x.bus
  have hy := length_active_le y.bus
  have hbound := h.length_le
  refine ⟨hfew, ?_⟩
  cases hflow with
  | publish hqueue hpublished hactive hstarted hfinished =>
    rw [hfinished, hactive, hstarted, h.finished_eq]
  | start hqueue hpublished hactive hstarted hfinished =>
    -- The worker was running nothing before.
    have hlength := hactive.length_eq
    rw [List.length_cons] at hlength
    have hnone : x.bus.active = [] := List.length_eq_zero_iff.mp (by omega)
    rw [hnone] at hactive
    have hfinished_eq := h.finished_eq
    rw [hnone, List.append_nil] at hfinished_eq
    rw [hfinished, hstarted, List.perm_singleton.mp hactive, hfinished_eq]
  | finish hqueue hpublished hactive hstarted hfinished =>
    -- The worker is running nothing afterwards.
    have hlength := hactive.length_eq
    rw [List.length_cons] at hlength
    have hnone : y.bus.active = [] := List.length_eq_zero_iff.mp (by omega)
    rw [hnone] at hactive
    have hfinished_eq := h.finished_eq
    rw [List.perm_singleton.mp hactive.symm] at hfinished_eq
    rw [hfinished, hstarted, hnone, List.append_nil, hfinished_eq]
  | other hqueue hpublished hactive hstarted hfinished =>
    have hsame : y.bus.active = x.bus.active := by
      cases hcase : x.bus.active with
      | nil =>
        rw [hcase] at hactive
        exact hactive.eq_nil
      | cons task rest =>
        have hrest : rest = [] := by
          rw [hcase, List.length_cons] at hx
          exact List.length_eq_zero_iff.mp (by omega)
        rw [hcase, hrest] at hactive
        rw [hrest]
        exact List.perm_singleton.mp hactive
    rw [hfinished, hstarted, hsame, h.finished_eq]

/-- **One worker keeps the order.** If the bus is never started with more than one worker, then
the events are finished in the order of publication, one after the other. -/
theorem events_finished_in_order (steps : List BusStep)
    (hsingle : ∀ n, .call (.start n) ∈ steps → n ≤ 1) :
    (run steps).finished ++ (run steps).bus.active ++ (run steps).bus.queue =
        List.range (run steps).bus.published ∧ (run steps).bus.active.length ≤ 1 := by
  have hend : Joined (run steps).bus ∧ Alone (run steps) := by
    refine steps.foldlRecOn step (motive := fun x => Joined x.bus ∧ Alone x)
      ⟨joined_empty, by decide, rfl⟩ fun x ⟨hjoined, halone⟩ l hl =>
        ⟨hjoined.change (change_step x.bus l), ?_⟩
    have hfew := length_change_le hjoined halone.length_le (change_step x.bus l) fun n hn =>
      hsingle n (hn ▸ hl)
    exact halone.flow hfew (flow_step hjoined l)
  have hlength := length_active_le (run steps).bus
  have hbound := hend.2.length_le
  refine ⟨?_, by omega⟩
  rw [hend.2.finished_eq]
  exact (run_kept steps).2.started_eq

/-- One worker takes two of three events and finishes one of them. -/
def busyWorker : List BusStep :=
  [.call (.start 1), .spawn, .call .publish, .call .publish, .call .publish] ++
    List.replicate 5 (.worker 0)

/-- One worker is done with the first event and busy with the second. -/
theorem events_finished_in_order_busyWorker :
    (run busyWorker).finished = [0] ∧ (run busyWorker).bus.active = [1] ∧
      ((run busyWorker).finished ++ (run busyWorker).bus.active ++ (run busyWorker).bus.queue =
          List.range (run busyWorker).bus.published ∧
        (run busyWorker).bus.active.length ≤ 1) :=
  ⟨by decide +kernel, by decide +kernel, events_finished_in_order busyWorker fun n hn => by
    simp only [busyWorker, List.mem_append, List.mem_cons, List.mem_replicate] at hn
    simp at hn
    omega⟩

end BusLog

end TtsServer
