import TtsServer.LostWakeups
import TtsServer.Reactor

/-!
# The pools of the reactor

When `Reactor::stop` has joined the loop thread it shuts `cpu_pool_` down and then `io_pool_`.
Each `shutdown` raises the flag of its pool, notifies the workers and joins them. This file puts
the two pools next to the reactor and follows `stop` to its return.

A worker that has found the flag down and has not parked yet is missed by the notification, and
then `stop` joins it for ever (`LostWakeups`). This is the only obstacle: if no worker of a pool is
in that place when the pool notifies, `stop` returns, as soon as the loop thread, the workers and
the thread in `stop` get their turns.
-/

namespace TtsServer

open Lib

/-! ### A pool that is being shut down -/

/-- How far a worker is from the end of its loop when the flag is raised. -/
def PoolPhase.untilReturned : PoolPhase → ℕ
  | returned => 0
  | loopTest => 1
  | running _ => 2
  | taking => 3
  | testing => 4
  | locking | woken | parking | parked => 5

/-- The steps of `shutdown`. -/
def PoolStep.isShutdown : PoolStep → Bool
  | callShutdown | setStop | notifyAll | join => true
  | _ => false

namespace ThreadPool

variable {s s' : ThreadPool} {l : PoolStep} {i : ℕ}

/-- The next step of `shutdown`. -/
def shutdownStep (s : ThreadPool) : ThreadPool :=
  match s.shutdown with
  | .idle => s.step .callShutdown
  | .called => s.step .setStop
  | .flagged => s.step .notifyAll
  | .joining _ => s.step .join
  | .returned => s

/-- What is left to do before all workers are behind their loops. -/
def weight (s : ThreadPool) : ℕ := (s.workers.map PoolPhase.untilReturned).sum

/-- The flag is raised, and no worker waits or is about to. -/
structure Awake (s : ThreadPool) : Prop where
  stop : s.stop = true
  awake : ∀ p ∈ s.workers, p ≠ .parking ∧ p ≠ .parked

/-- The step of the worker is not blocked by the lock. -/
def Ready (s : ThreadPool) (i : ℕ) : Prop :=
  ∃ p, s.workers[i]? = some p ∧ p ≠ .returned ∧ (p = .locking ∨ p = .woken → s.lockFree = true)

/-- A worker that moves on and does not wait brings its pool closer to the end. -/
theorem Awake.move (h : Awake s) {p q : PoolPhase} (hi : s.workers[i]? = some p)
    (hq : q ≠ .parking ∧ q ≠ .parked) (hless : q.untilReturned < p.untilReturned)
    (hstop : s'.stop = s.stop) (hworkers : s'.workers = s.workers.set i q) :
    Awake s' ∧ s'.weight < s.weight := by
  refine ⟨⟨hstop.trans h.stop, fun p' hp' => ?_⟩, ?_⟩
  · rw [hworkers] at hp'
    rcases List.mem_or_eq_of_mem_set hp' with hp' | rfl
    · exact h.awake p' hp'
    · exact hq
  · have hsum := sum_map_set_add PoolPhase.untilReturned hi q
    rw [weight, weight, hworkers]
    omega

/-- Once the flag is raised and nobody waits, nobody will; every step brings the pool closer to
the end or leaves the workers where they are. -/
theorem Awake.transition (h : Awake s) (ht : Transition s s') :
    Awake s' ∧ (s'.weight < s.weight ∨ s'.workers = s.workers) := by
  have hkeep (hstop : s'.stop = true) (hworkers : s'.workers = s.workers) :
      Awake s' ∧ (s'.weight < s.weight ∨ s'.workers = s.workers) :=
    ⟨⟨hstop, hworkers ▸ h.awake⟩, .inr hworkers⟩
  have hstays {q : PoolPhase} {i : ℕ} {p : PoolPhase} (hi : s.workers[i]? = some p)
      (hq : q ≠ .parking ∧ q ≠ .parked) (hless : q.untilReturned < p.untilReturned)
      (hstop : s'.stop = s.stop) (hworkers : s'.workers = s.workers.set i q) :
      Awake s' ∧ (s'.weight < s.weight ∨ s'.workers = s.workers) :=
    (h.move hi hq hless hstop hworkers).imp_right .inl
  have hflag (hdown : s.stop = false) : False := by
    rw [h.stop] at hdown
    cases hdown
  have hnobody {i : ℕ} {p : PoolPhase} (hi : s.workers[i]? = some p) :
      p ≠ .parking ∧ p ≠ .parked := h.awake p (List.mem_of_getElem? hi)
  cases ht with
  | move hi hedge =>
    cases hedge with
    | leave hstop => exact hstays hi (by simp) (by decide) rfl rfl
    | enter hstop => exact (hflag hstop).elim
    | lock => exact hstays hi (by simp) (by decide) rfl rfl
    | relock => exact hstays hi (by simp) (by decide) rfl rfl
    | pass => exact hstays hi (by simp) (by decide) rfl rfl
    | wait hstop => exact (hflag hstop).elim
    | park => exact absurd rfl (hnobody hi).1
    | wake => exact absurd rfl (hnobody hi).2
    | drained hstop hqueue => exact hstays hi (by simp) (by decide) rfl rfl
    | retry hstop => exact (hflag hstop).elim
  | take hi hqueue => exact hstays hi (by simp) (by simp [PoolPhase.untilReturned]) rfl rfl
  | finish hi => exact hstays hi (by simp) (by simp [PoolPhase.untilReturned]) rfl rfl
  | notifyOne hi => exact absurd rfl (hnobody hi).2
  | notifyAll hshutdown =>
    refine hkeep h.stop ?_
    refine (List.map_congr_left fun p hp => ?_).trans (List.map_id _)
    have hp := h.awake p hp
    cases p with
    | parked => exact absurd rfl hp.2
    | _ => rfl
  | setStop hshutdown => exact hkeep rfl rfl
  | submit => exact hkeep h.stop rfl
  | notifyNone => exact hkeep h.stop rfl
  | callShutdown hshutdown => exact hkeep h.stop rfl
  | joinWorker hshutdown hreturned => exact hkeep h.stop rfl
  | joinDone hshutdown hnone => exact hkeep h.stop rfl

/-- The same for a step that may have no effect. -/
theorem Awake.step (h : Awake s) (l : PoolStep) :
    Awake (s.step l) ∧ ((s.step l).weight < s.weight ∨ (s.step l).workers = s.workers) := by
  rcases s.step_cases l with hsame | ht
  · rw [hsame]
    exact ⟨h, .inr rfl⟩
  · exact h.transition ht

/-- A worker that is ready moves on. -/
theorem Awake.weight_lt (h : Awake s) (hready : s.Ready i) :
    (s.step (.worker i)).weight < s.weight := by
  obtain ⟨p, hi, hp, hlock⟩ := hready
  have hmoved {q : PoolPhase} (hworkers : (s.step (.worker i)).workers = s.workers.set i q)
      (hless : q.untilReturned < p.untilReturned) : (s.step (.worker i)).weight < s.weight := by
    have hsum := sum_map_set_add PoolPhase.untilReturned hi q
    rw [weight, weight, hworkers]
    omega
  simp only [ThreadPool.step, hi] at hmoved ⊢
  cases p with
  | loopTest => exact @hmoved .returned (by simp [workerStep, h.stop, ThreadPool.move]) (by decide)
  | locking =>
    have hfree := hlock (.inl rfl)
    exact @hmoved .testing (by simp [workerStep, hfree, ThreadPool.move]) (by decide)
  | testing => exact @hmoved .taking (by simp [workerStep, h.stop, ThreadPool.move]) (by decide)
  | parking => exact absurd rfl (h.awake _ (List.mem_of_getElem? hi)).1
  | parked => exact absurd rfl (h.awake _ (List.mem_of_getElem? hi)).2
  | woken =>
    have hfree := hlock (.inr rfl)
    exact @hmoved .testing (by simp [workerStep, hfree, ThreadPool.move]) (by decide)
  | taking =>
    cases hqueue : s.queue with
    | nil =>
      exact @hmoved .returned (by simp [workerStep, h.stop, hqueue, ThreadPool.move]) (by decide)
    | cons task queue =>
      exact @hmoved (.running task) (by simp [workerStep, hqueue, ThreadPool.move])
        (by simp [PoolPhase.untilReturned])
  | running task =>
    exact @hmoved .loopTest (by simp [workerStep, ThreadPool.move])
      (by simp [PoolPhase.untilReturned])
  | returned => exact absurd rfl hp

/-- While some worker is in its loop, some worker is ready: one that has the lock, or any if
nobody has it. -/
theorem exists_ready (hbusy : ∃ p ∈ s.workers, p ≠ .returned) :
    ∃ i < s.workers.length, s.Ready i := by
  by_cases hfree : s.lockFree = true
  · obtain ⟨p, hp, hne⟩ := hbusy
    obtain ⟨i, hi⟩ := List.mem_iff_getElem?.mp hp
    exact ⟨i, (List.getElem?_eq_some_iff.mp hi).1, p, hi, hne, fun _ => hfree⟩
  · have hholder : ∃ p ∈ s.workers, p.holdsLock = true := by
      by_contra hnone
      refine hfree (List.all_eq_true.mpr fun p hp => ?_)
      simpa using fun hlock => hnone ⟨p, hp, hlock⟩
    obtain ⟨p, hp, hlock⟩ := hholder
    obtain ⟨i, hi⟩ := List.mem_iff_getElem?.mp hp
    refine ⟨i, (List.getElem?_eq_some_iff.mp hi).1, p, hi, ?_, ?_⟩
    · rintro rfl
      cases hlock
    · rintro (rfl | rfl) <;> cases hlock

/-- What every run keeps in which the workers are notified while none of them is deciding: when
they have been notified, all are awake. -/
structure Attentive (s : ThreadPool) : Prop where
  joined : s.Joined
  awake : s.Announced → s.Awake

/-- A new pool. -/
theorem attentive_start (n : ℕ) : (start n).Attentive :=
  ⟨joined_start n, fun hannounced => absurd rfl hannounced.1⟩

/-- Every step keeps this, unless it notifies while a worker is deciding. -/
theorem Attentive.step (h : s.Attentive) (hquiet : s.AnnouncesQuietly l) :
    (s.step l).Attentive := by
  refine ⟨?_, fun hafter => ?_⟩
  · rcases s.step_cases l with hsame | ht
    · rw [hsame]
      exact h.joined
    · exact h.joined.transition ht
  · by_cases hbefore : s.Announced
    · exact ((h.awake hbefore).step l).1
    · have hannounces := announces_of_announced hbefore hafter
      have hparking := hquiet hannounces
      rw [step_of_announces hannounces]
      refine ⟨h.joined.stop_iff.mpr (by simp [hannounces.2]), fun p hp => ?_⟩
      obtain ⟨p', hp', rfl⟩ := List.mem_map.mp hp
      cases p' with
      | parking => exact absurd hp' hparking
      | _ => exact ⟨nofun, nofun⟩

/-- The workers stay the same ones. -/
theorem Transition.length_workers (ht : Transition s s') :
    s'.workers.length = s.workers.length := by
  cases ht <;> simp [ThreadPool.move]

/-- The same for a step that may have no effect. -/
theorem length_workers_step (s : ThreadPool) (l : PoolStep) :
    (s.step l).workers.length = s.workers.length := by
  rcases s.step_cases l with hsame | ht
  · rw [hsame]
  · exact ht.length_workers

/-- Only the steps of `shutdown` move it on. -/
theorem shutdown_step_of_not (hl : l.isShutdown = false) :
    (s.step l).shutdown = s.shutdown := by
  cases l with
  | worker i =>
    rw [ThreadPool.step]
    split
    · exact shutdown_workerStep s i _
    · rfl
  | callShutdown | setStop | notifyAll | join => cases hl
  | submit | notifyOne | wake =>
    simp only [ThreadPool.step, ThreadPool.move]
    (repeat' split) <;> rfl

/-- Before the joins, `shutdown` goes through its phases one by one. -/
theorem shutdown_shutdownStep {p q : ShutdownPhase} (hp : s.shutdown = p)
    (hpq : (p, q) ∈ [(.idle, .called), (.called, .flagged), (.flagged, .joining 0)]) :
    s.shutdownStep.shutdown = q := by
  simp only [List.mem_cons, Prod.mk.injEq, List.not_mem_nil, or_false] at hpq
  rcases hpq with ⟨rfl, rfl⟩ | ⟨rfl, rfl⟩ | ⟨rfl, rfl⟩ <;>
    simp [shutdownStep, ThreadPool.step, hp]

end ThreadPool

/-! ### The reactor and its pools -/

/-- `ThreadPool::Kind`. -/
inductive PoolKind where
  | cpu | io
  deriving DecidableEq, Repr

/-- The reactor with its two pools. -/
structure PooledReactor where
  reactor : Reactor := {}
  pools : PoolKind → ThreadPool

/-- The steps of the reactor's threads, of the workers and of those who submit tasks. -/
inductive PooledEvent where
  | reactor (ev : ReactorEvent)
  | pool (kind : PoolKind) (l : PoolStep)

namespace PooledReactor

/-- The constructor. -/
def start (cpuWorkers ioWorkers : ℕ) : PooledReactor where
  pools
    | .cpu => .start cpuWorkers
    | .io => .start ioWorkers

/-- A pool takes a step. -/
def onPool (x : PooledReactor) (kind : PoolKind) (f : ThreadPool → ThreadPool) : PooledReactor :=
  { x with pools := Function.update x.pools kind (f (x.pools kind)) }

/-- The pool that `stop` is about to shut down or is shutting down. The `shutdown` of a pool that
has been shut down before returns at once. -/
def nextPool (x : PooledReactor) : Option PoolKind :=
  if (x.pools .cpu).shutdown ≠ .returned then some .cpu
  else if (x.pools .io).shutdown ≠ .returned then some .io
  else none

/-- The last part of `stop`: the next step of the shutdown of the pools, one after the other, or
the return. -/
def shutPools (x : PooledReactor) : PooledReactor :=
  match x.nextPool with
  | some kind => x.onPool kind ThreadPool.shutdownStep
  | none => { x with reactor := x.reactor.step .poolsDown }

/-- One step. The pools are shut down by `stop` and by nobody else. -/
def step (x : PooledReactor) : PooledEvent → PooledReactor
  | .reactor .stop =>
    if x.reactor.stopping = .closing then x.shutPools
    else { x with reactor := x.reactor.step .stop }
  | .reactor .pools | .reactor .poolsDown => x
  | .reactor ev => { x with reactor := x.reactor.step ev }
  | .pool kind l => if l.isShutdown then x else x.onPool kind (·.step l)

/-- The steps in turn, on a new reactor with its pools. -/
def run (cpuWorkers ioWorkers : ℕ) (events : List PooledEvent) : PooledReactor :=
  events.foldl step (start cpuWorkers ioWorkers)

/-- When `stop` notifies the workers of a pool, none of them is between its test of the flag and
parking. -/
def NotifiesQuietly (x : PooledReactor) (ev : PooledEvent) : Prop :=
  ev = .reactor .stop → x.reactor.stopping = .closing → ∀ kind, x.nextPool = some kind →
    (x.pools kind).shutdown = .flagged → .parking ∉ (x.pools kind).workers

variable {x : PooledReactor} {ev : PooledEvent} {kind : PoolKind}

/-! ### The reactor in it -/

/-- What a step is for the reactor alone. -/
def alone (x : PooledReactor) : PooledEvent → ReactorEvent
  | .reactor .stop =>
    if x.reactor.stopping = .closing then
      if x.nextPool = none then .poolsDown else .pools
    else .stop
  | .reactor .pools | .reactor .poolsDown => .pools
  | .reactor ev => ev
  | .pool _ _ => .pools

/-- The reactor takes the steps of the reactor alone. -/
theorem step_reactor (x : PooledReactor) (ev : PooledEvent) :
    (x.step ev).reactor = x.reactor.step (x.alone ev) := by
  cases ev with
  | pool kind l =>
    simp only [step]
    split <;> rfl
  | reactor ev =>
    cases ev with
    | stop =>
      simp only [step, alone]
      split
      · simp only [shutPools]
        cases hnext : x.nextPool with
        | none => rfl
        | some kind => rfl
      · rfl
    | _ => rfl

/-- Along a schedule, too. -/
theorem trace_reactor (ls : ℕ → PooledEvent) (n : ℕ) :
    (trace step x ls n).reactor =
      trace Reactor.step x.reactor (fun n => (trace step x ls n).alone (ls n)) n := by
  induction n with
  | zero => rfl
  | succ n ih => rw [trace, step_reactor, ih, trace]

/-- The other steps leave `stop` where it is while it shuts the pools down. -/
theorem closing_frame (hclosing : x.reactor.stopping = .closing) (hev : ev ≠ .reactor .stop) :
    (x.step ev).reactor.stopping = .closing := by
  rw [step_reactor]
  cases ev with
  | pool kind l => exact hclosing
  | reactor ev =>
    cases ev with
    | stop => exact absurd rfl hev
    | run => simp [alone, Reactor.step, hclosing]
    | loop now => exact (Reactor.mainLoop_frame _ now).2.2.1.trans hclosing
    | schedule | pools | poolsDown => exact hclosing

/-! ### The pools in it -/

/-- How a step changes a pool: not at all, by a step of the pool's own threads or of a `submit`,
or by the next step of its shutdown. -/
inductive PoolChange (x : PooledReactor) (kind : PoolKind) : PooledEvent → ThreadPool → Prop
  | same {ev : PooledEvent} : PoolChange x kind ev (x.pools kind)
  | own {l : PoolStep} (hl : l.isShutdown = false) :
      PoolChange x kind (.pool kind l) ((x.pools kind).step l)
  | shut (hclosing : x.reactor.stopping = .closing) (hnext : x.nextPool = some kind) :
      PoolChange x kind (.reactor .stop) (x.pools kind).shutdownStep

/-- The pool that takes a step. -/
theorem onPool_self {f : ThreadPool → ThreadPool} :
    (x.onPool kind f).pools kind = f (x.pools kind) := Function.update_self ..

/-- The other pool. -/
theorem onPool_of_ne {f : ThreadPool → ThreadPool} {kind' : PoolKind} (hkind : kind ≠ kind') :
    (x.onPool kind' f).pools kind = x.pools kind := Function.update_of_ne hkind ..

/-- What a step does to a pool when it is for one of them. -/
theorem poolChange_onPool {f : ThreadPool → ThreadPool} {kind' : PoolKind}
    (h : PoolChange x kind' ev (f (x.pools kind'))) :
    PoolChange x kind ev ((x.onPool kind' f).pools kind) := by
  by_cases hkind : kind = kind'
  · subst hkind
    rw [onPool_self]
    exact h
  · rw [onPool_of_ne hkind]
    exact .same

/-- What each step does to a pool. -/
theorem poolChange_step (x : PooledReactor) (kind : PoolKind) (ev : PooledEvent) :
    PoolChange x kind ev ((x.step ev).pools kind) := by
  cases ev with
  | pool kind' l =>
    simp only [step]
    split
    · exact .same
    · next hl => exact poolChange_onPool (.own (by simpa using hl))
  | reactor ev =>
    cases ev with
    | stop =>
      simp only [step]
      split
      · next hclosing =>
        simp only [shutPools]
        split
        · next kind' hnext => exact poolChange_onPool (.shut hclosing hnext)
        · exact .same
      · exact .same
    | _ => exact .same

/-- The other steps leave the shutdown of the pools where it is. -/
theorem shutdown_frame (hev : ev ≠ .reactor .stop) :
    ((x.step ev).pools kind).shutdown = (x.pools kind).shutdown := by
  have hchange := poolChange_step x kind ev
  generalize (x.step ev).pools kind = s at hchange
  cases hchange with
  | same => rfl
  | own hl => exact ThreadPool.shutdown_step_of_not hl
  | shut hclosing hnext => exact absurd rfl hev

/-- So the same pool is the next one. -/
theorem nextPool_frame (hev : ev ≠ .reactor .stop) : (x.step ev).nextPool = x.nextPool := by
  simp only [nextPool, shutdown_frame hev]

/-! ### What holds in every state of a run -/

/-- The threads of the reactor fit together, its callbacks are accounted for, and the workers of
its pools are awake once they have been notified. -/
structure Sound (size : PoolKind → ℕ) (x : PooledReactor) : Prop where
  lifecycle : x.reactor.Lifecycle
  honest : x.reactor.Honest
  attentive : ∀ kind, (x.pools kind).Attentive
  length_workers : ∀ kind, (x.pools kind).workers.length = size kind

/-- The numbers of workers that the constructor asks for. -/
def sizes (cpuWorkers ioWorkers : ℕ) (kind : PoolKind) : ℕ :=
  ((start cpuWorkers ioWorkers).pools kind).workers.length

/-- A new reactor. -/
theorem sound_start (cpuWorkers ioWorkers : ℕ) :
    Sound (sizes cpuWorkers ioWorkers) (start cpuWorkers ioWorkers) := by
  refine ⟨Reactor.lifecycle_empty, Reactor.honest_empty, fun kind => ?_, fun kind => rfl⟩
  cases kind <;> exact ThreadPool.attentive_start _

/-- The next step of a shutdown keeps the workers attentive. -/
theorem attentive_shutdownStep {s : ThreadPool} (h : s.Attentive)
    (hquiet : s.shutdown = .flagged → .parking ∉ s.workers) :
    s.shutdownStep.Attentive ∧ s.shutdownStep.workers.length = s.workers.length := by
  have hstep (l : PoolStep) : (s.step l).Attentive ∧
      (s.step l).workers.length = s.workers.length :=
    ⟨h.step fun hannounces => hquiet hannounces.2, s.length_workers_step l⟩
  unfold ThreadPool.shutdownStep
  split
  · exact hstep _
  · exact hstep _
  · exact hstep _
  · exact hstep _
  · exact ⟨h, rfl⟩

variable {size : PoolKind → ℕ}

/-- Every step keeps this, if pools notify quietly. -/
theorem Sound.step (h : Sound size x) (hquiet : NotifiesQuietly x ev) :
    Sound size (x.step ev) := by
  have hpool (kind : PoolKind) : ((x.step ev).pools kind).Attentive ∧
      ((x.step ev).pools kind).workers.length = (x.pools kind).workers.length := by
    have hchange := poolChange_step x kind ev
    generalize (x.step ev).pools kind = s at hchange
    cases hchange with
    | same => exact ⟨h.attentive kind, rfl⟩
    | own hl =>
      refine ⟨(h.attentive kind).step fun hannounces => ?_, ThreadPool.length_workers_step _ _⟩
      rw [hannounces.1] at hl
      cases hl
    | shut hclosing hnext =>
      exact attentive_shutdownStep (h.attentive kind) (hquiet rfl hclosing kind hnext)
  refine ⟨?_, ?_, fun kind => (hpool kind).1,
    fun kind => (hpool kind).2.trans (h.length_workers kind)⟩
  · rw [step_reactor]
    exact h.lifecycle.step _
  · rw [step_reactor]
    exact h.honest.step h.lifecycle _

/-! ### The shutdown of one pool -/

/-- `stop` is shutting this pool down. -/
def Closing (kind : PoolKind) (x : PooledReactor) : Prop :=
  x.reactor.stopping = .closing ∧ x.nextPool = some kind

/-- `stop` has shut this pool down, and those before it. -/
def Shut : PoolKind → PooledReactor → Prop
  | .cpu, x => x.reactor.stopping = .closing ∧ (x.pools .cpu).shutdown = .returned
  | .io, x => x.reactor.stopping = .closing ∧ x.nextPool = none

/-- The next pool is the first one that has not been shut down. -/
theorem nextPool_eq_cpu_iff : x.nextPool = some .cpu ↔ (x.pools .cpu).shutdown ≠ .returned := by
  unfold nextPool
  split
  · next h => simp [h]
  · next h => split <;> simp_all

/-- The second pool comes when the first one has been shut down. -/
theorem nextPool_eq_io_iff : x.nextPool = some .io ↔
    (x.pools .cpu).shutdown = .returned ∧ (x.pools .io).shutdown ≠ .returned := by
  unfold nextPool
  split
  · next h => simp [h]
  · next h => split <;> simp_all

/-- There is no next pool when both have been shut down. -/
theorem nextPool_eq_none_iff : x.nextPool = none ↔
    (x.pools .cpu).shutdown = .returned ∧ (x.pools .io).shutdown = .returned := by
  unfold nextPool
  split
  · next h => simp [h]
  · next h => split <;> simp_all

/-- The next step of `stop`. -/
theorem Closing.step_stop (h : Closing kind x) :
    x.step (.reactor .stop) = x.onPool kind ThreadPool.shutdownStep := by
  simp only [PooledReactor.step, if_pos h.1, shutPools, h.2]

/-- The shutdown goes on. -/
theorem Closing.onPool (h : Closing kind x) {f : ThreadPool → ThreadPool}
    (hf : (f (x.pools kind)).shutdown ≠ .returned) : Closing kind (x.onPool kind f) := by
  refine ⟨h.1, ?_⟩
  cases kind with
  | cpu =>
    rw [nextPool_eq_cpu_iff, onPool_self]
    exact hf
  | io =>
    rw [nextPool_eq_io_iff, onPool_self, onPool_of_ne (by simp)]
    exact ⟨(nextPool_eq_io_iff.mp h.2).1, hf⟩

/-- The shutdown has returned. -/
theorem Closing.shut (h : Closing kind x) {f : ThreadPool → ThreadPool}
    (hf : (f (x.pools kind)).shutdown = .returned) : Shut kind (x.onPool kind f) := by
  cases kind with
  | cpu =>
    refine ⟨h.1, ?_⟩
    rw [onPool_self]
    exact hf
  | io =>
    refine ⟨h.1, ?_⟩
    rw [nextPool_eq_none_iff, onPool_self, onPool_of_ne (by simp)]
    exact ⟨(nextPool_eq_io_iff.mp h.2).1, hf⟩

/-- The other steps do not disturb it. -/
theorem Closing.frame (h : Closing kind x) (hev : ev ≠ .reactor .stop) :
    Closing kind (x.step ev) :=
  ⟨closing_frame h.1 hev, (nextPool_frame hev).trans h.2⟩

/-- The joins that are left. -/
def joinsLeft (s : ThreadPool) : ℕ :=
  match s.shutdown with
  | .joining next => s.workers.length - next
  | _ => 0

/-- The step brings a pool whose workers are being joined closer to the end. -/
def Helps (kind : PoolKind) (ev : PooledEvent) (s : ThreadPool) : Prop :=
  (∃ i, ev = .pool kind (.worker i) ∧ s.Ready i) ∨
    ev = .reactor .stop ∧ ∀ next, s.shutdown = .joining next →
      ∀ p, s.workers[next]? = some p → p = .returned

/-- It does so as long as workers and joins stay where they are. -/
theorem Helps.of_eq {s s' : ThreadPool} (h : Helps kind ev s) (hworkers : s'.workers = s.workers)
    (hshutdown : s'.shutdown = s.shutdown) : Helps kind ev s' := by
  rcases h with ⟨i, hev, hready⟩ | ⟨hev, hreturned⟩
  · refine .inl ⟨i, hev, ?_⟩
    simpa only [ThreadPool.Ready, ThreadPool.lockFree, hworkers] using hready
  · refine .inr ⟨hev, ?_⟩
    rw [hworkers, hshutdown]
    exact hreturned

/-- What a join does: it goes on to the next worker, returns behind the last one, or waits. -/
theorem shutdownStep_joining {s : ThreadPool} {next : ℕ} (hjoining : s.shutdown = .joining next) :
    (s.workers[next]? = some .returned ∧
        s.shutdownStep = { s with shutdown := .joining (next + 1) }) ∨
      (s.workers[next]? = none ∧ s.shutdownStep.shutdown = .returned) ∨
      (∃ p, s.workers[next]? = some p ∧ p ≠ .returned) ∧ s.shutdownStep = s := by
  simp only [ThreadPool.shutdownStep, hjoining, ThreadPool.step]
  cases hworker : s.workers[next]? with
  | none => exact .inr (.inl ⟨rfl, rfl⟩)
  | some p =>
    cases p with
    | returned => exact .inl ⟨rfl, rfl⟩
    | _ => exact .inr (.inr ⟨⟨_, rfl, by simp⟩, rfl⟩)

/-- A join of a worker that has returned is one join less. -/
theorem joinsLeft_lt {s : ThreadPool} {next : ℕ} (hjoining : s.shutdown = .joining next)
    (hreturned : s.workers[next]? = some .returned) :
    joinsLeft { s with shutdown := .joining (next + 1) } < joinsLeft s := by
  have hnext := (List.getElem?_eq_some_iff.mp hreturned).1
  simp only [joinsLeft, hjoining]
  omega

/-- The workers of the pool are being joined. -/
def Joining (kind : PoolKind) (x : PooledReactor) : Prop :=
  Closing kind x ∧ ∃ next, (x.pools kind).shutdown = .joining next

/-- The steps that are left before the last join. -/
def closingWork (s : ThreadPool) : ℕ := s.weight + joinsLeft s

/-- They are fewer when a worker has moved on, and as many when none has. -/
theorem closingWork_of_shutdown_eq {s s' : ThreadPool} (hshutdown : s'.shutdown = s.shutdown)
    (hlength : s'.workers.length = s.workers.length) :
    (s'.weight < s.weight → closingWork s' < closingWork s) ∧
      (s'.workers = s.workers → closingWork s' = closingWork s) := by
  have hjoins : joinsLeft s' = joinsLeft s := by rw [joinsLeft, joinsLeft, hshutdown, hlength]
  refine ⟨fun hweight => ?_, fun hworkers => ?_⟩
  · rw [closingWork, closingWork, hjoins]
    exact Nat.add_lt_add_right hweight _
  · rw [closingWork, closingWork, hjoins, ThreadPool.weight, ThreadPool.weight, hworkers]

/-- A step of the pool's own threads, or of a `submit`. -/
theorem step_pool {l : PoolStep} (hl : l.isShutdown = false) :
    (x.step (.pool kind l)).pools kind = (x.pools kind).step l := by
  simp only [step, hl, onPool_self, Bool.false_eq_true, if_false]

/-- How the end of the joins comes closer: a step makes the work less, or it is none of those that
do and leaves all those as they are. -/
def Advances (kind : PoolKind) (ev : PooledEvent) (s s' : ThreadPool) : Prop :=
  closingWork s' < closingWork s ∨ closingWork s' = closingWork s ∧ ¬ Helps kind ev s ∧
    ∀ l, Helps kind l s → Helps kind l s'

/-- A step of the pool's own threads advances it. -/
theorem advances_own {s : ThreadPool} (hawake : s.Awake) {l : PoolStep}
    (hl : l.isShutdown = false) : Advances kind (.pool kind l) s (s.step l) := by
  have hshutdown := @ThreadPool.shutdown_step_of_not s l hl
  obtain ⟨hless, hequal⟩ := closingWork_of_shutdown_eq hshutdown (s.length_workers_step l)
  rcases (hawake.step l).2 with hweight | hworkers
  · exact .inl (hless hweight)
  · refine .inr ⟨hequal hworkers, ?_, fun l' hl' => hl'.of_eq hworkers hshutdown⟩
    rintro (⟨i, hev, hready⟩ | ⟨hev, -⟩)
    · cases hev
      have hweight := hawake.weight_lt hready
      rw [ThreadPool.weight, ThreadPool.weight, hworkers] at hweight
      exact absurd hweight (lt_irrefl _)
    · cases hev

/-- While the workers of a pool are being joined, each step ends the joins or brings their end
closer. -/
theorem Joining.step (h : Joining kind x) (hsound : Sound size x) :
    Shut kind (x.step ev) ∨ Joining kind (x.step ev) ∧
      Advances kind ev (x.pools kind) ((x.step ev).pools kind) := by
  obtain ⟨hclosing, next, hjoining⟩ := h
  have hawake : (x.pools kind).Awake :=
    (hsound.attentive kind).awake ⟨by simp [hjoining], by simp [hjoining], by simp [hjoining]⟩
  by_cases hev : ev = .reactor .stop
  · -- the next join
    subst hev
    rw [hclosing.step_stop, Joining, onPool_self]
    rcases shutdownStep_joining hjoining with ⟨hreturned, hstep⟩ | ⟨hnone, hstep⟩ | ⟨hbusy, hstep⟩
    · refine .inr ⟨⟨hclosing.onPool (by rw [hstep]; nofun), next + 1, by rw [hstep]⟩, .inl ?_⟩
      rw [closingWork, closingWork, hstep]
      exact Nat.add_lt_add_left (joinsLeft_lt hjoining hreturned) _
    · exact .inl (hclosing.shut hstep)
    · rw [hstep]
      refine .inr ⟨⟨hclosing.onPool (by rw [hstep, hjoining]; nofun), next, hjoining⟩,
        .inr ⟨rfl, ?_, fun l hl => hl⟩⟩
      rintro (⟨i, hev, -⟩ | ⟨-, hreturned⟩)
      · cases hev
      · obtain ⟨p, hp, hne⟩ := hbusy
        exact hne (hreturned next hjoining p hp)
  · refine .inr ⟨⟨hclosing.frame hev, next, (shutdown_frame hev).trans hjoining⟩, ?_⟩
    by_cases hown : ∃ l, ev = .pool kind l ∧ l.isShutdown = false
    · obtain ⟨l, rfl, hl⟩ := hown
      rw [step_pool hl]
      exact advances_own hawake hl
    · have hsame : (x.step ev).pools kind = x.pools kind := by
        have hchange := poolChange_step x kind ev
        generalize (x.step ev).pools kind = s at hchange
        cases hchange with
        | same => rfl
        | own hl => exact absurd ⟨_, rfl, hl⟩ hown
        | shut => exact absurd rfl hev
      rw [hsame]
      refine .inr ⟨rfl, ?_, fun l hl => hl⟩
      rintro (⟨i, rfl, -⟩ | ⟨rfl, -⟩)
      · exact hown ⟨_, rfl, rfl⟩
      · exact hev rfl

/-- Some worker is ready, or all have returned and the next join is. -/
theorem Joining.exists_helps (hsound : Sound size x) {ls : ℕ → PooledEvent}
    (hstop : AgainAndAgain (· = .reactor .stop) ls)
    (hworkers : ∀ i < size kind, AgainAndAgain (· = .pool kind (.worker i)) ls) :
    ∃ ev, AgainAndAgain (· = ev) ls ∧ Helps kind ev (x.pools kind) := by
  by_cases hbusy : ∃ p ∈ (x.pools kind).workers, p ≠ .returned
  · obtain ⟨i, hi, hready⟩ := ThreadPool.exists_ready hbusy
    rw [hsound.length_workers kind] at hi
    exact ⟨_, hworkers i hi, .inl ⟨i, rfl, hready⟩⟩
  · refine ⟨_, hstop, .inr ⟨rfl, fun next _ p hp => ?_⟩⟩
    by_contra hne
    exact hbusy ⟨p, List.mem_of_getElem? hp, hne⟩

/-! ### Progress -/

section Progress

variable {ls : ℕ → PooledEvent}

/-- If a condition on `stop` changes by its own steps only, they bring about what they do. -/
theorem leadsTo_of_stop {P Q : PooledReactor → Prop}
    (hstop : AgainAndAgain (· = .reactor .stop) ls)
    (hkeep : ∀ n, ls n ≠ .reactor .stop → P (trace step x ls n) → P (trace step x ls (n + 1)))
    (hmove : ∀ n, ls n = .reactor .stop → P (trace step x ls n) → Q (trace step x ls (n + 1))) :
    LeadsTo (trace step x ls) P Q := by
  refine leadsTo_of_measure hstop (fun _ => 0) fun n hP => ?_
  by_cases hev : ls n = .reactor .stop
  · exact .inl (hmove n hev hP)
  · exact .inr ⟨hkeep n hev hP, le_rfl, fun hev' => absurd hev' hev⟩

/-- Before the joins, the shutdown of a pool goes from phase to phase. -/
theorem phase_leadsTo (hstop : AgainAndAgain (· = .reactor .stop) ls) {p q : ShutdownPhase}
    (hpq : (p, q) ∈ [(.idle, .called), (.called, .flagged), (.flagged, .joining 0)]) :
    LeadsTo (trace step x ls) (fun x => Closing kind x ∧ (x.pools kind).shutdown = p)
      fun x => Closing kind x ∧ (x.pools kind).shutdown = q := by
  refine leadsTo_of_stop hstop (fun n hev hP => ?_) fun n hev hP => ?_
  · exact ⟨hP.1.frame hev, (shutdown_frame hev).trans hP.2⟩
  · have hq := ThreadPool.shutdown_shutdownStep hP.2 hpq
    have hgoes : q ≠ .returned := by
      rintro rfl
      simp at hpq
    rw [trace, hev, hP.1.step_stop]
    exact ⟨hP.1.onPool (hq ▸ hgoes), by rw [onPool_self, hq]⟩

/-- The joins end. -/
theorem joining_leadsTo_shut (hsound : ∀ n, Sound size (trace step x ls n))
    (hstop : AgainAndAgain (· = .reactor .stop) ls)
    (hworkers : ∀ i < size kind, AgainAndAgain (· = .pool kind (.worker i)) ls) :
    LeadsTo (trace step x ls) (Joining kind) (Shut kind) :=
  @leadsTo_of_ready _ _ _ ls _ _ (fun ev x => Helps kind ev (x.pools kind))
    (fun x => closingWork (x.pools kind)) (fun n hP => hP.step (hsound n))
    fun n _ => Joining.exists_helps (hsound n) hstop hworkers

/-- The shutdown of a pool returns, from whatever phase. -/
theorem closing_leadsTo_shut (hsound : ∀ n, Sound size (trace step x ls n))
    (hstop : AgainAndAgain (· = .reactor .stop) ls)
    (hworkers : ∀ i < size kind, AgainAndAgain (· = .pool kind (.worker i)) ls) :
    LeadsTo (trace step x ls) (Closing kind) (Shut kind) := by
  have hjoining := joining_leadsTo_shut hsound hstop hworkers
  have hflagged : LeadsTo (trace step x ls)
      (fun x => Closing kind x ∧ (x.pools kind).shutdown = .flagged) (Shut kind) := by
    refine (phase_leadsTo hstop (by simp)).trans fun n hP => hjoining n ⟨hP.1, 0, hP.2⟩
  have hcalled := (@phase_leadsTo x kind ls hstop .called .flagged (by simp)).trans hflagged
  have hidle := (@phase_leadsTo x kind ls hstop .idle .called (by simp)).trans hcalled
  intro n hP
  cases hshutdown : ((trace step x ls n).pools kind).shutdown with
  | idle => exact hidle n ⟨hP, hshutdown⟩
  | called => exact hcalled n ⟨hP, hshutdown⟩
  | flagged => exact hflagged n ⟨hP, hshutdown⟩
  | joining next => exact hjoining n ⟨hP, next, hshutdown⟩
  | returned =>
    have hnext := hP.2
    cases kind with
    | cpu => exact absurd hshutdown (nextPool_eq_cpu_iff.mp hnext)
    | io => exact absurd hshutdown (nextPool_eq_io_iff.mp hnext).2

/-- When the first pool has been shut down, the second one is next, or it has been shut down
before. -/
theorem closing_leadsTo_shut_io (hsound : ∀ n, Sound size (trace step x ls n))
    (hstop : AgainAndAgain (· = .reactor .stop) ls)
    (hworkers : ∀ kind, ∀ i < size kind, AgainAndAgain (· = .pool kind (.worker i)) ls) :
    LeadsTo (trace step x ls) (fun x => x.reactor.stopping = .closing) (Shut .io) := by
  have hio := closing_leadsTo_shut hsound hstop (hworkers .io)
  have hcpu : LeadsTo (trace step x ls) (Shut .cpu) (Shut .io) := by
    intro n ⟨hclosing, hreturned⟩
    by_cases hlast : ((trace step x ls n).pools .io).shutdown = .returned
    · exact ⟨n, le_rfl, hclosing, nextPool_eq_none_iff.mpr ⟨hreturned, hlast⟩⟩
    · exact hio n ⟨hclosing, nextPool_eq_io_iff.mpr ⟨hreturned, hlast⟩⟩
  intro n hclosing
  by_cases hfirst : ((trace step x ls n).pools .cpu).shutdown = .returned
  · exact hcpu n ⟨hclosing, hfirst⟩
  · exact (closing_leadsTo_shut hsound hstop (hworkers .cpu)).trans hcpu n
      ⟨hclosing, nextPool_eq_cpu_iff.mpr hfirst⟩

/-- `stop` is back, the reactor has stopped and both pools have been shut down. -/
def Stopped (x : PooledReactor) : Prop :=
  x.reactor.stopping = .outside ∧ x.reactor.running = false ∧
    ∀ kind, (x.pools kind).shutdown = .returned

/-- When both pools have been shut down, `stop` returns. -/
theorem shut_leadsTo_stopped (hsound : ∀ n, Sound size (trace step x ls n))
    (hstop : AgainAndAgain (· = .reactor .stop) ls) :
    LeadsTo (trace step x ls) (Shut .io) Stopped := by
  refine leadsTo_of_stop hstop (fun n hev hP => ?_) fun n hev ⟨hclosing, hnone⟩ => ?_
  · exact ⟨closing_frame hP.1 hev, (nextPool_frame hev).trans hP.2⟩
  · have hrunning := (hsound n).lifecycle.not_running_of_closing hclosing
    obtain ⟨hcpu, hio⟩ := nextPool_eq_none_iff.mp hnone
    rw [trace, hev]
    simp only [step, if_pos hclosing, shutPools, hnone, Reactor.step]
    refine ⟨rfl, hrunning, fun kind => ?_⟩
    cases kind with
    | cpu => exact hcpu
    | io => exact hio

/-- What a step of `stop` before the pools is, for the reactor alone. -/
theorem step_stop_reactor (hclosing : x.reactor.stopping ≠ .closing) :
    (x.step (.reactor .stop)).reactor = x.reactor.stop := by
  simp only [step, if_neg hclosing, Reactor.step]

/-- Before the pools, `stop` goes on by its own steps only. -/
theorem alone_ne_stop (hev : ev ≠ .reactor .stop) : x.alone ev ≠ .stop := by
  cases ev with
  | pool kind l => nofun
  | reactor ev =>
    cases ev with
    | stop => exact absurd rfl hev
    | _ => nofun

/-- `stop` requests the stop. -/
theorem requesting_leadsTo_joining (hstop : AgainAndAgain (· = .reactor .stop) ls) :
    LeadsTo (trace step x ls) (fun x => x.reactor.stopping = .requesting)
      fun x => x.reactor.stopping = .joining := by
  refine leadsTo_of_stop hstop (fun n hev hP => ?_) fun n hev hP => ?_
  · rw [trace, step_reactor, Reactor.stopping_frame (by simp [hP]) (alone_ne_stop hev), hP]
  · rw [trace, hev, step_stop_reactor (by simp [hP])]
    simp only [Reactor.stop, hP]

/-- The loop thread gets the same turns in the reactor alone. -/
theorem loop_again (hloop : AgainAndAgain (fun ev => ∃ now, ev = .reactor (.loop now)) ls) :
    AgainAndAgain Reactor.IsLoop fun n => (trace step x ls n).alone (ls n) := by
  intro i
  obtain ⟨j, hij, now, hnow⟩ := hloop i
  refine ⟨j, hij, now, ?_⟩
  simp only [hnow]
  rfl

/-- The loop thread is joined. -/
theorem joining_leadsTo_closing (hsound : ∀ n, Sound size (trace step x ls n))
    (hloop : AgainAndAgain (fun ev => ∃ now, ev = .reactor (.loop now)) ls)
    (hstop : AgainAndAgain (· = .reactor .stop) ls) :
    LeadsTo (trace step x ls) (fun x => x.reactor.stopping = .joining)
      fun x => x.reactor.stopping = .closing := by
  have hexited : LeadsTo (trace step x ls) (fun x => x.reactor.stopping = .joining)
      fun x => x.reactor.stopping = .joining ∧ x.reactor.loop = .exited := by
    have hlife (n : ℕ) := (hsound n).lifecycle
    have halone := @Reactor.joining_leadsTo_exited x.reactor
      (fun n => (trace step x ls n).alone (ls n)) (fun n => trace_reactor ls n ▸ hlife n)
      (loop_again hloop)
    intro n hjoining
    obtain ⟨m, hnm, hm⟩ := halone n (by rwa [← trace_reactor])
    rw [← trace_reactor] at hm
    exact ⟨m, hnm, hm⟩
  refine hexited.trans (leadsTo_of_stop hstop (fun n hev hP => ?_) fun n hev hP => ?_)
  · rw [trace, step_reactor, Reactor.stopping_frame (by simp [hP.1]) (alone_ne_stop hev)]
    exact ⟨hP.1, Reactor.exited_frame hP.2 (by simp [hP.1]) (alone_ne_stop hev)⟩
  · rw [trace, hev, step_stop_reactor (by simp [hP.1])]
    simp only [Reactor.stop, hP.1, hP.2, if_true]

/-- `stop` goes through to its end. -/
theorem stopping_leadsTo_stopped (hsound : ∀ n, Sound size (trace step x ls n))
    (hloop : AgainAndAgain (fun ev => ∃ now, ev = .reactor (.loop now)) ls)
    (hstop : AgainAndAgain (· = .reactor .stop) ls)
    (hworkers : ∀ kind, ∀ i < size kind, AgainAndAgain (· = .pool kind (.worker i)) ls) :
    LeadsTo (trace step x ls) (fun x => x.reactor.stopping ≠ .outside) Stopped := by
  have hclosing := (closing_leadsTo_shut_io hsound hstop hworkers).trans
    (shut_leadsTo_stopped hsound hstop)
  have hjoining := (joining_leadsTo_closing hsound hloop hstop).trans hclosing
  intro n hstopping
  cases hphase : (trace step x ls n).reactor.stopping with
  | outside => exact absurd hphase hstopping
  | requesting => exact ((requesting_leadsTo_joining hstop).trans hjoining) n hphase
  | joining => exact hjoining n hphase
  | closing => exact hclosing n hphase

end Progress

/-- What the timer queue has given out is never forgotten. -/
theorem returned_trace {e : TimerEntry} (he : e ∈ x.reactor.timers.returned)
    (ls : ℕ → PooledEvent) (n : ℕ) : e ∈ (trace step x ls n).reactor.timers.returned := by
  induction n with
  | zero => exact he
  | succ n ih =>
    rw [trace, step_reactor]
    exact Reactor.returned_subset_step ih

/-- When `stop` is back, what the loop had taken out has been called. -/
theorem called_of_stopped (hsound : Sound size x) (hstopped : Stopped x) {e : TimerEntry}
    (he : e ∈ x.reactor.timers.returned) : ∃ times, (e, times) ∈ x.reactor.called := by
  have habsent := hsound.lifecycle.of_stopped hstopped.2.1 (.inl hstopped.1)
  rw [← hsound.honest.returned_eq, Reactor.due_eq_nil (by simp [habsent]), List.append_nil] at he
  obtain ⟨called, hcalled, rfl⟩ := List.mem_map.mp he
  exact ⟨called.2, hcalled⟩

/-- The workers of a pool that has been shut down have returned. -/
theorem workers_returned (hsound : Sound size x) (hstopped : Stopped x) :
    ∀ kind, ∀ p ∈ (x.pools kind).workers, p = .returned :=
  fun kind => (hsound.attentive kind).joined.returned (hstopped.2.2 kind)

/-- **`stop` returns**, with both pools shut down, if the loop thread, the workers and the thread
in `stop` get their turns again and again, and if no worker is between its test of the flag and
parking when its pool notifies. The callbacks that had been taken out when `stop` was called have
been called by then, and every worker has left its loop. -/
theorem stop_returns (cpuWorkers ioWorkers : ℕ) (events : List PooledEvent) (ls : ℕ → PooledEvent)
    (hstopping : (run cpuWorkers ioWorkers events).reactor.stopping ≠ .outside)
    (hloop : AgainAndAgain (fun ev => ∃ now, ev = .reactor (.loop now)) ls)
    (hstop : AgainAndAgain (· = .reactor .stop) ls)
    (hworkers : ∀ kind, ∀ i < sizes cpuWorkers ioWorkers kind,
      AgainAndAgain (· = .pool kind (.worker i)) ls)
    (hbefore : Along step NotifiesQuietly (start cpuWorkers ioWorkers) events)
    (hquiet : ∀ n, NotifiesQuietly (trace step (run cpuWorkers ioWorkers events) ls n) (ls n)) :
    ∃ n, (trace step (run cpuWorkers ioWorkers events) ls n).Stopped ∧
      (∀ kind, ∀ p ∈ ((trace step (run cpuWorkers ioWorkers events) ls n).pools kind).workers,
        p = .returned) ∧
      ∀ e ∈ (run cpuWorkers ioWorkers events).reactor.due, ∃ times,
        (e, times) ∈ (trace step (run cpuWorkers ioWorkers events) ls n).reactor.called := by
  have hnow : Sound (sizes cpuWorkers ioWorkers) (run cpuWorkers ioWorkers events) :=
    (hbefore.invariant (sound_start cpuWorkers ioWorkers) fun x ev h hev => h.step hev).2
  generalize run cpuWorkers ioWorkers events = x at hstopping hquiet hnow ⊢
  have hsound (n : ℕ) : Sound (sizes cpuWorkers ioWorkers) (trace step x ls n) := by
    induction n with
    | zero => exact hnow
    | succ n ih => exact ih.step (hquiet n)
  obtain ⟨n, -, hstopped⟩ := stopping_leadsTo_stopped hsound hloop hstop hworkers 0 hstopping
  refine ⟨n, hstopped, workers_returned (hsound n) hstopped, fun e he => ?_⟩
  have hgiven : e ∈ x.reactor.timers.returned := by
    rw [← hnow.honest.returned_eq]
    exact List.mem_append_right _ he
  exact called_of_stopped (hsound n) hstopped (returned_trace hgiven ls n)

/-! ### A stop in turns -/

/-- Two callbacks are due, the first one has been called, the workers of both pools have parked,
and `stop` is called. -/
def stopCalled : List PooledEvent :=
  [.reactor .run, .reactor (.schedule 5 false), .reactor (.schedule 9 false), .reactor (.loop 10),
    .reactor (.loop 10), .reactor (.loop 10)] ++
    List.replicate 4 (.pool .cpu (.worker 0)) ++ List.replicate 4 (.pool .io (.worker 0)) ++
    [.reactor .stop]

/-- The four threads take turns. -/
def fourThreads (n : ℕ) : PooledEvent :=
  if n % 4 = 0 then .reactor (.loop 20)
  else if n % 4 = 1 then .reactor .stop
  else if n % 4 = 2 then .pool .cpu (.worker 0)
  else .pool .io (.worker 0)

/-- Each of them gets its turns. -/
theorem fourThreads_fair : AgainAndAgain (fun ev => ∃ now, ev = .reactor (.loop now)) fourThreads ∧
    AgainAndAgain (· = .reactor .stop) fourThreads ∧
    ∀ kind, AgainAndAgain (· = .pool kind (.worker 0)) fourThreads := by
  have hturn (i k : ℕ) (hk : k < 4) : (4 * i + k) % 4 = k := by omega
  refine ⟨fun i => ⟨4 * i + 0, by omega, 20, ?_⟩, fun i => ⟨4 * i + 1, by omega, ?_⟩,
    fun kind i => ?_⟩
  · simp only [fourThreads, hturn i 0 (by omega), if_true]
  · simp only [fourThreads, hturn i 1 (by omega), if_true, one_ne_zero, if_false]
  · cases kind with
    | cpu =>
      refine ⟨4 * i + 2, by omega, ?_⟩
      simp [fourThreads]
    | io =>
      refine ⟨4 * i + 3, by omega, ?_⟩
      simp [fourThreads]

/-- The only worker has parked, or the workers have been notified. -/
def Resting (s : ThreadPool) : Prop := s.Announced ∨ s.workers = [.parked]

/-- A step of the worker leaves it parked, and so does `shutdown` until it notifies. -/
theorem Resting.step {s : ThreadPool} (h : Resting s) (i : ℕ) :
    Resting (s.step (.worker i)) ∧ Resting s.shutdownStep := by
  constructor
  · rcases h with hannounced | hparked
    · refine .inl ?_
      rw [ThreadPool.Announced, ThreadPool.shutdown_step_of_not rfl]
      exact hannounced
    · refine .inr ?_
      cases i with
      | zero => simp [ThreadPool.step, ThreadPool.workerStep, hparked]
      | succ i => simp [ThreadPool.step, hparked]
  · cases hshutdown : s.shutdown with
    | idle | called =>
      refine .inr ((h.resolve_left fun hannounced => ?_) ▸ ?_)
      · simp [ThreadPool.Announced, hshutdown] at hannounced
      · simp only [ThreadPool.shutdownStep, hshutdown, ThreadPool.step, if_true]
    | flagged =>
      refine .inl ?_
      have hjoining : s.shutdownStep.shutdown = .joining 0 :=
        ThreadPool.shutdown_shutdownStep hshutdown (by simp)
      simp [ThreadPool.Announced, hjoining]
    | joining next =>
      rcases shutdownStep_joining hshutdown with ⟨-, hstep⟩ | ⟨-, hstep⟩ | ⟨-, hstep⟩
      · exact .inl (by simp [ThreadPool.Announced, hstep])
      · exact .inl (by simp [ThreadPool.Announced, hstep])
      · rwa [hstep]
    | returned => rwa [ThreadPool.shutdownStep, hshutdown]

/-- So no worker is about to park when its pool notifies. -/
theorem notifiesQuietly_of_resting (h : ∀ kind, Resting (x.pools kind)) :
    NotifiesQuietly x ev := by
  intro _ _ kind _ hflagged
  rcases h kind with hannounced | hparked
  · exact absurd hflagged hannounced.2.2
  · simp [hparked]

/-- In turns, the workers rest until they are notified. -/
theorem resting_fourThreads (h : ∀ kind, Resting (x.pools kind)) (n : ℕ) :
    ∀ kind, Resting ((trace step x fourThreads n).pools kind) := by
  induction n with
  | zero => exact h
  | succ n ih =>
    intro kind
    have hworker {l : PoolStep} (hl : fourThreads n = .pool kind l) : l = .worker 0 := by
      unfold fourThreads at hl
      split at hl
      · cases hl
      · split at hl
        · cases hl
        · split at hl <;> cases hl <;> rfl
    have hchange := poolChange_step (trace step x fourThreads n) kind (fourThreads n)
    rw [trace]
    generalize hev : fourThreads n = ev at hchange
    generalize ((trace step x fourThreads n).step ev).pools kind = s at hchange
    cases hchange with
    | same => exact ih kind
    | own => exact hworker hev ▸ ((ih kind).step 0).1
    | shut => exact ((ih kind).step 0).2

/-- A loop thread, a stop thread and one worker in each pool take turns until `stop` returns. -/
theorem stop_returns_fourThreads :
    (run 1 1 stopCalled).reactor.due = [⟨9, false, 1, 1⟩] ∧
      ∃ n, (trace step (run 1 1 stopCalled) fourThreads n).Stopped ∧
        (∀ kind, ∀ p ∈ ((trace step (run 1 1 stopCalled) fourThreads n).pools kind).workers,
          p = .returned) ∧
        ∀ e ∈ (run 1 1 stopCalled).reactor.due,
          ∃ times, (e, times) ∈ (trace step (run 1 1 stopCalled) fourThreads n).reactor.called := by
  have hbefore : Along step (fun x _ => x.reactor.stopping ≠ .closing) (start 1 1) stopCalled := by
    decide +kernel
  have hresting (kind : PoolKind) : Resting ((run 1 1 stopCalled).pools kind) := by
    refine .inr ?_
    cases kind <;> decide +kernel
  refine ⟨by decide +kernel, stop_returns 1 1 stopCalled fourThreads (by decide +kernel)
    fourThreads_fair.1 fourThreads_fair.2.1 (fun kind i hi => ?_)
    (hbefore.mono fun x ev hopen _ hclosing => absurd hclosing hopen)
    fun n => notifiesQuietly_of_resting (resting_fourThreads hresting n)⟩
  have hsize : sizes 1 1 kind = 1 := by cases kind <;> rfl
  obtain rfl : i = 0 := by omega
  exact fourThreads_fair.2.2 kind

end PooledReactor

end TtsServer
