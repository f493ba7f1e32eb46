import TtsServer.Lib.Runs
import Mathlib.Algebra.BigOperators.Group.List.Basic
import Mathlib.Algebra.GroupWithZero.Nat
import Mathlib.Data.List.Basic
import Mathlib.Data.List.Perm.Basic

/-!
# Threads and condition variables

A system of threads is a list of their phases, in which a step replaces one phase. What
such a step does to a count of phases and to what the threads hold is said here once.

A thread that waits on a condition variable tests a flag, decides to wait, parks and is
woken by a notification. The test and the parking are two steps; a flag that is raised and
notified without the lock of the condition variable can fall between them.
-/

namespace Lib

variable {P A S L I : Type*} {ts : List P} {i : ℕ} {p : P}

/-! ### One thread moves -/

/-- A count of phases after one thread has moved. -/
theorem countP_set_add (f : P → Bool) (h : ts[i]? = some p) (q : P) :
    (ts.set i q).countP f + (f p).toNat = ts.countP f + (f q).toNat := by
  obtain ⟨hi, rfl⟩ := List.getElem?_eq_some_iff.mp h
  obtain ⟨before, after, hts, -, hset⟩ := @List.exists_of_set _ i q ts hi
  rw [hset]
  conv_rhs => rw [hts]
  simp only [List.countP_append, List.countP_cons]
  cases f ts[i] <;> cases f q <;> simp <;> omega

/-- A weight of the phases after one thread has moved. -/
theorem sum_map_set_add (w : P → ℕ) (h : ts[i]? = some p) (q : P) :
    ((ts.set i q).map w).sum + w p = (ts.map w).sum + w q := by
  obtain ⟨hi, rfl⟩ := List.getElem?_eq_some_iff.mp h
  obtain ⟨before, after, hts, -, hset⟩ := @List.exists_of_set _ i q ts hi
  rw [hset]
  conv_rhs => rw [hts]
  simp only [List.map_append, List.map_cons, List.sum_append, List.sum_cons]
  omega

/-- What the threads hold after one of them has moved. -/
theorem filterMap_set_perm (g : P → Option A) (h : ts[i]? = some p) (q : P) :
    ((g p).toList ++ (ts.set i q).filterMap g).Perm ((g q).toList ++ ts.filterMap g) := by
  obtain ⟨hi, rfl⟩ := List.getElem?_eq_some_iff.mp h
  obtain ⟨before, after, hts, -, hset⟩ := @List.exists_of_set _ i q ts hi
  have hsplit : ∀ x, (before ++ x :: after).filterMap g =
      before.filterMap g ++ ((g x).toList ++ after.filterMap g) := by
    intro x
    cases hx : g x <;> simp [hx]
  have hmoved : ts.filterMap g =
      before.filterMap g ++ ((g ts[i]).toList ++ after.filterMap g) := by
    conv_lhs => rw [hts]
    exact hsplit _
  rw [hset, hsplit, hmoved]
  generalize (g ts[i]).toList = old
  generalize (g q).toList = new
  generalize before.filterMap g = b
  generalize after.filterMap g = a
  refine (List.perm_append_comm_assoc old b (new ++ a)).trans ?_
  refine ((List.perm_append_comm_assoc old new a).append_left b).trans ?_
  exact (List.perm_append_comm_assoc b new (old ++ a))

/-- The induction rule for systems whose possible steps are given as transitions: a property
that every transition keeps holds at the end of a run. -/
theorem foldl_of_transitions {step : S → L → S} {T : S → S → Prop}
    (hcases : ∀ s l, step s l = s ∨ T s (step s l)) {R : S → Prop} {s : S} (hs : R s)
    (hstep : ∀ s s', R s → T s s' → R s') (ls : List L) : R (ls.foldl step s) := by
  refine ls.foldlRecOn step hs fun s h l _ => ?_
  rcases hcases s l with heq | htrans
  · rwa [heq]
  · exact hstep s _ h htrans

/-! ### Waiting -/

/-- Where a thread is in a wait on a condition variable: it is not waiting, it has found the
flag down and is about to park, or it is parked. -/
inductive WaitPhase where
  | away
  | deciding
  | parked
  deriving DecidableEq, Repr

/-- The waiting of one of several threads; an index without a thread does not wait. -/
def waitPhase (wait : P → WaitPhase) (ts : List P) (i : ℕ) : WaitPhase :=
  (ts[i]?).elim .away wait

/-- The phase of a thread of the list. -/
theorem waitPhase_of_getElem? {wait : P → WaitPhase} (h : ts[i]? = some p) :
    waitPhase wait ts i = wait p := by
  rw [waitPhase, h]
  rfl

/-- Some thread is in a phase of waiting exactly when one at some index is. -/
theorem exists_waitPhase_iff {wait : P → WaitPhase} {phase : WaitPhase} (hphase : phase ≠ .away) :
    (∃ i, waitPhase wait ts i = phase) ↔ ∃ p ∈ ts, wait p = phase := by
  constructor
  · rintro ⟨i, hi⟩
    cases hget : ts[i]? with
    | none => exact absurd (by rw [← hi, waitPhase, hget]; rfl) hphase
    | some p => exact ⟨p, List.mem_of_getElem? hget, by rwa [waitPhase_of_getElem? hget] at hi⟩
  · rintro ⟨p, hp, hwait⟩
    obtain ⟨i, hi⟩ := List.getElem?_of_mem hp
    exact ⟨i, by rwa [waitPhase_of_getElem? hi]⟩

/-- What a step may do to the waiting of a thread: nothing, end it, begin it while the flag is
down, or park a thread that has decided to. -/
inductive WaitStep (down : Prop) : WaitPhase → WaitPhase → Prop
  | stay {phase} : WaitStep down phase phase
  | leave {phase} : WaitStep down phase .away
  | decide {phase} (hdown : down) : WaitStep down phase .deciding
  | park : WaitStep down .deciding .parked

/-- The waiting of all threads after one of them has moved. -/
theorem waitStep_set {down : Prop} {wait : P → WaitPhase} (h : ts[i]? = some p) {q : P}
    (hq : WaitStep down (wait p) (wait q)) (j : ℕ) :
    WaitStep down (waitPhase wait ts j) (waitPhase wait (ts.set i q) j) := by
  by_cases hij : i = j
  · subst hij
    obtain ⟨hi, -⟩ := List.getElem?_eq_some_iff.mp h
    rw [waitPhase_of_getElem? h, waitPhase_of_getElem? (List.getElem?_set_self hi)]
    exact hq
  · rw [waitPhase, waitPhase, List.getElem?_set_ne hij]
    exact .stay

/-- The waiting of all threads after each of them has been changed. -/
theorem waitStep_map {down : Prop} {wait : P → WaitPhase} {f : P → P}
    (hf : ∀ p, WaitStep down (wait p) (wait (f p))) (i : ℕ) :
    WaitStep down (waitPhase wait ts i) (waitPhase wait (ts.map f) i) := by
  rw [waitPhase, waitPhase, List.getElem?_map]
  cases ts[i]? with
  | none => exact .stay
  | some p => exact hf p

/-- No thread is parked after each of them has been woken. -/
theorem waitPhase_map_ne_parked {wait : P → WaitPhase} {f : P → P}
    (hf : ∀ p, wait (f p) ≠ .parked) (i : ℕ) : waitPhase wait (ts.map f) i ≠ .parked := by
  rw [waitPhase, List.getElem?_map]
  cases ts[i]? with
  | none => exact WaitPhase.noConfusion
  | some p => exact hf p

/-- The rules of waiting for a flag: the flag is never lowered, and every step does to the
waiting of a thread what it may. -/
structure WakeProtocol (step : S → L → S) (flag : S → Prop) (phase : S → I → WaitPhase) :
    Prop where
  flag_kept : ∀ s l, flag s → flag (step s l)
  waits : ∀ s l i, WaitStep (¬ flag s) (phase s i) (phase (step s l) i)

/-- With the flag raised, threads that are not waiting never wait again. -/
theorem WakeProtocol.foldl_away {step : S → L → S} {flag : S → Prop} {phase : S → I → WaitPhase}
    (h : WakeProtocol step flag phase) {s : S} (hflag : flag s) (haway : ∀ i, phase s i = .away)
    (ls : List L) (i : I) : phase (ls.foldl step s) i = .away := by
  have hkept : flag (ls.foldl step s) ∧ ∀ i, phase (ls.foldl step s) i = .away := by
    refine ls.foldlRecOn (motive := fun s => flag s ∧ ∀ i, phase s i = .away) step
      ⟨hflag, haway⟩ fun s hs l _ => ⟨h.flag_kept s l hs.1, fun i => ?_⟩
    have hstep := h.waits s l i
    rw [hs.2 i] at hstep
    generalize phase (step s l) i = after at hstep
    cases hstep with
    | stay => rfl
    | leave => rfl
    | decide hdown => exact absurd hs.1 hdown
  exact hkept.2 i

/-- A notification that finds the flag raised and no thread deciding strands nobody: once the
notification is out, no thread is parked. -/
theorem WakeProtocol.not_parked {step : S → L → S} {flag : S → Prop} {phase : S → I → WaitPhase}
    (h : WakeProtocol step flag phase) (notified : S → Prop) (notifies : S → L → Prop) {s : S}
    {ls : List L} (hs : ¬ notified s)
    (hnotifies : ∀ s l, ¬ notified s → notified (step s l) → notifies s l)
    (hwakes : ∀ s l i, notifies s l → phase (step s l) i ≠ .parked)
    (hquiet : Along step (fun s l => notifies s l → flag s ∧ ∀ i, phase s i ≠ .deciding) s ls)
    (hend : notified (ls.foldl step s)) (i : I) : phase (ls.foldl step s) i ≠ .parked := by
  obtain ⟨pre, l, post, rfl, hbefore, hafter⟩ := exists_split_of_foldl hs hend
  have hl := hnotifies _ l hbefore hafter
  obtain ⟨hflag, hdeciding⟩ := hquiet.at hl
  have haway : ∀ i, phase (step (pre.foldl step s) l) i = .away := by
    intro i
    have hstep := h.waits (pre.foldl step s) l i
    have hnone := hdeciding i
    have hparked := hwakes (pre.foldl step s) l i hl
    generalize phase (pre.foldl step s) i = p at hstep hnone
    generalize phase (step (pre.foldl step s) l) i = q at hstep hparked
    cases hstep with
    | stay =>
      cases p with
      | away => rfl
      | deciding => exact absurd rfl hnone
      | parked => exact absurd rfl hparked
    | leave => rfl
    | decide hdown => exact absurd hflag hdown
    | park => exact absurd rfl hparked
  rw [List.foldl_append, List.foldl_cons, h.foldl_away (h.flag_kept _ l hflag) haway post i]
  exact WaitPhase.noConfusion

end Lib
