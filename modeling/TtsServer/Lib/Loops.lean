import Mathlib.Data.List.Basic
import Mathlib.Data.List.Forall2
import Mathlib.Logic.Function.Iterate

/-!
# Loops

A `while` loop may run for ever, so it is given a bound on its rounds. What it returns is
described without the bound: the state after the first rounds that all pass the test,
once the test fails. A loop over a list whose body always succeeds returns one result
for each element.
-/

namespace Lib

section While

variable {S : Type*} {cond : S → Bool} {body : S → S} {s s' s'' : S} {k : ℕ}

/-- `while (cond(s)) s = body(s)`, given up when the test has been made `fuel` times. -/
def whileLoop (cond : S → Bool) (body : S → S) : ℕ → S → Option S
  | 0, _ => none
  | fuel + 1, s => if cond s then whileLoop cond body fuel (body s) else some s

/-- The loop returns a state. -/
def Returns (cond : S → Bool) (body : S → S) (s s' : S) : Prop :=
  ∃ fuel, whileLoop cond body fuel s = some s'

/-- A state is returned after the first rounds, if the test holds before each of them and fails
after them. -/
theorem returns_iff :
    Returns cond body s s' ↔
      ∃ k, (∀ j < k, cond (body^[j] s) = true) ∧ cond (body^[k] s) = false ∧ body^[k] s = s' := by
  constructor
  · rintro ⟨fuel, hfuel⟩
    induction fuel generalizing s with
    | zero => cases hfuel
    | succ fuel ih =>
      rw [whileLoop] at hfuel
      split at hfuel
      · obtain ⟨k, hrounds, hstop, hstate⟩ := ih hfuel
        refine ⟨k + 1, fun j hj => ?_, hstop, hstate⟩
        cases j with
        | zero => assumption
        | succ j => exact hrounds j (by omega)
      · obtain rfl := Option.some.inj hfuel
        have hstop : cond s = false := Bool.eq_false_iff.mpr ‹_›
        exact ⟨0, fun j hj => absurd hj (Nat.not_lt_zero j), hstop, rfl⟩
  · rintro ⟨k, hrounds, hstop, rfl⟩
    refine ⟨k + 1, ?_⟩
    induction k generalizing s with
    | zero => simpa [whileLoop] using hstop
    | succ k ih =>
      have hround : cond s = true := hrounds 0 (by omega)
      rw [whileLoop, if_pos hround]
      exact ih (fun j hj => hrounds (j + 1) (by omega)) hstop

/-- A loop returns at most one state. -/
theorem Returns.unique (h : Returns cond body s s') (h' : Returns cond body s s'') :
    s' = s'' := by
  obtain ⟨k, hrounds, hstop, rfl⟩ := returns_iff.mp h
  obtain ⟨k', hrounds', hstop', rfl⟩ := returns_iff.mp h'
  obtain hlt | rfl | hgt := Nat.lt_trichotomy k k'
  · rw [hrounds' k hlt] at hstop
    cases hstop
  · rfl
  · rw [hrounds k' hgt] at hstop'
    cases hstop'

/-- A loop whose test always holds returns nothing. -/
theorem not_returns_of_forall (h : ∀ k, cond (body^[k] s) = true) : ¬Returns cond body s s' := by
  intro hreturns
  obtain ⟨k, -, hstop, -⟩ := returns_iff.mp hreturns
  rw [h k] at hstop
  cases hstop

end While

section ForEach

variable {α β : Type*} {m : Type _ → Type _} [Monad m] [LawfulMonad m] {f : α → m β}
  {P : α → β → Prop} {l : List α}

/-- A loop over a list whose body always succeeds. -/
theorem exists_mapM (h : ∀ a ∈ l, ∃ b, f a = pure b ∧ P a b) :
    ∃ bs, l.mapM f = pure bs ∧ List.Forall₂ P l bs := by
  induction l with
  | nil => exact ⟨[], rfl, .nil⟩
  | cons a l ih =>
    obtain ⟨b, hb, hP⟩ := h a List.mem_cons_self
    obtain ⟨bs, hbs, hPs⟩ := ih fun a ha => h a (List.mem_cons_of_mem _ ha)
    refine ⟨b :: bs, ?_, .cons hP hPs⟩
    rw [List.mapM_cons, hb, hbs, pure_bind, pure_bind]

/-- A counting loop whose body always succeeds. -/
theorem exists_mapM_range {f : ℕ → m β} {P : ℕ → β → Prop} {n : ℕ}
    (h : ∀ i < n, ∃ b, f i = pure b ∧ P i b) :
    ∃ bs, (List.range n).mapM f = pure bs ∧ bs.length = n ∧
      ∀ i b, bs[i]? = some b → P i b := by
  obtain ⟨bs, hloop, hall⟩ := exists_mapM fun i hi => h i (List.mem_range.mp hi)
  have hlength := hall.length_eq
  rw [List.length_range] at hlength
  refine ⟨bs, hloop, hlength.symm, fun i b hb => ?_⟩
  obtain ⟨hi, rfl⟩ := List.getElem?_eq_some_iff.mp hb
  have hround := (List.forall₂_iff_get.mp hall).2 i (by rw [List.length_range]; omega) hi
  simpa only [List.get_eq_getElem, List.getElem_range] using hround

end ForEach

end Lib
