import Mathlib.Data.List.Range

/-!
# Progress along infinite runs

A schedule is an infinite sequence of labels, and a system that takes them one after the
other passes through a sequence of states. One condition leads to another along such a
sequence if the second always follows the first at some later point. One rule for proving
it takes labels that come again and again, and a measure that no label increases and that
these labels decrease. Another takes a measure that every label decreases unless it leaves
those that are ready to decrease it ready; then it is enough that in every state some label is
ready that comes again and again. A third one takes a condition that lasts until a later step
answers it.
-/

namespace Lib

variable {S L : Type*}

/-- The states along a schedule. -/
def trace (step : S → L → S) (s : S) (ls : ℕ → L) : ℕ → S
  | 0 => s
  | n + 1 => step (trace step s ls n) (ls n)

/-- Up to any point, a schedule is a finite run. -/
theorem trace_eq_foldl {step : S → L → S} {s : S} {ls : ℕ → L} (n : ℕ) :
    trace step s ls n = ((List.range n).map ls).foldl step s := by
  induction n with
  | zero => rfl
  | succ n ih =>
    rw [List.range_succ, List.map_append, List.foldl_append, ← ih]
    rfl

/-- Labels of a kind come again and again. -/
def AgainAndAgain (p : L → Prop) (ls : ℕ → L) : Prop := ∀ i, ∃ j, i ≤ j ∧ p (ls j)

/-- Whenever the first condition holds, the second holds then or later. -/
def LeadsTo (σ : ℕ → S) (P Q : S → Prop) : Prop := ∀ i, P (σ i) → ∃ j, i ≤ j ∧ Q (σ j)

variable {σ : ℕ → S} {ls : ℕ → L} {P Q R : S → Prop}

/-- What leads to a condition leads to whatever it leads to. -/
theorem LeadsTo.trans (h : LeadsTo σ P Q) (h' : LeadsTo σ Q R) : LeadsTo σ P R := by
  intro i hP
  obtain ⟨j, hij, hQ⟩ := h i hP
  obtain ⟨k, hjk, hR⟩ := h' j hQ
  exact ⟨k, by omega, hR⟩

/-- One of two goals leads to the other. -/
theorem LeadsTo.of_or (h : LeadsTo σ P fun s => Q s ∨ R s) (h' : LeadsTo σ Q R) :
    LeadsTo σ P R := by
  refine h.trans fun i hQR => ?_
  rcases hQR with hQ | hR
  · exact h' i hQ
  · exact ⟨i, Nat.le_refl _, hR⟩

/-- What each step keeps, or else reaches the goal, holds at any later point before the goal. -/
theorem keeps_until {f : S → ℕ}
    (hkeep : ∀ n, P (σ n) → Q (σ (n + 1)) ∨ P (σ (n + 1)) ∧ f (σ (n + 1)) ≤ f (σ n))
    {i : ℕ} (hP : P (σ i)) (d : ℕ) :
    (∃ j, i ≤ j ∧ Q (σ j)) ∨ P (σ (i + d)) ∧ f (σ (i + d)) ≤ f (σ i) := by
  induction d with
  | zero => exact Or.inr ⟨hP, Nat.le_refl _⟩
  | succ d ih =>
    rcases ih with hdone | ⟨hP', hf⟩
    · exact Or.inl hdone
    · rcases hkeep (i + d) hP' with hQ | ⟨hP'', hf'⟩
      · exact Or.inl ⟨i + d + 1, by omega, hQ⟩
      · exact Or.inr ⟨hP'', hf'.trans hf⟩

/-- **Progress.** If every label keeps the condition without increasing the measure, or reaches
the goal, and labels that come again and again decrease the measure, then the goal is reached. -/
theorem leadsTo_of_measure {helpful : L → Prop} (hfair : AgainAndAgain helpful ls) (f : S → ℕ)
    (hstep : ∀ n, P (σ n) → Q (σ (n + 1)) ∨ P (σ (n + 1)) ∧ f (σ (n + 1)) ≤ f (σ n) ∧
      (helpful (ls n) → f (σ (n + 1)) < f (σ n))) : LeadsTo σ P Q := by
  have hkeep : ∀ n, P (σ n) → Q (σ (n + 1)) ∨ P (σ (n + 1)) ∧ f (σ (n + 1)) ≤ f (σ n) :=
    fun n hP => (hstep n hP).imp_right fun ⟨hP', hf, _⟩ => ⟨hP', hf⟩
  intro i hP
  -- the measure at the point from which the goal is sought
  induction hm : f (σ i) using Nat.strong_induction_on generalizing i with
  | _ m ih =>
    obtain ⟨j, hij, hhelpful⟩ := hfair i
    obtain ⟨d, rfl⟩ := Nat.exists_eq_add_of_le hij
    rcases keeps_until hkeep hP d with hdone | ⟨hP', hf⟩
    · exact hdone
    · rcases hstep (i + d) hP' with hQ | ⟨hP'', -, hf'⟩
      · exact ⟨i + d + 1, by omega, hQ⟩
      · have hless := hf' hhelpful
        obtain ⟨j, hij, hQ⟩ := ih (f (σ (i + d + 1))) (by omega) (i + d + 1) hP'' rfl
        exact ⟨j, by omega, hQ⟩

/-- **Progress by an answer.** If every step keeps the condition or reaches the goal, and whenever
the condition holds, some step then or later takes it to the goal, then the goal is reached. -/
theorem leadsTo_of_answer (hstep : ∀ n, P (σ n) → Q (σ (n + 1)) ∨ P (σ (n + 1)))
    (hanswer : ∀ n, P (σ n) → ∃ m, n ≤ m ∧ (P (σ m) → Q (σ (m + 1)))) : LeadsTo σ P Q := by
  intro n hP
  obtain ⟨m, hnm, hm⟩ := hanswer n hP
  obtain ⟨d, rfl⟩ := Nat.exists_eq_add_of_le hnm
  have hkeep (n : ℕ) (hP : P (σ n)) : Q (σ (n + 1)) ∨ P (σ (n + 1)) ∧ 0 ≤ 0 :=
    (hstep n hP).imp_right fun hP' => ⟨hP', Nat.le_refl _⟩
  rcases keeps_until (f := fun _ => 0) hkeep hP d with hdone | ⟨hP', -⟩
  · exact hdone
  · exact ⟨n + d + 1, by omega, hm hP'⟩

/-- A label that is ready stays so until the measure falls or the goal is reached. -/
theorem ready_until {ready : L → S → Prop} {f : S → ℕ}
    (hstep : ∀ n, P (σ n) → Q (σ (n + 1)) ∨ P (σ (n + 1)) ∧ (f (σ (n + 1)) < f (σ n) ∨
      f (σ (n + 1)) = f (σ n) ∧ ¬ ready (ls n) (σ n) ∧ ∀ l, ready l (σ n) → ready l (σ (n + 1))))
    {i : ℕ} {l : L} (hP : P (σ i)) (hready : ready l (σ i)) (d : ℕ) :
    (∃ j, i ≤ j ∧ Q (σ j)) ∨ (∃ j, i ≤ j ∧ P (σ j) ∧ f (σ j) < f (σ i)) ∨
      P (σ (i + d)) ∧ f (σ (i + d)) = f (σ i) ∧ ready l (σ (i + d)) := by
  induction d with
  | zero => exact Or.inr (Or.inr ⟨hP, rfl, hready⟩)
  | succ d ih =>
    rcases ih with hdone | hless | ⟨hP', heq, hready'⟩
    · exact Or.inl hdone
    · exact Or.inr (Or.inl hless)
    · rcases hstep (i + d) hP' with hQ | ⟨hP'', hlt | ⟨heq', -, hkeeps⟩⟩
      · exact Or.inl ⟨i + d + 1, by omega, hQ⟩
      · exact Or.inr (Or.inl ⟨i + d + 1, by omega, hP'', heq ▸ hlt⟩)
      · exact Or.inr (Or.inr ⟨hP'', heq'.trans heq, hkeeps l hready'⟩)

/-- **Progress without a chosen label.** If every label decreases the measure, or it is not ready
and every label that is ready stays so, and if before the goal some label is ready that comes
again and again, then the goal is reached. -/
theorem leadsTo_of_ready {ready : L → S → Prop} (f : S → ℕ)
    (hstep : ∀ n, P (σ n) → Q (σ (n + 1)) ∨ P (σ (n + 1)) ∧ (f (σ (n + 1)) < f (σ n) ∨
      f (σ (n + 1)) = f (σ n) ∧ ¬ ready (ls n) (σ n) ∧ ∀ l, ready l (σ n) → ready l (σ (n + 1))))
    (hready : ∀ n, P (σ n) → ∃ l, AgainAndAgain (· = l) ls ∧ ready l (σ n)) :
    LeadsTo σ P Q := by
  intro i hP
  induction hm : f (σ i) using Nat.strong_induction_on generalizing i with
  | _ m ih =>
    have hfallen {j : ℕ} (hij : i ≤ j) (hP' : P (σ j)) (hlt : f (σ j) < f (σ i)) :
        ∃ k, i ≤ k ∧ Q (σ k) := by
      obtain ⟨k, hjk, hQ⟩ := ih (f (σ j)) (by omega) j hP' rfl
      exact ⟨k, by omega, hQ⟩
    obtain ⟨l, hfair, hl⟩ := hready i hP
    obtain ⟨j, hij, hj⟩ := hfair i
    obtain ⟨d, rfl⟩ := Nat.exists_eq_add_of_le hij
    rcases ready_until hstep hP hl d with hdone | ⟨j, hij', hP', hlt⟩ | ⟨hP', heq, hl'⟩
    · exact hdone
    · exact hfallen hij' hP' hlt
    · rcases hstep (i + d) hP' with hQ | ⟨hP'', hlt | ⟨-, hnot, -⟩⟩
      · exact ⟨i + d + 1, by omega, hQ⟩
      · exact hfallen (by omega) hP'' (heq ▸ hlt)
      · exact absurd (hj ▸ hl') hnot

/-- A label that has an effect keeps it as long as nothing happens. -/
theorem leadsTo_of_enabled {step : S → L → S} {init : S} (f : S → ℕ)
    (hstep : ∀ n, P (trace step init ls n) → Q (trace step init ls (n + 1)) ∨
      P (trace step init ls (n + 1)) ∧ (trace step init ls (n + 1) = trace step init ls n ∨
        f (trace step init ls (n + 1)) < f (trace step init ls n)))
    (henabled : ∀ s, P s → ∃ l, AgainAndAgain (· = l) ls ∧ step s l ≠ s) :
    LeadsTo (trace step init ls) P Q := by
  refine @leadsTo_of_ready S L _ ls P Q (fun l s => step s l ≠ s) f (fun n hP => ?_)
    fun n => henabled _
  rcases hstep n hP with hQ | ⟨hP', heq | hlt⟩
  · exact Or.inl hQ
  · refine Or.inr ⟨hP', Or.inr ⟨congrArg f heq, fun heffect => heffect heq, fun l hl => ?_⟩⟩
    rwa [heq]
  · exact Or.inr ⟨hP', Or.inl hlt⟩

end Lib
