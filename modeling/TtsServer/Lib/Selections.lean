import Mathlib.Data.List.Induction

/-!
# Selections from a list

A selection keeps some elements of a list, in their order. Whether an element may
be kept, and whether it must be, depends on the elements before it. All selections
lie between two extreme ones: the elements that must be kept, and those that may.
-/

namespace Lib

variable {α : Type*} {test may must : List α → α → Bool} {l l' k : List α} {a : α}

/-- The elements of a list that pass a test which sees the elements before them. -/
def accepted : (List α → α → Bool) → List α → List α
  | _, [] => []
  | test, a :: l =>
    (if test [] a then [a] else []) ++ accepted (fun before => test (a :: before)) l

/-- What a concatenation contributes: its second part is tested after the first. -/
theorem accepted_append :
    accepted test (l ++ l') =
      accepted test l ++ accepted (fun before => test (l ++ before)) l' := by
  induction l generalizing test with
  | nil => rfl
  | cons a l ih => simp [accepted, ih]

/-- The last element is tested after all others. -/
theorem accepted_concat :
    accepted test (l ++ [a]) = accepted test l ++ if test l a then [a] else [] := by
  simp [accepted_append, accepted]

/-- An element is accepted where the test passes. -/
theorem mem_accepted :
    a ∈ accepted test l ↔ ∃ l₁ l₂, l = l₁ ++ a :: l₂ ∧ test l₁ a = true := by
  constructor
  · intro hmem
    induction l using List.reverseRecOn with
    | nil => cases hmem
    | append_singleton l b ih =>
      rw [accepted_concat, List.mem_append] at hmem
      rcases hmem with hmem | hlast
      · obtain ⟨l₁, l₂, rfl, htest⟩ := ih hmem
        exact ⟨l₁, l₂ ++ [b], by simp, htest⟩
      · split at hlast
        · obtain rfl := List.mem_singleton.mp hlast
          exact ⟨l, [], rfl, ‹_›⟩
        · cases hlast
  · rintro ⟨l₁, l₂, rfl, htest⟩
    simp [accepted_append, accepted, htest]

/-- A longer list contributes more. -/
theorem accepted_append_sublist : (accepted test l).Sublist (accepted test (l ++ l')) := by
  rw [accepted_append]
  exact List.sublist_append_left _ _

/-- A weaker test accepts more. -/
theorem accepted_sublist {test' : List α → α → Bool}
    (h : ∀ l a, test l a = true → test' l a = true) :
    (accepted test l).Sublist (accepted test' l) := by
  induction l using List.reverseRecOn with
  | nil => exact List.Sublist.slnil
  | append_singleton l a ih =>
    rw [accepted_concat, accepted_concat]
    refine ih.append ?_
    by_cases htest : test l a = true
    · simp [htest, h l a htest]
    · simp [htest]

/-- A selection from a list: an element is kept only if it may be, and skipped only if it
need not be kept. -/
inductive Selects (may must : List α → α → Bool) : List α → List α → Prop
  | nil : Selects may must [] []
  | keep {l k : List α} {a : α} : Selects may must l k → may l a = true →
      Selects may must (l ++ [a]) (k ++ [a])
  | skip {l k : List α} {a : α} : Selects may must l k → must l a = false →
      Selects may must (l ++ [a]) k

/-- Keeping all that may be kept is a selection. -/
theorem Selects.all (h : ∀ l a, must l a = true → may l a = true) :
    Selects may must l (accepted may l) := by
  induction l using List.reverseRecOn with
  | nil => exact .nil
  | append_singleton l a ih =>
    rw [accepted_concat]
    split
    · exact ih.keep ‹_›
    · rename_i hmay
      rw [List.append_nil]
      refine ih.skip ?_
      rw [← Bool.not_eq_true]
      exact fun hmust => hmay (h l a hmust)

/-- Everything kept may be kept. -/
theorem Selects.sublist_may (h : Selects may must l k) : k.Sublist (accepted may l) := by
  induction h with
  | nil => exact List.Sublist.slnil
  | keep _ hmay ih =>
    rw [accepted_concat, if_pos hmay]
    exact ih.append (List.Sublist.refl _)
  | skip _ _ ih =>
    rw [accepted_concat]
    exact ih.trans (List.sublist_append_left _ _)

/-- Everything that must be kept is. -/
theorem Selects.must_sublist (h : Selects may must l k) : (accepted must l).Sublist k := by
  induction h with
  | nil => exact List.Sublist.slnil
  | keep _ _ ih =>
    rw [accepted_concat]
    refine ih.append ?_
    split
    · exact List.Sublist.refl _
    · exact List.nil_sublist _
  | skip _ hmust ih => simpa [accepted_concat, hmust] using ih

end Lib
