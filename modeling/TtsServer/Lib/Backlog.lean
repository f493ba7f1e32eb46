import Mathlib.Algebra.BigOperators.Group.List.Basic
import Mathlib.Algebra.GroupWithZero.Nat
import Mathlib.Data.List.Induction

/-!
# The backlog of a server

Items arrive in lots, and after each lot the server takes one item away if there is one.
How many items are left is decided by the final stretches of the arrivals: at most `k`
are left exactly if in no final stretch more than `k` items arrive beyond one for each
lot.
-/

namespace Lib

variable {α : Type*} {size : α → ℕ} {arrivals : List α} {k : ℕ}

/-- The number of items left after some lots of given sizes, of which the server has taken
one after each lot. -/
def backlog (size : α → ℕ) (arrivals : List α) : ℕ :=
  arrivals.foldl (fun waiting lot => waiting + size lot - 1) 0

/-- One more lot. -/
theorem backlog_concat (lot : α) :
    backlog size (arrivals ++ [lot]) = backlog size arrivals + size lot - 1 := by
  rw [backlog, List.foldl_append]
  rfl

/-- The backlog is bounded by what arrives in the final stretches. -/
theorem backlog_le_iff :
    backlog size arrivals ≤ k ↔
      ∀ late, late <:+ arrivals → (late.map size).sum ≤ late.length + k := by
  induction arrivals using List.reverseRecOn generalizing k with
  | nil =>
    simp only [backlog, List.foldl_nil, Nat.zero_le, true_iff, List.suffix_nil]
    rintro late rfl
    simp
  | append_singleton arrivals lot ih =>
    rw [backlog_concat]
    -- A final stretch is empty, or it consists of earlier lots and the last one.
    constructor
    · intro hle late hlate
      obtain rfl | ⟨early, rfl, hearly⟩ := List.suffix_concat_iff.mp hlate
      · simp
      · have hbound : backlog size arrivals ≤ k + 1 - size lot := by omega
        have harrived := ih.mp hbound early hearly
        have hlot : size lot ≤ k + 1 := by omega
        simp only [List.map_append, List.map_cons, List.map_nil, List.sum_append,
          List.sum_singleton, List.length_append, List.length_singleton]
        omega
    · intro hall
      have hlast := hall [lot] (List.suffix_append arrivals [lot])
      simp only [List.map_cons, List.map_nil, List.sum_singleton, List.length_singleton] at hlast
      have hbound : backlog size arrivals ≤ k + 1 - size lot := by
        refine ih.mpr fun early hearly => ?_
        have harrived := hall (early ++ [lot]) (List.suffix_append_self_iff.mpr hearly)
        simp only [List.map_append, List.map_cons, List.map_nil, List.sum_append,
          List.sum_singleton, List.length_append, List.length_singleton] at harrived
        omega
      omega

end Lib
