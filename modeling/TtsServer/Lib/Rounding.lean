import Mathlib.Algebra.Order.Floor.Ring
import Mathlib.Algebra.Field.Basic
import Mathlib.Algebra.Ring.Int.Parity
import Mathlib.Tactic.Linarith

/-!
# Rounding half to even

The integer nearest to a number, and of two equally near integers the even one. It lies
between the floor and the ceiling, so it keeps every bound by an integer. It is at most one half
away, and it keeps the order.
-/

namespace Lib

variable {R : Type*} [Field R] [LinearOrder R] [IsStrictOrderedRing R] [FloorRing R] {x : R}
  {n : ℤ}

/-- The nearest integer, ties going to the even one. -/
def roundHalfEven (x : R) : ℤ :=
  if x - ⌊x⌋ < 1 / 2 then ⌊x⌋
  else if 1 / 2 < x - ⌊x⌋ then ⌊x⌋ + 1
  else if Even ⌊x⌋ then ⌊x⌋ else ⌊x⌋ + 1

/-- Rounding goes to the floor, or to the next integer if the number is above the floor. -/
theorem roundHalfEven_cases :
    roundHalfEven x = ⌊x⌋ ∨ (roundHalfEven x = ⌊x⌋ + 1 ∧ (⌊x⌋ : R) < x) := by
  unfold roundHalfEven
  split
  · exact Or.inl rfl
  · have habove : (⌊x⌋ : R) < x := by
      have hhalf : (1 / 2 : R) ≤ x - ⌊x⌋ := not_lt.mp ‹_›
      have hpos : (0 : R) < x - ⌊x⌋ := lt_of_lt_of_le one_half_pos hhalf
      exact sub_pos.mp hpos
    split
    · exact Or.inr ⟨rfl, habove⟩
    · split
      · exact Or.inl rfl
      · exact Or.inr ⟨rfl, habove⟩

/-- Rounding keeps a lower bound by an integer. -/
theorem le_roundHalfEven (h : (n : R) ≤ x) : n ≤ roundHalfEven x := by
  have hfloor : n ≤ ⌊x⌋ := Int.le_floor.mpr h
  obtain heq | ⟨heq, -⟩ := @roundHalfEven_cases R _ _ _ _ x
  · omega
  · omega

/-- Rounding keeps an upper bound by an integer. -/
theorem roundHalfEven_le (h : x ≤ n) : roundHalfEven x ≤ n := by
  obtain heq | ⟨heq, habove⟩ := @roundHalfEven_cases R _ _ _ _ x
  · rw [heq]
    exact Int.cast_le.mp ((Int.floor_le x).trans h)
  · have hlt : ⌊x⌋ < n := Int.cast_lt.mp (habove.trans_le h)
    omega

/-- Integers are rounded to themselves. -/
theorem roundHalfEven_intCast : roundHalfEven (n : R) = n :=
  le_antisymm (roundHalfEven_le le_rfl) (le_roundHalfEven le_rfl)

/-- Rounding moves a number by at most one half. -/
theorem abs_roundHalfEven_sub_le (x : R) : |(roundHalfEven x : R) - x| ≤ 1 / 2 := by
  have hfloor := Int.floor_le x
  have hceil := Int.lt_floor_add_one x
  unfold roundHalfEven
  split_ifs with hlow hhigh
  · rw [abs_le]
    constructor <;> linarith
  · push_cast
    rw [abs_le]
    constructor <;> linarith
  · rw [abs_le]
    constructor <;> linarith
  · push_cast
    rw [abs_le]
    constructor <;> linarith

/-- Rounding keeps the order. -/
theorem roundHalfEven_le_roundHalfEven {y : R} (hxy : x ≤ y) :
    roundHalfEven x ≤ roundHalfEven y := by
  rcases (Int.floor_le_floor hxy).eq_or_lt with hsame | hlt
  · -- The numbers have the same floor, and the larger one is as far above it or farther.
    have hoffset : x - ⌊x⌋ ≤ y - ⌊x⌋ := sub_le_sub_right hxy _
    unfold roundHalfEven
    rw [← hsame]
    by_cases hlow : x - ⌊x⌋ < 1 / 2
    · rw [if_pos hlow]
      split_ifs <;> omega
    · rw [if_neg hlow, if_neg (not_lt.mpr ((not_lt.mp hlow).trans hoffset))]
      by_cases hhigh : 1 / 2 < x - ⌊x⌋
      · rw [if_pos hhigh, if_pos (hhigh.trans_le hoffset)]
      · rw [if_neg hhigh]
        split_ifs <;> omega
  · obtain heq | ⟨heq, -⟩ := @roundHalfEven_cases R _ _ _ _ x <;>
      obtain heq' | ⟨heq', -⟩ := @roundHalfEven_cases R _ _ _ _ y <;> omega

end Lib
