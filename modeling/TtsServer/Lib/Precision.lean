import Mathlib.Algebra.Order.Floor.Ring
import Mathlib.Data.Int.Log
import Mathlib.Tactic.FieldSimp
import Mathlib.Tactic.Linarith
import Mathlib.Tactic.Positivity
import Mathlib.Tactic.Ring
import TtsServer.Lib.Rounding

/-!
# Rounding to a number of significant bits

The result of an operation on floating-point numbers is the exact result, rounded to the
precision of the format. `RoundsTo` lists what an error analysis uses of a rounding, and
`roundToBits` is rounding to the nearest number with `p` significant bits, ties going to the even
one. Exponents are unbounded, so there is neither overflow nor loss of precision near zero.
-/

namespace Lib

variable {K : Type*} [Field K] [LinearOrder K] {x y : K} {n : ℤ} {p : ℕ}

/-! ### What a rounding does -/

/-- A rounding to `p` significant bits: it keeps the order and the integers of at most `p` bits,
and its relative error is at most `1 / 2 ^ p`. -/
structure RoundsTo (p : ℕ) (round : K → K) : Prop where
  mono : Monotone round
  int : ∀ n : ℤ, |n| < 2 ^ p → round n = n
  error : ∀ x, |round x - x| ≤ |x| / 2 ^ p

namespace RoundsTo

variable {round : K → K}

/-- Natural numbers of at most `p` bits are kept. -/
theorem nat (h : RoundsTo p round) {k : ℕ} (hk : k < 2 ^ p) : round k = k := by
  have habs : |(k : ℤ)| < 2 ^ p := by
    rw [Nat.abs_cast]
    exact_mod_cast hk
  exact_mod_cast h.int k habs

/-- A lower bound by an integer is kept. -/
theorem le_round (h : RoundsTo p round) (hn : |n| < 2 ^ p) (hx : (n : K) ≤ x) :
    (n : K) ≤ round x := by
  rw [← h.int n hn]
  exact h.mono hx

/-- An upper bound by an integer is kept. -/
theorem round_le (h : RoundsTo p round) (hn : |n| < 2 ^ p) (hx : x ≤ (n : K)) :
    round x ≤ n := by
  rw [← h.int n hn]
  exact h.mono hx

/-- A number that is not negative stays so. -/
theorem nonneg (h : RoundsTo p round) (hx : 0 ≤ x) : 0 ≤ round x := by
  have hzero := h.le_round (n := 0) (by simp) (by simpa using hx)
  simpa using hzero

/-- Numbers of the unit interval stay there. -/
theorem mem_unit (h : RoundsTo p round) (hp : 0 < p) (hx : 0 ≤ x) (hx' : x ≤ 1) :
    0 ≤ round x ∧ round x ≤ 1 := by
  have hbits : |(1 : ℤ)| < 2 ^ p := by
    rw [abs_one]
    exact one_lt_pow₀ (by norm_num) hp.ne'
  have hone := h.round_le hbits (by simpa using hx')
  exact ⟨h.nonneg hx, by simpa using hone⟩

variable [IsStrictOrderedRing K]

/-- A number that is not negative grows by at most the relative error. -/
theorem le_of_nonneg (h : RoundsTo p round) (hx : 0 ≤ x) : round x ≤ x + x / 2 ^ p := by
  have herror := (abs_le.mp (h.error x)).2
  rw [abs_of_nonneg hx] at herror
  linarith

/-- A number that is not negative shrinks by at most the relative error. -/
theorem ge_of_nonneg (h : RoundsTo p round) (hx : 0 ≤ x) : x - x / 2 ^ p ≤ round x := by
  have herror := (abs_le.mp (h.error x)).1
  rw [abs_of_nonneg hx] at herror
  linarith

end RoundsTo

/-- Exact arithmetic rounds nothing. -/
theorem roundsTo_id [IsStrictOrderedRing K] (p : ℕ) : RoundsTo p (id : K → K) where
  mono := monotone_id
  int := fun _ _ => rfl
  error := fun x => by
    rw [id_eq, sub_self, abs_zero]
    positivity

/-! ### Rounding to the nearest -/

variable [FloorRing K]

/-- The unit of a number: the distance of neighbours of `p` significant bits, between the powers of
two that the number lies between. -/
def ulp (p : ℕ) (x : K) : K := ((2 : ℕ) : K) ^ (Int.log 2 |x| + 1 - p)

/-- The nearest number of `p` significant bits, ties going to the even one. -/
def roundToBits (p : ℕ) (x : K) : K :=
  if x = 0 then 0 else roundHalfEven (x / ulp p x) * ulp p x

variable [IsStrictOrderedRing K]

/-- The power of two above a number is a whole number of its units. -/
theorem two_zpow_log_succ : (2 : K) ^ (Int.log 2 |x| + 1) = ((2 ^ p : ℤ) : K) * ulp p x := by
  have hcast : ((2 ^ p : ℤ) : K) = (2 : K) ^ (p : ℤ) := by
    rw [zpow_natCast]
    norm_num
  rw [hcast, ulp, Nat.cast_ofNat, ← zpow_add₀ two_pos.ne']
  congr 1
  ring

/-- So is the power of two below it. -/
theorem two_zpow_log (hp : 0 < p) :
    (2 : K) ^ Int.log 2 |x| = ((2 ^ (p - 1) : ℤ) : K) * ulp p x := by
  have hcast : ((2 ^ (p - 1) : ℤ) : K) = (2 : K) ^ ((p - 1 : ℕ) : ℤ) := by
    rw [zpow_natCast]
    norm_num
  rw [hcast, ulp, Nat.cast_ofNat, ← zpow_add₀ two_pos.ne']
  congr 1
  omega

/-- Neighbours are apart. -/
theorem ulp_pos : 0 < ulp p x := zpow_pos (Nat.cast_pos.mpr Nat.two_pos) _

/-- A number other than zero lies between the two powers. -/
theorem abs_mem_binade (hx : x ≠ 0) :
    (2 : K) ^ Int.log 2 |x| ≤ |x| ∧ |x| < (2 : K) ^ (Int.log 2 |x| + 1) := by
  constructor
  · simpa using Int.zpow_log_le_self Nat.one_lt_two (abs_pos.mpr hx)
  · simpa using Int.lt_zpow_succ_log_self Nat.one_lt_two |x|

/-- Rounding keeps a lower bound by a whole number of units. -/
theorem le_roundToBits (hx : x ≠ 0) (h : n * ulp p x ≤ x) : n * ulp p x ≤ roundToBits p x := by
  rw [roundToBits, if_neg hx]
  refine mul_le_mul_of_nonneg_right ?_ ulp_pos.le
  exact_mod_cast le_roundHalfEven ((le_div_iff₀ ulp_pos).mpr h)

/-- Rounding keeps an upper bound by a whole number of units. -/
theorem roundToBits_le (hx : x ≠ 0) (h : x ≤ n * ulp p x) : roundToBits p x ≤ n * ulp p x := by
  rw [roundToBits, if_neg hx]
  refine mul_le_mul_of_nonneg_right ?_ ulp_pos.le
  exact_mod_cast roundHalfEven_le ((div_le_iff₀ ulp_pos).mpr h)

/-- A whole number of units is rounded to itself. -/
theorem roundToBits_of_units (h : x = n * ulp p x) : roundToBits p x = x := by
  by_cases hx : x = 0
  · rw [hx, roundToBits, if_pos rfl]
  · exact (le_antisymm (roundToBits_le hx h.le) (le_roundToBits hx h.ge)).trans h.symm

/-- A positive number stays between the two powers. -/
theorem roundToBits_of_pos (hp : 0 < p) (hx : 0 < x) :
    (2 : K) ^ Int.log 2 |x| ≤ roundToBits p x ∧
      roundToBits p x ≤ (2 : K) ^ (Int.log 2 |x| + 1) := by
  obtain ⟨hlow, hhigh⟩ := abs_mem_binade hx.ne'
  constructor
  · rw [two_zpow_log hp] at hlow ⊢
    exact le_roundToBits hx.ne' (hlow.trans_eq (abs_of_pos hx))
  · rw [two_zpow_log_succ] at hhigh ⊢
    exact roundToBits_le hx.ne' ((le_abs_self x).trans hhigh.le)

/-- So does a negative number, below zero. -/
theorem roundToBits_of_neg (hp : 0 < p) (hx : x < 0) :
    -(2 : K) ^ (Int.log 2 |x| + 1) ≤ roundToBits p x ∧
      roundToBits p x ≤ -(2 : K) ^ Int.log 2 |x| := by
  obtain ⟨hlow, hhigh⟩ := abs_mem_binade hx.ne
  have habs := abs_of_neg hx
  constructor
  · rw [two_zpow_log_succ] at hhigh ⊢
    rw [← neg_mul, ← Int.cast_neg]
    refine le_roundToBits hx.ne ?_
    rw [Int.cast_neg, neg_mul]
    linarith
  · rw [two_zpow_log hp] at hlow ⊢
    rw [← neg_mul, ← Int.cast_neg]
    refine roundToBits_le hx.ne ?_
    rw [Int.cast_neg, neg_mul]
    linarith

/-- Numbers between the same two powers of two are rounded in the same units, so their order is
kept. -/
theorem roundToBits_le_of_log_eq (hx : x ≠ 0) (hy : y ≠ 0) (hxy : x ≤ y)
    (hlog : Int.log 2 |x| = Int.log 2 |y|) : roundToBits p x ≤ roundToBits p y := by
  have hulp : ulp p x = ulp p y := by rw [ulp, ulp, hlog]
  rw [roundToBits, roundToBits, if_neg hx, if_neg hy, hulp]
  refine mul_le_mul_of_nonneg_right ?_ ulp_pos.le
  exact_mod_cast roundHalfEven_le_roundHalfEven (div_le_div_of_nonneg_right hxy ulp_pos.le)

/-- Rounding keeps the order of positive numbers. -/
theorem roundToBits_mono_of_pos (hp : 0 < p) (hx : 0 < x) (hxy : x ≤ y) :
    roundToBits p x ≤ roundToBits p y := by
  have hy : 0 < y := hx.trans_le hxy
  have hlog : Int.log 2 |x| ≤ Int.log 2 |y| := by
    rw [abs_of_pos hx, abs_of_pos hy]
    exact Int.log_mono_right hx hxy
  rcases hlog.eq_or_lt with hsame | hlt
  · exact roundToBits_le_of_log_eq hx.ne' hy.ne' hxy hsame
  · calc roundToBits p x ≤ 2 ^ (Int.log 2 |x| + 1) := (roundToBits_of_pos hp hx).2
      _ ≤ 2 ^ Int.log 2 |y| := zpow_le_zpow_right₀ one_le_two (by omega)
      _ ≤ roundToBits p y := (roundToBits_of_pos hp hy).1

/-- Rounding keeps the order of negative numbers. -/
theorem roundToBits_mono_of_neg (hp : 0 < p) (hy : y < 0) (hxy : x ≤ y) :
    roundToBits p x ≤ roundToBits p y := by
  have hx : x < 0 := hxy.trans_lt hy
  have hlog : Int.log 2 |y| ≤ Int.log 2 |x| := by
    rw [abs_of_neg hx, abs_of_neg hy]
    exact Int.log_mono_right (neg_pos.mpr hy) (neg_le_neg hxy)
  rcases hlog.eq_or_lt with hsame | hlt
  · exact roundToBits_le_of_log_eq hx.ne hy.ne hxy hsame.symm
  · calc roundToBits p x ≤ -2 ^ Int.log 2 |x| := (roundToBits_of_neg hp hx).2
      _ ≤ -2 ^ (Int.log 2 |y| + 1) :=
        neg_le_neg (zpow_le_zpow_right₀ one_le_two (by omega))
      _ ≤ roundToBits p y := (roundToBits_of_neg hp hy).1

/-- Rounding keeps the order. -/
theorem roundToBits_mono (hp : 0 < p) : Monotone (roundToBits p : K → K) := by
  intro x y hxy
  have hzero : roundToBits p (0 : K) = 0 := if_pos rfl
  rcases lt_trichotomy x 0 with hx | rfl | hx
  · rcases lt_trichotomy y 0 with hy | rfl | hy
    · exact roundToBits_mono_of_neg hp hy hxy
    · have hbelow := (roundToBits_of_neg hp hx).2
      have hpower : (0 : K) < 2 ^ Int.log 2 |x| := zpow_pos two_pos _
      linarith
    · have hbelow := (roundToBits_of_neg hp hx).2
      have habove := (roundToBits_of_pos hp hy).1
      have hpower : (0 : K) < 2 ^ Int.log 2 |x| := zpow_pos two_pos _
      have hpower' : (0 : K) < 2 ^ Int.log 2 |y| := zpow_pos two_pos _
      linarith
  · rcases hxy.eq_or_lt with rfl | hy
    · exact le_rfl
    · have habove := (roundToBits_of_pos hp hy).1
      have hpower : (0 : K) < 2 ^ Int.log 2 |y| := zpow_pos two_pos _
      linarith
  · exact roundToBits_mono_of_pos hp hx hxy

/-- Rounding moves a number by at most half a unit. -/
theorem abs_roundToBits_sub_le (x : K) : |roundToBits p x - x| ≤ |x| / 2 ^ p := by
  by_cases hx : x = 0
  · rw [hx, roundToBits, if_pos rfl, sub_self, abs_zero]
    positivity
  have hunits : roundToBits p x - x = (roundHalfEven (x / ulp p x) - x / ulp p x) * ulp p x := by
    rw [roundToBits, if_neg hx, sub_mul, div_mul_cancel₀ _ ulp_pos.ne']
  have hhalf : (2 : K) ^ Int.log 2 |x| = 2 ^ p * (1 / 2 * ulp p x) := by
    have hsucc := two_zpow_log_succ (x := x) (p := p)
    rw [zpow_add_one₀ two_ne_zero] at hsucc
    push_cast at hsucc
    linarith
  rw [hunits, abs_mul, abs_of_pos (ulp_pos (x := x)), le_div_iff₀ (by positivity)]
  calc |(roundHalfEven (x / ulp p x) : K) - x / ulp p x| * ulp p x * 2 ^ p
      ≤ 1 / 2 * ulp p x * 2 ^ p := by
        gcongr
        · exact ulp_pos.le
        · exact abs_roundHalfEven_sub_le _
    _ = 2 ^ Int.log 2 |x| := by rw [hhalf, mul_comm]
    _ ≤ |x| := (abs_mem_binade hx).1

/-- Integers of at most `p` bits are kept: one is a whole number of their units. -/
theorem roundToBits_intCast (hn : |n| < 2 ^ p) : roundToBits p (n : K) = n := by
  by_cases hzero : n = 0
  · rw [hzero, Int.cast_zero, roundToBits, if_pos rfl]
  have hlog : Int.log 2 |(n : K)| < p := by
    refine (Int.lt_zpow_iff_log_lt Nat.one_lt_two (by simpa using hzero)).mp ?_
    rw [zpow_natCast, Nat.cast_ofNat]
    exact_mod_cast hn
  obtain ⟨k, hk⟩ := Int.eq_ofNat_of_zero_le (by omega : 0 ≤ p - 1 - Int.log 2 |(n : K)|)
  have hone : (2 : K) ^ k * ulp p (n : K) = 1 := by
    rw [ulp, Nat.cast_ofNat, ← zpow_natCast, ← zpow_add₀ two_ne_zero, ← hk]
    ring_nf
    exact zpow_zero 2
  refine roundToBits_of_units (n := n * 2 ^ k) ?_
  push_cast
  rw [mul_assoc, hone, mul_one]

/-- Rounding to the nearest is a rounding. -/
theorem roundsTo_roundToBits (hp : 0 < p) : RoundsTo p (roundToBits p : K → K) where
  mono := roundToBits_mono hp
  int := fun _ => roundToBits_intCast
  error := abs_roundToBits_sub_le

end Lib
