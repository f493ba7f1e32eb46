import TtsServer.Lib.Precision

/-!
# Linear interpolation

A sequence of numbers is joined by straight lines. The joined line is as steep as its steepest
piece, so a small error in the place is a small error in the value; and computing the value with
rounded operations adds a few roundings.
-/

namespace Lib

variable {K : Type*} [Field K] [LinearOrder K] [IsStrictOrderedRing K]

/-! ### The line through the values of a sequence -/

section Line

variable {f : ℕ → K} {L x y : K} {k : ℕ}

/-- Values of the sequence differ by at most one step for each index between them. -/
theorem abs_sub_le_of_steps (hf : ∀ k, |f (k + 1) - f k| ≤ L) {a b : ℕ} (hab : a ≤ b) :
    |f b - f a| ≤ L * (b - a) := by
  induction b, hab using Nat.le_induction with
  | base => simp
  | succ b _ ih =>
    calc |f (b + 1) - f a| ≤ |f (b + 1) - f b| + |f b - f a| := abs_sub_le _ _ _
      _ ≤ L + L * (b - a) := add_le_add (hf b) ih
      _ = L * ((b + 1 : ℕ) - a) := by
        push_cast
        ring

variable [FloorSemiring K]

/-- The value of the line at a place: the two neighbours of the place, weighted by its distance
from them. -/
def lerp (f : ℕ → K) (x : K) : K :=
  (1 - (x - ⌊x⌋₊)) * f ⌊x⌋₊ + (x - ⌊x⌋₊) * f (⌊x⌋₊ + 1)

/-- The piece of the line between two neighbours, both of them included. -/
theorem lerp_eq (hk : (k : K) ≤ x) (hk' : x ≤ k + 1) :
    lerp f x = f k + (x - k) * (f (k + 1) - f k) := by
  rcases hk'.eq_or_lt with rfl | hlt
  · have hfloor : ⌊(k : K) + 1⌋₊ = k + 1 := by exact_mod_cast Nat.floor_natCast (R := K) (k + 1)
    rw [lerp, hfloor]
    push_cast
    ring
  · have hfloor : ⌊x⌋₊ = k := (Nat.floor_eq_iff ((Nat.cast_nonneg k).trans hk)).mpr ⟨hk, hlt⟩
    rw [lerp, hfloor]
    ring

/-- Between two neighbours the line is no steeper than they allow. -/
theorem abs_lerp_sub_le_of_piece (hf : |f (k + 1) - f k| ≤ L) (hx : (k : K) ≤ x)
    (hxy : x ≤ y) (hy : y ≤ k + 1) : |lerp f y - lerp f x| ≤ L * (y - x) := by
  have hdiff : lerp f y - lerp f x = (f (k + 1) - f k) * (y - x) := by
    rw [lerp_eq hx (hxy.trans hy), lerp_eq (hx.trans hxy) hy]
    ring
  rw [hdiff, abs_mul, abs_of_nonneg (sub_nonneg.mpr hxy)]
  exact mul_le_mul_of_nonneg_right hf (sub_nonneg.mpr hxy)

/-- At an index the line takes the value of the sequence. -/
theorem lerp_natCast : lerp f (k : K) = f k := by
  rw [lerp_eq le_rfl (by linarith)]
  ring

/-- The line stays within the bounds of the sequence. -/
theorem lerp_mem {a b : K} (hf : ∀ k, a ≤ f k ∧ f k ≤ b) (hx : 0 ≤ x) :
    a ≤ lerp f x ∧ lerp f x ≤ b := by
  have hd : 0 ≤ x - ⌊x⌋₊ := sub_nonneg.mpr (Nat.floor_le hx)
  have hd' : 0 ≤ 1 - (x - ⌊x⌋₊) := by linarith [Nat.lt_floor_add_one x]
  obtain ⟨hlow, hhigh⟩ := hf ⌊x⌋₊
  obtain ⟨hlow', hhigh'⟩ := hf (⌊x⌋₊ + 1)
  have hweights (c : K) : c = (1 - (x - ⌊x⌋₊)) * c + (x - ⌊x⌋₊) * c := by ring
  unfold lerp
  constructor
  · calc a = (1 - (x - ⌊x⌋₊)) * a + (x - ⌊x⌋₊) * a := hweights a
      _ ≤ _ := add_le_add (mul_le_mul_of_nonneg_left hlow hd') (mul_le_mul_of_nonneg_left hlow' hd)
  · calc _ ≤ (1 - (x - ⌊x⌋₊)) * b + (x - ⌊x⌋₊) * b :=
        add_le_add (mul_le_mul_of_nonneg_left hhigh hd') (mul_le_mul_of_nonneg_left hhigh' hd)
      _ = b := (hweights b).symm

/-- The line is no steeper than its steepest piece. -/
theorem abs_lerp_sub_le (hf : ∀ k, |f (k + 1) - f k| ≤ L) (hx : 0 ≤ x) (hxy : x ≤ y) :
    |lerp f y - lerp f x| ≤ L * (y - x) := by
  have hfloor := Nat.floor_le hx
  have hceil := (Nat.lt_floor_add_one x).le
  have hfloor' := Nat.floor_le (hx.trans hxy)
  have hceil' := (Nat.lt_floor_add_one y).le
  rcases (Nat.floor_le_floor hxy).eq_or_lt with hsame | hlt
  · exact abs_lerp_sub_le_of_piece (hf _) hfloor hxy (hsame ▸ hceil')
  · -- From `x` up to the next index, from there to the last index before `y`, and on to `y`.
    have hfirst := abs_lerp_sub_le_of_piece (hf _) hfloor hceil le_rfl
    have hsteps := abs_sub_le_of_steps hf (Nat.succ_le_of_lt hlt)
    have hlast := abs_lerp_sub_le_of_piece (hf _) le_rfl hfloor' hceil'
    rw [← Nat.cast_succ, lerp_natCast] at hfirst
    rw [lerp_natCast] at hlast
    calc |lerp f y - lerp f x|
        ≤ |lerp f y - f ⌊y⌋₊| + |f ⌊y⌋₊ - lerp f x| := abs_sub_le _ _ _
      _ ≤ |lerp f y - f ⌊y⌋₊| +
          (|f ⌊y⌋₊ - f (⌊x⌋₊ + 1)| + |f (⌊x⌋₊ + 1) - lerp f x|) := by
        gcongr
        exact abs_sub_le _ _ _
      _ ≤ L * (y - ⌊y⌋₊) + (L * (⌊y⌋₊ - (⌊x⌋₊ + 1 : ℕ)) + L * ((⌊x⌋₊ + 1 : ℕ) - x)) :=
        add_le_add hlast (add_le_add hsteps hfirst)
      _ = L * (y - x) := by ring

/-- Places in either order. -/
theorem abs_lerp_sub_le_abs (hf : ∀ k, |f (k + 1) - f k| ≤ L) (hx : 0 ≤ x) (hy : 0 ≤ y) :
    |lerp f y - lerp f x| ≤ L * |y - x| := by
  rcases le_total x y with hxy | hyx
  · rw [abs_of_nonneg (sub_nonneg.mpr hxy)]
    exact abs_lerp_sub_le hf hx hxy
  · rw [abs_sub_comm, abs_sub_comm y x, abs_of_nonneg (sub_nonneg.mpr hyx)]
    exact abs_lerp_sub_le hf hy hyx

end Line

/-! ### Rounded operations -/

section Rounded

variable {p : ℕ} {round : K → K} {M d x0 x1 : K}

/-- The value between two neighbours, with every operation rounded. -/
def roundedLerp (round : K → K) (d x0 x1 : K) : K :=
  let t := round d
  round (round (round (1 - t) * x0) + round (t * x1))

/-- A rounded product with a number of the unit interval. -/
theorem RoundsTo.abs_product_sub_le (h : RoundsTo p round) {c e : K} (hM : |x0| ≤ M) (hc : 0 ≤ c)
    (hc' : c ≤ 1) (he : |c - d| ≤ e) :
    |round (c * x0) - d * x0| ≤ M / 2 ^ p + e * M ∧ |round (c * x0)| ≤ 2 * M := by
  have habs : |c * x0| ≤ M := by
    rw [abs_mul, abs_of_nonneg hc]
    calc c * |x0| ≤ 1 * |x0| := mul_le_mul_of_nonneg_right hc' (abs_nonneg _)
      _ = |x0| := one_mul _
      _ ≤ M := hM
  have herror : |round (c * x0) - c * x0| ≤ M / 2 ^ p :=
    (h.error _).trans (div_le_div_of_nonneg_right habs (by positivity))
  have hmoved : |c * x0 - d * x0| ≤ e * M := by
    rw [← sub_mul, abs_mul]
    exact mul_le_mul he hM (abs_nonneg _) ((abs_nonneg _).trans he)
  have hM0 : 0 ≤ M := (abs_nonneg _).trans hM
  have hsmall : M / 2 ^ p ≤ M := div_le_self hM0 (one_le_pow₀ one_le_two)
  constructor
  · exact (abs_sub_le _ _ _).trans (add_le_add herror hmoved)
  · calc |round (c * x0)| = |(round (c * x0) - c * x0) + c * x0| := by rw [sub_add_cancel]
      _ ≤ M / 2 ^ p + M := (abs_add_le _ _).trans (add_le_add herror habs)
      _ ≤ 2 * M := by linarith

/-- Rounding all operations moves the value by at most nine roundings of the largest number. -/
theorem RoundsTo.abs_roundedLerp_sub_le (h : RoundsTo p round) (hp : 0 < p) (hd : 0 ≤ d)
    (hd' : d ≤ 1) (h0 : |x0| ≤ M) (h1 : |x1| ≤ M) :
    |roundedLerp round d x0 x1 - ((1 - d) * x0 + d * x1)| ≤ 9 * M / 2 ^ p := by
  have hunit (c : K) (hc : 0 ≤ c) (hc' : c ≤ 1) : |round c - c| ≤ 1 / 2 ^ p := by
    refine (h.error c).trans (div_le_div_of_nonneg_right ?_ (by positivity))
    rw [abs_of_nonneg hc]
    exact hc'
  obtain ⟨ht, ht'⟩ := h.mem_unit hp hd hd'
  have htd := hunit d hd hd'
  set t := round d with ht_def
  have hs0 : 0 ≤ 1 - t := sub_nonneg.mpr ht'
  have hs1 : 1 - t ≤ 1 := by linarith
  obtain ⟨hs, hs'⟩ := h.mem_unit hp hs0 hs1
  have hst := hunit (1 - t) hs0 hs1
  have hsd : |round (1 - t) - (1 - d)| ≤ 2 / 2 ^ p := by
    calc |round (1 - t) - (1 - d)| ≤ |round (1 - t) - (1 - t)| + |(1 - t) - (1 - d)| :=
        abs_sub_le _ _ _
      _ ≤ 1 / 2 ^ p + 1 / 2 ^ p := by
        refine add_le_add hst ?_
        rw [sub_sub_sub_cancel_left, abs_sub_comm]
        exact htd
      _ = 2 / 2 ^ p := by ring
  obtain ⟨ha, ha'⟩ := h.abs_product_sub_le h0 hs hs' hsd
  obtain ⟨hb, hb'⟩ := h.abs_product_sub_le h1 ht ht' htd
  set a := round (round (1 - t) * x0)
  set b := round (t * x1)
  have hsum : |round (a + b) - (a + b)| ≤ 4 * M / 2 ^ p := by
    refine (h.error _).trans (div_le_div_of_nonneg_right ?_ (by positivity))
    calc |a + b| ≤ |a| + |b| := abs_add_le _ _
      _ ≤ 4 * M := by linarith
  calc |roundedLerp round d x0 x1 - ((1 - d) * x0 + d * x1)|
      = |(round (a + b) - (a + b)) + ((a - (1 - d) * x0) + (b - d * x1))| := by
        congr 1
        change round (a + b) - _ = _
        ring
    _ ≤ 4 * M / 2 ^ p + ((M / 2 ^ p + 2 / 2 ^ p * M) + (M / 2 ^ p + 1 / 2 ^ p * M)) :=
        (abs_add_le _ _).trans (add_le_add hsum ((abs_add_le _ _).trans (add_le_add ha hb)))
    _ = 9 * M / 2 ^ p := by ring

end Rounded

end Lib
