import TtsServer.AudioResampler
import TtsServer.Lib.Interpolation

/-!
# The resampler in `double` arithmetic

The resampler computes the ratio of the rates, the places in its input and the values between
two samples with numbers of type `double`. Every operation on them, and every conversion of an
integer, rounds to 53 significant bits; the numbers of the resampler are far from the limits of
the exponent. If the ratio is not rounded up, the output is as long as with exact numbers, every
read is inside the input, and every sample lies within little more than one half of the exact
interpolation. If the ratio is rounded up, the output can be one sample longer, and the resampler
can read behind the end of its input for it.
-/

namespace TtsServer

open Lib

namespace AudioResampler

/-- The arithmetic of `double`: each operation rounds its exact result. -/
structure DoubleArith where
  round : ℚ → ℚ
  rounds : RoundsTo 53 round

namespace DoubleArith

/-- Rounding to the nearest, as the arithmetic is set up by default. -/
def binary64 : DoubleArith := ⟨roundToBits 53, roundsTo_roundToBits (by norm_num)⟩

/-- Exact numbers. -/
def exactRationals : DoubleArith := ⟨id, roundsTo_id 53⟩

variable (D : DoubleArith)

/-! ### The loop -/

/-- The local `ratio` of `resample_linear_int16`. -/
def ratio (inputRate outputRate : ℤ) : ℚ := D.round (D.round outputRate / D.round inputRate)

/-- The local `out_len`. -/
def outLen (size : ℕ) (ratio : ℚ) : ℕ := ⌈D.round (D.round size * ratio)⌉.toNat

/-- The local `pos`. -/
def pos (ratio : ℚ) (i : ℕ) : ℚ := D.round (D.round i / ratio)

/-- The local `i0`. -/
def i0 (ratio : ℚ) (i : ℕ) : ℕ := ⌊D.pos ratio i⌋.toNat

/-- The local `i1`. -/
def i1 (size : ℕ) (ratio : ℚ) (i : ℕ) : ℕ := min (D.i0 ratio i + 1) (size - 1)

/-- The local `v` before the clamps. -/
def interpolated (ratio : ℚ) (i : ℕ) (x0 x1 : Int16) : ℚ :=
  let t := D.round (D.pos ratio i - D.round (D.i0 ratio i))
  D.round (D.round (D.round (1 - t) * D.round x0.toInt) + D.round (t * D.round x1.toInt))

/-- The two clamps of `v`. -/
def clamp (v : ℚ) : ℚ :=
  let v := if v > 32767 then 32767 else v
  if v < -32768 then -32768 else v

/-- The body of the loop: the sample that is pushed, or `none` if the loop reads outside its
input. -/
def resampleAt (input : List Int16) (ratio : ℚ) (i : ℕ) : Option Int16 := do
  let x0 ← input[D.i0 ratio i]?
  let x1 ← input[D.i1 input.length ratio i]?
  return Int16.ofInt (roundHalfEven (clamp (D.interpolated ratio i x0 x1)))

/-- `AudioResampler::resample_linear_int16` for positive rates. -/
def resampleLinearInt16 (input : List Int16) (inputRate outputRate : ℤ) : Option (List Int16) :=
  if input = [] ∨ inputRate = outputRate then some input
  else
    let ratio := D.ratio inputRate outputRate
    (List.range (D.outLen input.length ratio)).mapM (D.resampleAt input ratio)

/-- With exact numbers this is the resampler on exact numbers. -/
theorem resampleLinearInt16_exactRationals :
    exactRationals.resampleLinearInt16 = AudioResampler.resampleLinearInt16 := rfl

/-- `AudioResampler::to_16k_mono_int16`. -/
def to16kMonoInt16 {α : Type} (A : FloatArith α) (fuel : ℕ) (input : FloatVector α)
    (inputSampleRate : ℤ) (inputChannels : Int32) : Option (List Int16) :=
  if input.1 = [] then some []
  else do
    let pcm ← downmix A fuel input inputChannels
    if inputSampleRate = 16000 then some pcm
    else D.resampleLinearInt16 pcm inputSampleRate 16000

variable {D} {input : List Int16} {inputRate outputRate : ℤ} {size i : ℕ} {x0 x1 : Int16}

/-! ### The ratio -/

/-- Positive rates of type `int`, and an input that is not too long for them. -/
structure Fits (size : ℕ) (inputRate outputRate : ℤ) : Prop where
  inputRate_pos : 0 < inputRate
  inputRate_lt : inputRate < 2 ^ 31
  outputRate_pos : 0 < outputRate
  outputRate_lt : outputRate < 2 ^ 31
  small : size * outputRate ≤ 2 ^ 50

/-- A number of `d`-ths has the same ceiling as every number less than a `d`-th below it. -/
theorem ceil_eq_of_mem {d a : ℤ} {x y : ℚ} (hd : 0 < (d : ℚ)) (hx : x * d = a) (hyx : y ≤ x)
    (hy : (a : ℚ) - 1 < y * d) : ⌈y⌉ = ⌈x⌉ := by
  refine le_antisymm (Int.ceil_mono hyx) ?_
  have hbelow : ((⌈x⌉ : ℚ) - 1) * d < a := by
    rw [← hx]
    exact mul_lt_mul_of_pos_right (by linarith [Int.ceil_lt_add_one x]) hd
  have hwhole : (⌈x⌉ - 1) * d ≤ a - 1 := Int.le_sub_one_of_lt (by exact_mod_cast hbelow)
  have hscaled : ((⌈x⌉ : ℚ) - 1) * d < y * d := by
    refine lt_of_le_of_lt ?_ hy
    exact_mod_cast hwhole
  have hlt : ((⌈x⌉ - 1 : ℤ) : ℚ) < y := by
    push_cast
    exact lt_of_mul_lt_mul_right hscaled hd.le
  exact Int.sub_one_lt_iff.mp (Int.lt_ceil.mpr hlt)

namespace Fits

variable (h : Fits size inputRate outputRate)

include h

/-- Both rates are positive numbers. -/
theorem cast_pos : 0 < (inputRate : ℚ) ∧ 0 < (outputRate : ℚ) :=
  ⟨by exact_mod_cast h.inputRate_pos, by exact_mod_cast h.outputRate_pos⟩

/-- The exact ratio is positive. -/
theorem exact_pos : 0 < (outputRate : ℚ) / inputRate :=
  div_pos h.cast_pos.2 h.cast_pos.1

/-- The input has fewer than `2 ^ 53` samples. -/
theorem size_lt : size < 2 ^ 53 := by
  have hsmall := h.small
  have hout := h.outputRate_pos
  have hle : (size : ℤ) * 1 ≤ size * outputRate := by gcongr; omega
  omega

/-- Converting a rate rounds nothing, so the ratio is rounded once. -/
theorem ratio_eq : D.ratio inputRate outputRate = D.round (outputRate / inputRate) := by
  have hin : |inputRate| < 2 ^ 53 := by
    rw [abs_of_pos h.inputRate_pos]
    exact h.inputRate_lt.trans (by norm_num)
  have hout : |outputRate| < 2 ^ 53 := by
    rw [abs_of_pos h.outputRate_pos]
    exact h.outputRate_lt.trans (by norm_num)
  rw [ratio, D.rounds.int _ hin, D.rounds.int _ hout]

/-- The ratio loses at most one rounding. -/
theorem le_ratio : (outputRate : ℚ) / inputRate - outputRate / inputRate / 2 ^ 53 ≤
    D.ratio inputRate outputRate := by
  rw [h.ratio_eq]
  exact D.rounds.ge_of_nonneg h.exact_pos.le

/-- The ratio gains at most one rounding. -/
theorem ratio_le : D.ratio inputRate outputRate ≤
    (outputRate : ℚ) / inputRate + outputRate / inputRate / 2 ^ 53 := by
  rw [h.ratio_eq]
  exact D.rounds.le_of_nonneg h.exact_pos.le

/-- The ratio is positive. -/
theorem ratio_pos : 0 < D.ratio inputRate outputRate := by
  have hle := @le_ratio D _ _ _ h
  have hpos := h.exact_pos
  linarith [div_lt_self hpos (by norm_num : (1 : ℚ) < 2 ^ 53)]

/-- The exact length before it is rounded up, in terms of the input rate. -/
theorem length_mul :
    (size : ℚ) * outputRate / inputRate * inputRate = ((size * outputRate : ℤ) : ℚ) := by
  rw [div_mul_cancel₀ _ h.cast_pos.1.ne']
  push_cast
  rfl

/-! ### The length of the output -/

/-- If the ratio is not rounded up, the computed length is at most the exact one, and two
roundings below it at the worst. -/
theorem length_mem (hdown : D.ratio inputRate outputRate ≤ outputRate / inputRate) :
    size * D.ratio inputRate outputRate ≤ (size : ℚ) * outputRate / inputRate ∧
      (size : ℚ) * outputRate / inputRate - 2 * (size * outputRate / inputRate) / 2 ^ 53 ≤
        D.round (size * D.ratio inputRate outputRate) := by
  have hproduct : (size : ℚ) * outputRate / inputRate = size * (outputRate / inputRate) :=
    mul_div_assoc _ _ _
  have hcomputed : 0 ≤ size * D.ratio inputRate outputRate :=
    mul_nonneg (Nat.cast_nonneg _) h.ratio_pos.le
  have hle : size * D.ratio inputRate outputRate ≤ (size : ℚ) * outputRate / inputRate := by
    rw [hproduct]
    exact mul_le_mul_of_nonneg_left hdown (Nat.cast_nonneg _)
  have hge : (size : ℚ) * outputRate / inputRate - size * outputRate / inputRate / 2 ^ 53 ≤
      size * D.ratio inputRate outputRate := by
    rw [hproduct, mul_div_assoc, ← mul_sub]
    exact mul_le_mul_of_nonneg_left h.le_ratio (Nat.cast_nonneg _)
  have hround := D.rounds.ge_of_nonneg hcomputed
  exact ⟨hle, by linarith⟩

/-- If the ratio is not rounded up, the output is as long as with exact numbers. -/
theorem outLen_eq (hdown : D.ratio inputRate outputRate ≤ outputRate / inputRate) :
    (D.outLen size (D.ratio inputRate outputRate) : ℤ) =
      ⌈(size : ℚ) * outputRate / inputRate⌉ := by
  obtain ⟨hle, hge⟩ := h.length_mem hdown
  have hin := h.cast_pos.1
  have hexact := h.length_mul
  have hsmall : ((size * outputRate : ℤ) : ℚ) ≤ 2 ^ 50 := by exact_mod_cast h.small
  have hpos : 0 ≤ (size : ℚ) * outputRate / inputRate :=
    div_nonneg (mul_nonneg (Nat.cast_nonneg _) h.cast_pos.2.le) hin.le
  rw [outLen, D.rounds.nat h.size_lt]
  set length := (size : ℚ) * outputRate / inputRate
  have hbits : |⌈length⌉| < 2 ^ 53 := by
    have hlong : length ≤ ((size * outputRate : ℤ) : ℚ) := by
      rw [← hexact]
      exact le_mul_of_one_le_right hpos (by exact_mod_cast h.inputRate_pos)
    rw [abs_of_nonneg (Int.ceil_nonneg hpos)]
    exact (Int.ceil_le.mpr hlong).trans_lt (h.small.trans_lt (by norm_num))
  have hceil : ⌈D.round (size * D.ratio inputRate outputRate)⌉ = ⌈length⌉ := by
    refine le_antisymm
      (Int.ceil_le.mpr (D.rounds.round_le hbits (hle.trans (Int.le_ceil _)))) ?_
    -- Two roundings of the length are less than its distance to the whole number below.
    refine (ceil_eq_of_mem hin hexact ?_ ?_).ge.trans (Int.ceil_mono hge)
    · linarith
    · have hexpand : (length - 2 * length / 2 ^ 53) * inputRate =
          length * inputRate - 2 * (length * inputRate) / 2 ^ 53 := by ring
      rw [hexpand, hexact]
      linarith
  rw [hceil, Int.toNat_of_nonneg (Int.ceil_nonneg hpos)]

/-! ### The places -/

/-- The quotient of an index and the ratio is off by one rounding. -/
theorem quotient_mem :
    i / D.ratio inputRate outputRate - i / D.ratio inputRate outputRate / 2 ^ 53 ≤
        (i : ℚ) * inputRate / outputRate ∧
      (i : ℚ) * inputRate / outputRate ≤
        i / D.ratio inputRate outputRate + i / D.ratio inputRate outputRate / 2 ^ 53 := by
  have hratio := @ratio_pos D _ _ _ h
  have hexact := h.exact_pos
  have hplace : (i : ℚ) * inputRate / outputRate =
      i / D.ratio inputRate outputRate * D.ratio inputRate outputRate /
        (outputRate / inputRate) := by
    rw [div_mul_cancel₀ _ hratio.ne', div_div_eq_mul_div]
  have hquotient : 0 ≤ i / D.ratio inputRate outputRate := div_nonneg (Nat.cast_nonneg _) hratio.le
  rw [hplace, le_div_iff₀ hexact, div_le_iff₀ hexact]
  constructor
  · calc _ = i / D.ratio inputRate outputRate *
          ((outputRate : ℚ) / inputRate - outputRate / inputRate / 2 ^ 53) := by ring
      _ ≤ _ := mul_le_mul_of_nonneg_left h.le_ratio hquotient
  · calc _ ≤ i / D.ratio inputRate outputRate *
          ((outputRate : ℚ) / inputRate + outputRate / inputRate / 2 ^ 53) :=
        mul_le_mul_of_nonneg_left h.ratio_le hquotient
      _ = _ := by ring

/-- A place is off by at most four roundings. -/
theorem abs_pos_sub_le (hi : i < 2 ^ 53) :
    |D.pos (D.ratio inputRate outputRate) i - i * inputRate / outputRate| ≤
      4 * (i * inputRate / outputRate) / 2 ^ 53 := by
  obtain ⟨hlow, hhigh⟩ := @quotient_mem D _ _ _ i h
  have hquotient : 0 ≤ i / D.ratio inputRate outputRate :=
    div_nonneg (Nat.cast_nonneg _) h.ratio_pos.le
  have hgrows := D.rounds.le_of_nonneg hquotient
  have hshrinks := D.rounds.ge_of_nonneg hquotient
  rw [pos, D.rounds.nat hi, abs_le]
  constructor <;> linarith

/-- No exact place is before the input. -/
theorem place_nonneg : 0 ≤ (i : ℚ) * inputRate / outputRate :=
  div_nonneg (mul_nonneg (Nat.cast_nonneg _) h.cast_pos.1.le) h.cast_pos.2.le

/-- The indices of the exact output are small. -/
theorem index_mul_lt (hi : (i : ℚ) < size * outputRate / inputRate) :
    i * inputRate < size * outputRate := by
  have hscaled := mul_lt_mul_of_pos_right hi h.cast_pos.1
  rw [h.length_mul] at hscaled
  exact_mod_cast hscaled

/-- So their conversion rounds nothing. -/
theorem index_lt (hi : (i : ℚ) < size * outputRate / inputRate) : i < 2 ^ 53 := by
  have hlt := h.index_mul_lt hi
  have hle : (i : ℤ) * 1 ≤ i * inputRate := by
    gcongr
    exact h.inputRate_pos
  have hsmall := h.small
  omega

/-- The places of the exact output are before the end of the input. -/
theorem pos_lt (hi : (i : ℚ) < size * outputRate / inputRate) :
    D.pos (D.ratio inputRate outputRate) i < size := by
  have hnear := (abs_le.mp (@abs_pos_sub_le D _ _ _ i h (h.index_lt hi))).2
  have hindex : (i : ℚ) * inputRate ≤ size * outputRate - 1 := by
    have hlt := h.index_mul_lt hi
    exact_mod_cast Int.le_sub_one_of_lt hlt
  have hsmall : (size : ℚ) * outputRate ≤ 2 ^ 50 := by exact_mod_cast h.small
  have hout := h.cast_pos.2
  have hplace : (i : ℚ) * inputRate / outputRate * outputRate = i * inputRate :=
    div_mul_cancel₀ _ hout.ne'
  -- Four roundings of the place are less than the distance to the end.
  have hscaled : ((i : ℚ) * inputRate / outputRate +
      4 * (i * inputRate / outputRate) / 2 ^ 53) * outputRate < size * outputRate := by
    have hexpand : ((i : ℚ) * inputRate / outputRate +
        4 * (i * inputRate / outputRate) / 2 ^ 53) * outputRate =
        i * inputRate / outputRate * outputRate +
          4 * (i * inputRate / outputRate * outputRate) / 2 ^ 53 := by ring
    rw [hexpand, hplace]
    linarith
  have hroom := lt_of_mul_lt_mul_right hscaled hout.le
  linarith

end Fits

/-! ### The values -/

/-- The height of the line through the samples at an index; after the last sample it stays. -/
def height (input : List Int16) (k : ℕ) : ℚ :=
  ((input[min k (input.length - 1)]?.getD 0).toInt : ℚ)

/-- The line through the samples. -/
def line (input : List Int16) : ℚ → ℚ := lerp (height input)

/-- The line is as high as a 16-bit integer can be, at most. -/
theorem height_mem (k : ℕ) : -32768 ≤ height input k ∧ height input k ≤ 32767 := by
  unfold height
  generalize input[min k (input.length - 1)]?.getD 0 = s
  have hlow := s.le_toInt
  have hhigh := Int.le_sub_one_of_lt s.toInt_lt
  exact ⟨by exact_mod_cast hlow, by exact_mod_cast hhigh⟩

/-- So it rises or falls by less than `2 ^ 16` from one index to the next. -/
theorem height_steps (k : ℕ) : |height input (k + 1) - height input k| ≤ 65535 := by
  obtain ⟨hlow, hhigh⟩ := @height_mem input k
  obtain ⟨hlow', hhigh'⟩ := @height_mem input (k + 1)
  rw [abs_le]
  constructor <;> linarith

/-- Converting a sample rounds nothing. -/
theorem round_sample (s : Int16) : D.round s.toInt = s.toInt := by
  have hlow := s.le_toInt
  have hhigh := s.toInt_lt
  refine D.rounds.int _ (abs_lt.mpr ⟨?_, ?_⟩) <;> omega

/-- The clamps bring a number closer to a number of their range. -/
theorem clamp_mem {v e b : ℚ} (hlow : -32768 ≤ e) (hhigh : e ≤ 32767) (h : |v - e| ≤ b) :
    -32768 ≤ clamp v ∧ clamp v ≤ 32767 ∧ |clamp v - e| ≤ b := by
  obtain ⟨hv, hv'⟩ := abs_le.mp h
  simp only [clamp, abs_le]
  split_ifs <;> refine ⟨?_, ?_, ?_, ?_⟩ <;> linarith

/-- No place is before the input. -/
theorem pos_nonneg {r : ℚ} (hr : 0 < r) : 0 ≤ D.pos r i :=
  D.rounds.nonneg (div_nonneg (D.rounds.nonneg (Nat.cast_nonneg i)) hr.le)

/-- The two samples at a place before the end, and the value that the loop computes there. -/
theorem abs_interpolated_sub_line_le {r : ℚ} (hr : 0 < r) (hsize : input.length < 2 ^ 53)
    (hplace : D.pos r i < input.length) :
    ∃ x0 x1, input[D.i0 r i]? = some x0 ∧ input[D.i1 input.length r i]? = some x1 ∧
      |D.interpolated r i x0 x1 - line input (D.pos r i)| ≤ 9 * 32768 / 2 ^ 53 := by
  have hpos := @pos_nonneg D i _ hr
  have hfloor : D.i0 r i = ⌊D.pos r i⌋₊ := Int.floor_toNat _
  have hi0 : D.i0 r i < input.length := by
    rw [hfloor]
    exact (Nat.floor_lt hpos).mpr hplace
  have hi1 : D.i1 input.length r i < input.length := by
    unfold i1
    omega
  have hx0 : height input (D.i0 r i) = (input[D.i0 r i].toInt : ℚ) := by
    rw [height, Nat.min_eq_left (by omega), List.getElem?_eq_getElem hi0, Option.getD_some]
  have hx1 : height input (D.i0 r i + 1) = (input[D.i1 input.length r i].toInt : ℚ) := by
    change ((input[D.i1 input.length r i]?.getD 0).toInt : ℚ) = _
    rw [List.getElem?_eq_getElem hi1, Option.getD_some]
  have hindex : D.round (D.i0 r i : ℚ) = D.i0 r i := D.rounds.nat (hi0.trans hsize)
  have hvalue : D.interpolated r i input[D.i0 r i] input[D.i1 input.length r i] =
      roundedLerp D.round (D.pos r i - D.i0 r i) (height input (D.i0 r i))
        (height input (D.i0 r i + 1)) := by
    rw [hx0, hx1, interpolated, hindex, round_sample, round_sample]
    rfl
  have habs (k : ℕ) : |height input k| ≤ 32768 := by
    obtain ⟨hlow, hhigh⟩ := @height_mem input k
    exact abs_le.mpr ⟨hlow, by linarith⟩
  refine ⟨_, _, List.getElem?_eq_getElem hi0, List.getElem?_eq_getElem hi1, ?_⟩
  rw [hvalue, line, lerp, ← hfloor]
  refine D.rounds.abs_roundedLerp_sub_le (by norm_num) ?_ ?_ (habs _) (habs _)
  · rw [hfloor]
    exact sub_nonneg.mpr (Nat.floor_le hpos)
  · rw [hfloor]
    linarith [Nat.lt_floor_add_one (D.pos r i)]

/-- The value is near the line at the exact place: the errors of the operations and of the place
are small. -/
theorem abs_interpolated_sub_exact_le (h : Fits input.length inputRate outputRate)
    (hi : (i : ℚ) < input.length * outputRate / inputRate) :
    ∃ x0 x1, input[D.i0 (D.ratio inputRate outputRate) i]? = some x0 ∧
      input[D.i1 input.length (D.ratio inputRate outputRate) i]? = some x1 ∧
      |D.interpolated (D.ratio inputRate outputRate) i x0 x1 -
        line input (i * inputRate / outputRate)| ≤ input.length / 2 ^ 33 := by
  have hratio := @Fits.ratio_pos D _ _ _ h
  obtain ⟨x0, x1, hx0, hx1, hvalue⟩ :=
    abs_interpolated_sub_line_le hratio h.size_lt (h.pos_lt hi)
  refine ⟨x0, x1, hx0, hx1, ?_⟩
  have hplace := @Fits.abs_pos_sub_le D _ _ _ i h (h.index_lt hi)
  have hinside : (i : ℚ) * inputRate / outputRate ≤ input.length := by
    rw [div_le_iff₀ h.cast_pos.2]
    exact_mod_cast (h.index_mul_lt hi).le
  have hmoved := abs_lerp_sub_le_abs (f := height input) height_steps (h.place_nonneg (i := i))
    (@pos_nonneg D i _ hratio)
  have hlength : (1 : ℚ) ≤ input.length := by
    exact_mod_cast (Nat.zero_le _).trans_lt (List.getElem?_eq_some_iff.mp hx0).1
  calc _ ≤ _ := abs_sub_le _ (line input (D.pos (D.ratio inputRate outputRate) i)) _
    _ ≤ 9 * 32768 / 2 ^ 53 + 65535 * (4 * input.length / 2 ^ 53) := by
      refine add_le_add hvalue (hmoved.trans ?_)
      gcongr
      exact hplace.trans (by gcongr)
    _ ≤ input.length / 2 ^ 33 := by linarith

/-- The body of the loop pushes a sample near the line. -/
theorem exists_resampleAt (h : Fits input.length inputRate outputRate)
    (hi : (i : ℚ) < input.length * outputRate / inputRate) :
    ∃ s, D.resampleAt input (D.ratio inputRate outputRate) i = some s ∧
      |(s.toInt : ℚ) - line input (i * inputRate / outputRate)| ≤
        1 / 2 + input.length / 2 ^ 33 := by
  obtain ⟨x0, x1, hx0, hx1, hnear⟩ := @abs_interpolated_sub_exact_le D _ _ _ _ h hi
  obtain ⟨hlow, hhigh⟩ := lerp_mem (f := height input) height_mem (h.place_nonneg (i := i))
  obtain ⟨hlow', hhigh', hclamped⟩ := clamp_mem hlow hhigh hnear
  refine ⟨Int16.ofInt (roundHalfEven (clamp
    (D.interpolated (D.ratio inputRate outputRate) i x0 x1))), ?_, ?_⟩
  · simp only [resampleAt, hx0, hx1, Option.bind_eq_bind, Option.bind_some]
    rfl
  · have hbelow := le_roundHalfEven (n := -32768) (by exact_mod_cast hlow')
    have habove := roundHalfEven_le (n := 32767) (by exact_mod_cast hhigh')
    rw [Int16.toInt_ofInt_of_le (by omega) (by omega)]
    exact (abs_sub_le _ _ _).trans (add_le_add (abs_roundHalfEven_sub_le _) hclamped)

/-- If the ratio is not rounded up, the loop never reads outside its input, its output is as long
as with exact numbers, and every sample is near the line through the input. -/
theorem exists_resample (hinput : input ≠ []) (h : Fits input.length inputRate outputRate)
    (hrates : inputRate ≠ outputRate)
    (hdown : D.ratio inputRate outputRate ≤ outputRate / inputRate) :
    ∃ out, D.resampleLinearInt16 input inputRate outputRate = some out ∧
      (out.length : ℤ) = ⌈(input.length : ℚ) * outputRate / inputRate⌉ ∧
      ∀ (i : ℕ) s, out[i]? = some s →
        |(s.toInt : ℚ) - line input (i * inputRate / outputRate)| ≤
          1 / 2 + input.length / 2 ^ 33 := by
  have hlen := h.outLen_eq hdown
  have hbody : ∀ i < D.outLen input.length (D.ratio inputRate outputRate),
      ∃ s, D.resampleAt input (D.ratio inputRate outputRate) i = some s ∧
        |(s.toInt : ℚ) - line input (i * inputRate / outputRate)| ≤
          1 / 2 + input.length / 2 ^ 33 := by
    intro i hi
    have hlt : (i : ℤ) < ⌈(input.length : ℚ) * outputRate / inputRate⌉ := by omega
    exact exists_resampleAt h (by exact_mod_cast Int.lt_ceil.mp hlt)
  obtain ⟨out, hloop, hsize, hall⟩ := exists_mapM_range hbody
  refine ⟨out, ?_, ?_, hall⟩
  · rw [resampleLinearInt16, if_neg (by simp [hinput, hrates])]
    exact hloop
  · rw [hsize, hlen]

/-- At the rates that speech models have the ratio is not rounded up. -/
example : ∀ rate ∈ [8000, 11025, 22050, 24000, 32000, 44100, 48000],
    binary64.ratio rate 16000 ≤ 16000 / rate := by
  decide +kernel

/-- At 7040 Hz it is, and the loop reads one sample behind the end of its input. -/
example : binary64.resampleLinearInt16 (List.replicate 77 0) 7040 16000 = none := by
  decide +kernel

end DoubleArith

end AudioResampler

end TtsServer
