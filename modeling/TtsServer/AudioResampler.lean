import Mathlib.Algebra.BigOperators.Group.List.Basic
import Mathlib.Algebra.Order.Field.Basic
import Mathlib.Data.List.Induction
import Mathlib.Data.Rat.Floor
import Mathlib.Tactic.FieldSimp
import Mathlib.Tactic.Linarith
import Mathlib.Tactic.NormNum
import TtsServer.Lib.Loops
import TtsServer.Lib.Rounding

/-!
# The resampler of the local engine

The local engine yields floating-point samples of several channels. They are mixed to one
channel of 16-bit integers and then brought to the wanted rate by linear interpolation.
Numbers are exact rationals here. Interpolation never reads outside its input and never
leaves the range between the two samples it reads. Mixing averages whole frames in the
branches for one and two channels; the branch for any other number also averages a
last frame that is cut short, and it stands still if there are no channels.
-/

namespace TtsServer

open Lib

namespace AudioResampler

/-! ### Linear interpolation -/

/-- The place in the input that belongs to an output sample. -/
def pos (ratio : ℚ) (i : ℕ) : ℚ := i / ratio

/-- The index `i0` of the sample at or before that place. -/
def i0 (ratio : ℚ) (i : ℕ) : ℕ := ⌊pos ratio i⌋.toNat

/-- The index `i1` of the sample after it. -/
def i1 (size : ℕ) (ratio : ℚ) (i : ℕ) : ℕ := min (i0 ratio i + 1) (size - 1)

/-- The interpolated value `v` between two samples. -/
def interpolated (ratio : ℚ) (i : ℕ) (x0 x1 : Int16) : ℚ :=
  let t := pos ratio i - i0 ratio i
  (1 - t) * x0.toInt + t * x1.toInt

/-- The body of the loop of `resample_linear_int16`: the sample that is pushed, or `none` if
the loop reads outside its input. -/
def resampleAt (input : List Int16) (ratio : ℚ) (i : ℕ) : Option Int16 := do
  let x0 ← input[i0 ratio i]?
  let x1 ← input[i1 input.length ratio i]?
  let v := interpolated ratio i x0 x1
  let v := if v > 32767 then 32767 else v
  let v := if v < -32768 then -32768 else v
  return Int16.ofInt (roundHalfEven v)

/-- `AudioResampler::resample_linear_int16` for positive rates. -/
def resampleLinearInt16 (input : List Int16) (inputRate outputRate : ℤ) : Option (List Int16) :=
  if input = [] ∨ inputRate = outputRate then some input
  else
    let ratio : ℚ := outputRate / inputRate
    let outLen := ⌈(input.length : ℚ) * ratio⌉.toNat
    (List.range outLen).mapM (resampleAt input ratio)

variable {input out : List Int16} {inputRate outputRate : ℤ} {ratio : ℚ} {i : ℕ}
  {s x0 x1 : Int16}

/-- The index `i0` is the floor of the place. -/
theorem i0_eq_floor (hratio : 0 < ratio) : (i0 ratio i : ℤ) = ⌊pos ratio i⌋ := by
  have hpos : 0 ≤ pos ratio i := div_nonneg (Nat.cast_nonneg i) hratio.le
  exact Int.toNat_of_nonneg (Int.floor_nonneg.mpr hpos)

/-- The two samples are inside the input as long as the place is before its end. -/
theorem indices_lt (hratio : 0 < ratio) (hi : (i : ℚ) < input.length * ratio) :
    i0 ratio i < input.length ∧ i1 input.length ratio i < input.length := by
  have hplace : pos ratio i < (input.length : ℤ) := by
    rw [pos, div_lt_iff₀ hratio]
    exact_mod_cast hi
  have hfloor : ⌊pos ratio i⌋ < (input.length : ℤ) := Int.floor_lt.mpr hplace
  have hi0 := @i0_eq_floor ratio i hratio
  constructor
  · omega
  · unfold i1
    omega

/-- The place lies less than one sample behind the first index. -/
theorem offset_mem (hratio : 0 < ratio) :
    0 ≤ pos ratio i - i0 ratio i ∧ pos ratio i - i0 ratio i < 1 := by
  have hi0 : (i0 ratio i : ℚ) = (⌊pos ratio i⌋ : ℚ) := by exact_mod_cast i0_eq_floor hratio
  rw [hi0]
  constructor
  · linarith [Int.floor_le (pos ratio i)]
  · linarith [Int.lt_floor_add_one (pos ratio i)]

/-- The interpolated value lies between the two samples. -/
theorem interpolated_mem (hratio : 0 < ratio) :
    ((min x0.toInt x1.toInt : ℤ) : ℚ) ≤ interpolated ratio i x0 x1 ∧
      interpolated ratio i x0 x1 ≤ ((max x0.toInt x1.toInt : ℤ) : ℚ) := by
  obtain ⟨hlow, hhigh⟩ := @offset_mem ratio i hratio
  unfold interpolated
  generalize pos ratio i - i0 ratio i = t at hlow hhigh
  have ht : 0 ≤ 1 - t := by linarith
  push_cast
  constructor
  · have hx0 := mul_le_mul_of_nonneg_left (min_le_left (x0.toInt : ℚ) x1.toInt) ht
    have hx1 := mul_le_mul_of_nonneg_left (min_le_right (x0.toInt : ℚ) x1.toInt) hlow
    linarith
  · have hx0 := mul_le_mul_of_nonneg_left (le_max_left (x0.toInt : ℚ) x1.toInt) ht
    have hx1 := mul_le_mul_of_nonneg_left (le_max_right (x0.toInt : ℚ) x1.toInt) hlow
    linarith

/-- So neither of the two clamps changes it. -/
theorem interpolated_range (hratio : 0 < ratio) :
    -32768 ≤ interpolated ratio i x0 x1 ∧ interpolated ratio i x0 x1 ≤ 32767 := by
  obtain ⟨hlow, hhigh⟩ := @interpolated_mem ratio i x0 x1 hratio
  have hx0 := x0.le_toInt
  have hx0' := x0.toInt_lt
  have hx1 := x1.le_toInt
  have hx1' := x1.toInt_lt
  constructor
  · refine le_trans ?_ hlow
    have hmin : (-32768 : ℤ) ≤ min x0.toInt x1.toInt := by omega
    exact_mod_cast hmin
  · refine le_trans hhigh ?_
    have hmax : max x0.toInt x1.toInt ≤ (32767 : ℤ) := by omega
    exact_mod_cast hmax

/-- What an output sample is: both indices are inside the input, the interpolated value needs
no clamp, and rounding it gives a 16-bit integer between the two samples. -/
structure Interpolates (input : List Int16) (ratio : ℚ) (i : ℕ) (s : Int16) : Prop where
  i0_lt : i0 ratio i < input.length
  i1_lt : i1 input.length ratio i < input.length
  unclamped : -32768 ≤ interpolated ratio i input[i0 ratio i] input[i1 input.length ratio i] ∧
    interpolated ratio i input[i0 ratio i] input[i1 input.length ratio i] ≤ 32767
  uncut : s.toInt =
    roundHalfEven (interpolated ratio i input[i0 ratio i] input[i1 input.length ratio i])
  between : min input[i0 ratio i].toInt input[i1 input.length ratio i].toInt ≤ s.toInt ∧
    s.toInt ≤ max input[i0 ratio i].toInt input[i1 input.length ratio i].toInt

/-- The body of the loop interpolates. -/
theorem exists_resampleAt (hratio : 0 < ratio) (hi : (i : ℚ) < input.length * ratio) :
    ∃ s, resampleAt input ratio i = some s ∧ Interpolates input ratio i s := by
  obtain ⟨hi0, hi1⟩ := indices_lt hratio hi
  set x0 := input[i0 ratio i] with hx0
  set x1 := input[i1 input.length ratio i] with hx1
  obtain ⟨hlow, hhigh⟩ := @interpolated_range ratio i x0 x1 hratio
  obtain ⟨hmin, hmax⟩ := @interpolated_mem ratio i x0 x1 hratio
  have hmin' := le_roundHalfEven hmin
  have hmax' := roundHalfEven_le hmax
  have hcast : (Int16.ofInt (roundHalfEven (interpolated ratio i x0 x1))).toInt =
      roundHalfEven (interpolated ratio i x0 x1) := by
    have hbelow : (-32768 : ℤ) ≤ roundHalfEven (interpolated ratio i x0 x1) :=
      le_roundHalfEven (by exact_mod_cast hlow)
    have habove : roundHalfEven (interpolated ratio i x0 x1) ≤ (32767 : ℤ) :=
      roundHalfEven_le (by exact_mod_cast hhigh)
    exact Int16.toInt_ofInt_of_le (by omega) (by omega)
  refine ⟨Int16.ofInt (roundHalfEven (interpolated ratio i x0 x1)), ?_,
    hi0, hi1, ⟨hlow, hhigh⟩, hcast, ?_⟩
  · simp only [resampleAt, List.getElem?_eq_getElem hi0, List.getElem?_eq_getElem hi1,
      Option.bind_eq_bind, Option.bind_some, ← hx0, ← hx1, not_lt.mpr hhigh, not_lt.mpr hlow,
      if_false, gt_iff_lt]
    rfl
  · rw [hcast]
    exact ⟨hmin', hmax'⟩

/-- An output sample that falls on an input sample is that sample. -/
theorem Interpolates.eq_of_dvd (h : Interpolates input (outputRate / inputRate) i s)
    (hin : 0 < inputRate) (hout : 0 < outputRate) (hdvd : outputRate ∣ i * inputRate) :
    input[(i * inputRate / outputRate).toNat]? = some s := by
  obtain ⟨q, hq⟩ := hdvd
  have hin' : (inputRate : ℚ) ≠ 0 := by exact_mod_cast hin.ne'
  have hout' : (outputRate : ℚ) ≠ 0 := by exact_mod_cast hout.ne'
  have hplace : pos (outputRate / inputRate) i = (q : ℚ) := by
    have hcast : (i : ℚ) * inputRate = outputRate * q := by exact_mod_cast hq
    rw [pos, div_div_eq_mul_div, hcast, mul_div_cancel_left₀ _ hout']
  have hratio : (0 : ℚ) < outputRate / inputRate :=
    div_pos (by exact_mod_cast hout) (by exact_mod_cast hin)
  have hindex : (i0 (outputRate / inputRate) i : ℤ) = q := by
    rw [i0_eq_floor hratio, hplace, Int.floor_intCast]
  have hvalue (x0 x1 : Int16) : interpolated (outputRate / inputRate) i x0 x1 = x0.toInt := by
    have hi0 : (i0 (outputRate / inputRate) i : ℚ) = q := by exact_mod_cast hindex
    rw [interpolated, hplace, hi0, sub_self]
    ring
  have hsample := h.uncut
  rw [hvalue, roundHalfEven_intCast] at hsample
  rw [hq, Int.mul_ediv_cancel_left _ hout.ne', ← hindex, Int.toNat_natCast,
    List.getElem?_eq_getElem h.i0_lt, ← Int16.toInt_inj.mp hsample]

/-- The loop never reads outside its input, and each of its rounds interpolates. -/
theorem exists_resample (hinput : input ≠ []) (hin : 0 < inputRate) (hout : 0 < outputRate)
    (hrates : inputRate ≠ outputRate) :
    ∃ out, resampleLinearInt16 input inputRate outputRate = some out ∧
      (out.length : ℤ) = ⌈(input.length : ℚ) * outputRate / inputRate⌉ ∧
      ∀ i s, out[i]? = some s → Interpolates input (outputRate / inputRate) i s := by
  have hratio : (0 : ℚ) < outputRate / inputRate :=
    div_pos (by exact_mod_cast hout) (by exact_mod_cast hin)
  have hlen : 0 ≤ ⌈(input.length : ℚ) * (outputRate / inputRate)⌉ :=
    Int.ceil_nonneg (mul_nonneg (Nat.cast_nonneg _) hratio.le)
  have hbody : ∀ i < ⌈(input.length : ℚ) * (outputRate / inputRate)⌉.toNat,
      ∃ s, resampleAt input (outputRate / inputRate) i = some s ∧
        Interpolates input (outputRate / inputRate) i s := by
    intro i hi
    refine exists_resampleAt hratio ?_
    have hlt : (i : ℤ) < ⌈(input.length : ℚ) * (outputRate / inputRate)⌉ := by omega
    exact_mod_cast Int.lt_ceil.mp hlt
  obtain ⟨out, hloop, hsize, hall⟩ := exists_mapM_range hbody
  refine ⟨out, ?_, ?_, hall⟩
  · rw [resampleLinearInt16, if_neg (by simp [hinput, hrates])]
    exact hloop
  · rw [mul_div_assoc]
    omega

/-- The output has the wanted length and interpolates the input. Every read is inside the
input, and where the rates let an output sample fall on an input sample, the two are equal. -/
theorem resample_interpolates (hinput : input ≠ []) (hin : 0 < inputRate) (hout : 0 < outputRate)
    (hrates : inputRate ≠ outputRate) :
    ∃ out, resampleLinearInt16 input inputRate outputRate = some out ∧
      (out.length : ℤ) = ⌈(input.length : ℚ) * outputRate / inputRate⌉ ∧
      ∀ i s, out[i]? = some s →
        Interpolates input (outputRate / inputRate) i s ∧
        (outputRate ∣ i * inputRate → input[(i * inputRate / outputRate).toNat]? = some s) := by
  obtain ⟨out, hresample, hlength, hall⟩ := exists_resample hinput hin hout hrates
  refine ⟨out, hresample, hlength, fun i s hs => ⟨hall i s hs, ?_⟩⟩
  exact (hall i s hs).eq_of_dvd hin hout

/-- Two samples at twice the rate. -/
theorem resample_interpolates_doubled :
    ∃ out, resampleLinearInt16 [0, 100] 8000 16000 = some out ∧
      (out.length : ℤ) = ⌈(([0, 100] : List Int16).length : ℚ) * (16000 : ℤ) / (8000 : ℤ)⌉ ∧
      ∀ i s, out[i]? = some s →
        Interpolates [0, 100] ((16000 : ℤ) / (8000 : ℤ)) i s ∧
        ((16000 : ℤ) ∣ i * 8000 →
          ([0, 100] : List Int16)[(i * 8000 / 16000 : ℤ).toNat]? = some s) :=
  resample_interpolates (by decide) (by decide) (by decide) (by decide)

/-! ### Mixing to one channel -/

/-- The floating-point operations of `to_16k_mono_int16`. -/
structure FloatArith (α : Type) where
  /-- The number `0.0f`. -/
  zero : α
  add : α → α → α
  /-- Multiplication by `0.5f`. -/
  half : α → α
  /-- Division by a converted `int`. -/
  div : α → ℤ → α
  /-- `float_to_int16`. -/
  toInt16 : α → Int16

/-- `float_to_int16` on exact numbers. -/
def floatToInt16 (x : ℚ) : Int16 :=
  let x := if x < -1 then -1 else if 1 < x then 1 else x
  Int16.ofInt (roundHalfEven (x * 32767))

/-- Exact arithmetic. -/
def exact : FloatArith ℚ where
  zero := 0
  add := (· + ·)
  half := fun x => 1 / 2 * x
  div := fun x n => x / n
  toInt16 := floatToInt16

/-- A `std::vector<float>`, which holds fewer than `2 ^ 61` numbers. -/
abbrev FloatVector (α : Type) := { values : List α // values.length < 2 ^ 61 }

variable {α : Type} (A : FloatArith α)

/-- The loop for two channels. -/
def mixPairs : List α → List Int16
  | a :: b :: rest => A.toInt16 (A.half (A.add a b)) :: mixPairs rest
  | _ => []

/-- The sample that the loop for other numbers of channels pushes for the frame at an index. The
inner loop ends with the frame or with the input. -/
def mixFrame (input : List α) (channels : Int32) (i : ℕ) : Int16 :=
  let sum := ((input.drop i).take channels.toInt.toNat).foldl A.add A.zero
  A.toInt16 (A.div sum channels.toInt)

/-- The test of that loop, on the index and the samples pushed so far. -/
def mixing (input : List α) (s : ℕ × List Int16) : Bool := s.1 < input.length

/-- One round of that loop. The number of channels is converted to `std::size_t` before it is
added to the index. -/
def mixRound (input : List α) (channels : Int32) (s : ℕ × List Int16) : ℕ × List Int16 :=
  ((s.1 + (channels.toInt % 2 ^ 64).toNat) % 2 ^ 64, s.2 ++ [mixFrame A input channels s.1])

/-- The three loops of `to_16k_mono_int16`; `none` if the last one is still running after `fuel`
tests. -/
def downmix (fuel : ℕ) (input : FloatVector α) (channels : Int32) : Option (List Int16) :=
  if channels = 1 then some (input.1.map A.toInt16)
  else if channels = 2 then some (mixPairs A input.1)
  else (whileLoop (mixing input.1) (mixRound A input.1 channels) fuel (0, [])).map Prod.snd

/-- `AudioResampler::to_16k_mono_int16`. -/
def to16kMonoInt16 (fuel : ℕ) (input : FloatVector α) (inputSampleRate : ℤ)
    (inputChannels : Int32) : Option (List Int16) :=
  if input.1 = [] then some []
  else do
    let pcm ← downmix A fuel input inputChannels
    if inputSampleRate = 16000 then some pcm
    else resampleLinearInt16 pcm inputSampleRate 16000

/-- The loops end with the given samples. -/
def Downmixes (input : FloatVector α) (channels : Int32) (pcm : List Int16) : Prop :=
  ∃ fuel, downmix A fuel input channels = some pcm

/-- A frame of the input. -/
def frame (size k : ℕ) (input : List α) : List α := (input.drop (k * size)).take size

/-- The law of mixing: the loops end, and for a positive number of channels they push one sample
for each whole frame, which only that frame decides. -/
structure DownmixLaw (input : FloatVector α) (channels : Int32) : Prop where
  ends : ∃ pcm, Downmixes A input channels pcm
  count : 1 ≤ channels.toInt → ∀ pcm, Downmixes A input channels pcm →
    pcm.length = input.1.length / channels.toInt.toNat
  framewise : 1 ≤ channels.toInt → ∀ pcm, Downmixes A input channels pcm →
    ∀ input' pcm', Downmixes A input' channels pcm' →
    ∀ k < input.1.length / channels.toInt.toNat, k < input'.1.length / channels.toInt.toNat →
      frame channels.toInt.toNat k input.1 = frame channels.toInt.toNat k input'.1 →
      pcm[k]? = pcm'[k]?

/-- With exact numbers, the sample of a whole frame is its quantised mean. -/
def MeanLaw (input : FloatVector ℚ) (channels : Int32) : Prop :=
  1 ≤ channels.toInt → ∀ pcm, Downmixes exact input channels pcm →
    ∀ k < input.1.length / channels.toInt.toNat,
      pcm[k]? = some (floatToInt16
        ((frame channels.toInt.toNat k input.1).sum / channels.toInt))

/-- The input has channels, unless it is empty, and beyond two channels it consists of whole
frames. -/
def WholeFrames (input : FloatVector α) (channels : Int32) : Prop :=
  (channels = 0 → input.1 = []) ∧ (3 ≤ channels.toInt → channels.toInt ∣ input.1.length)

variable {A} {input : FloatVector α} {values : List α} {channels : Int32} {pcm : List Int16}
  {k : ℕ}

/-- The sample of a frame. -/
def frameSample (A : FloatArith α) : List α → Int16
  | [a] => A.toInt16 a
  | [a, b] => A.toInt16 (A.half (A.add a b))
  | values => A.toInt16 (A.div (values.foldl A.add A.zero) values.length)

/-- A whole frame has its full length. -/
theorem length_frame {size : ℕ} (hk : k < values.length / size) :
    (frame size k values).length = size := by
  have hend : (k + 1) * size ≤ values.length := (Nat.mul_le_mul_right _ hk).trans
    (Nat.div_mul_le_self _ _)
  rw [Nat.succ_mul] at hend
  rw [frame, List.length_take, List.length_drop]
  omega

/-- The sample of a long frame. -/
theorem frameSample_of_three_le (h : 3 ≤ values.length) :
    frameSample A values = A.toInt16 (A.div (values.foldl A.add A.zero) values.length) := by
  match values, h with
  | a :: b :: c :: rest, _ => rfl

/-- With exact numbers the three kinds of frames all yield the quantised mean. -/
theorem frameSample_exact {values : List ℚ} (hne : values ≠ []) :
    frameSample exact values = floatToInt16 (values.sum / values.length) := by
  match values, hne with
  | [a], _ => simp [frameSample, exact]
  | [a, b], _ =>
    have hmean : 1 / 2 * (a + b) = [a, b].sum / [a, b].length := by
      simp only [List.sum_cons, List.sum_nil, List.length_cons, List.length_nil]
      push_cast
      ring
    rw [← hmean]
    rfl
  | a :: b :: c :: rest, _ =>
    have hsum : (a :: b :: c :: rest).foldl exact.add exact.zero = (a :: b :: c :: rest).sum :=
      List.sum_eq_foldl.symm
    rw [frameSample_of_three_le (by simp), hsum]
    rfl

/-- One channel: every number is a frame. -/
theorem map_toInt16_getElem? (hk : k < values.length / 1) :
    (values.map A.toInt16)[k]? = some (frameSample A (frame 1 k values)) := by
  have hlt : k < values.length := by simpa using hk
  have hframe : frame 1 k values = [values[k]] := by
    rw [frame, Nat.mul_one, List.drop_eq_getElem_cons hlt]
    rfl
  rw [hframe, List.getElem?_map, List.getElem?_eq_getElem hlt]
  rfl

/-- Two channels: every two numbers are a frame. -/
theorem mixPairs_spec (values : List α) :
    (mixPairs A values).length = values.length / 2 ∧
      ∀ k < values.length / 2,
        (mixPairs A values)[k]? = some (frameSample A (frame 2 k values)) := by
  induction values using List.twoStepInduction with
  | nil => simp [mixPairs]
  | singleton a => simp [mixPairs]
  | cons_cons a b rest ih _ =>
    obtain ⟨hlength, hget⟩ := ih
    refine ⟨?_, fun k hk => ?_⟩
    · rw [mixPairs, List.length_cons, hlength, List.length_cons, List.length_cons]
      omega
    · cases k with
      | zero => rfl
      | succ k =>
        have hframe : frame 2 (k + 1) (a :: b :: rest) = frame 2 k rest := by
          rw [frame, Nat.succ_mul]
          rfl
        simp only [List.length_cons] at hk
        rw [hframe, mixPairs, List.getElem?_cons_succ, hget k (by omega)]

/-! ### The loop for other numbers of channels -/

/-- The loop that runs for a number of channels other than one and two. -/
theorem downmixes_many_iff (hone : channels ≠ 1) (htwo : channels ≠ 2) :
    Downmixes A input channels pcm ↔
      ∃ i, Returns (mixing input.1) (mixRound A input.1 channels) (0, []) (i, pcm) := by
  unfold Downmixes downmix Returns
  simp only [if_neg hone, if_neg htwo, Option.map_eq_some_iff, Prod.exists, exists_eq_right]
  exact exists_comm

/-- Without channels the index stands still, and the loop runs for ever. -/
theorem not_downmixes_zero (hne : input.1 ≠ []) : ¬Downmixes A input 0 pcm := by
  rw [downmixes_many_iff (by decide) (by decide)]
  rintro ⟨i, hreturns⟩
  refine not_returns_of_forall (fun k => ?_) hreturns
  have hindex : ((mixRound A input.1 0)^[k] (0, [])).1 = 0 := by
    induction k with
    | zero => rfl
    | succ k ih =>
      rw [Function.iterate_succ_apply', mixRound, ih]
      rfl
  rw [mixing, hindex]
  simpa using List.length_pos_of_ne_nil hne

/-- An empty input ends the loop at its first test. -/
theorem downmixes_nil (hone : channels ≠ 1) (htwo : channels ≠ 2) (hinput : input.1 = []) :
    Downmixes A input channels [] := by
  refine (downmixes_many_iff hone htwo).mpr ⟨0, returns_iff.mpr ⟨0, ?_, ?_, rfl⟩⟩
  · intro j hj
    omega
  · simp [mixing, hinput]

/-- A negative number of channels becomes a stride beyond every input, so the loop ends after
its first round. -/
theorem exists_downmixes_neg (hneg : channels.toInt < 0) :
    ∃ pcm, Downmixes A input channels pcm := by
  have hone : channels ≠ 1 := by
    rintro rfl
    exact absurd hneg (by decide)
  have htwo : channels ≠ 2 := by
    rintro rfl
    exact absurd hneg (by decide)
  by_cases hinput : input.1 = []
  · exact ⟨[], downmixes_nil hone htwo hinput⟩
  · have hsize := input.2
    have hlow := channels.le_toInt
    refine ⟨_, (downmixes_many_iff hone htwo).mpr ⟨_, returns_iff.mpr ⟨1, ?_, ?_, rfl⟩⟩⟩
    · intro j hj
      obtain rfl : j = 0 := by omega
      exact decide_eq_true (List.length_pos_of_ne_nil hinput)
    · have hstride : input.1.length ≤ (0 + (channels.toInt % 2 ^ 64).toNat) % 2 ^ 64 := by omega
      simpa [mixing, mixRound] using hstride

/-- The number of frames, a last one that is cut short included. -/
def frameCount (length size : ℕ) : ℕ := (length + size - 1) / size

/-- A frame is counted exactly if it begins inside the input. -/
theorem lt_frameCount_iff {length size : ℕ} (hsize : 0 < size) :
    k < frameCount length size ↔ k * size < length := by
  rw [frameCount, ← Nat.succ_le_iff, Nat.le_div_iff_mul_le hsize, Nat.succ_mul]
  omega

/-- A positive number of channels is a stride that does not wrap: after some rounds the loop
has mixed that many frames. -/
theorem mixRound_iterate (hpos : 0 < channels.toInt)
    (hk : k ≤ frameCount input.1.length channels.toInt.toNat) :
    (mixRound A input.1 channels)^[k] (0, []) = (k * channels.toInt.toNat,
      (List.range k).map fun k => mixFrame A input.1 channels (k * channels.toInt.toNat)) := by
  induction k with
  | zero => simp
  | succ k ih =>
    have hlt := (lt_frameCount_iff (by omega)).mp hk
    have hsize := input.2
    have hhigh := channels.toInt_lt
    have hstride : (channels.toInt % 2 ^ 64).toNat = channels.toInt.toNat := by omega
    rw [Function.iterate_succ_apply', ih (by omega), mixRound, hstride, List.range_succ,
      List.map_append, Nat.succ_mul]
    refine Prod.ext ?_ rfl
    exact Nat.mod_eq_of_lt (by omega)

/-- For three and more channels the loop ends, having mixed every frame. -/
theorem downmixes_iff_of_three_le (hthree : 3 ≤ channels.toInt) :
    Downmixes A input channels pcm ↔
      pcm = (List.range (frameCount input.1.length channels.toInt.toNat)).map
        fun k => mixFrame A input.1 channels (k * channels.toInt.toNat) := by
  have hone : channels ≠ 1 := by
    rintro rfl
    exact absurd hthree (by decide)
  have htwo : channels ≠ 2 := by
    rintro rfl
    exact absurd hthree (by decide)
  have hreturns : Returns (mixing input.1) (mixRound A input.1 channels) (0, [])
      (frameCount input.1.length channels.toInt.toNat * channels.toInt.toNat,
        (List.range (frameCount input.1.length channels.toInt.toNat)).map
          fun k => mixFrame A input.1 channels (k * channels.toInt.toNat)) := by
    refine returns_iff.mpr ⟨_, fun j hj => ?_, ?_, mixRound_iterate (by omega) le_rfl⟩
    · rw [mixRound_iterate (by omega) hj.le, mixing]
      simpa using (lt_frameCount_iff (by omega)).mp hj
    · rw [mixRound_iterate (by omega) le_rfl, mixing]
      have hend := mt (lt_frameCount_iff (by omega)).mpr
        (lt_irrefl (frameCount input.1.length channels.toInt.toNat))
      simpa using hend
  rw [downmixes_many_iff hone htwo]
  constructor
  · rintro ⟨i, hreturns'⟩
    exact congrArg Prod.snd (hreturns'.unique hreturns)
  · rintro rfl
    exact ⟨_, hreturns⟩

/-- The sample of a whole frame. -/
theorem mixFrame_eq (hthree : 3 ≤ channels.toInt) (hk : k < values.length / channels.toInt.toNat) :
    mixFrame A values channels (k * channels.toInt.toNat) =
      frameSample A (frame channels.toInt.toNat k values) := by
  have hlength := length_frame hk
  have hchannels : channels.toInt = ((frame channels.toInt.toNat k values).length : ℤ) := by omega
  rw [frameSample_of_three_le (by omega), ← hchannels]
  rfl

/-- The frames are all whole exactly if the size divides the length. -/
theorem frameCount_eq_div_iff {length size : ℕ} (hsize : 0 < size) :
    frameCount length size = length / size ↔ size ∣ length := by
  constructor
  · intro heq
    have hend := mt (lt_frameCount_iff hsize).mpr (lt_irrefl (frameCount length size))
    rw [heq, not_lt] at hend
    have hmul : length / size * size = length := le_antisymm (Nat.div_mul_le_self _ _) hend
    exact Dvd.intro_left _ hmul
  · rintro ⟨q, rfl⟩
    have hshort : (size - 1) / size = 0 := Nat.div_eq_of_lt (by omega)
    rw [frameCount, Nat.mul_div_cancel_left q hsize, Nat.add_sub_assoc hsize,
      Nat.mul_add_div hsize, hshort, Nat.add_zero]

/-! ### The law -/

/-- For a positive number of channels the loops end with one result. It has a sample for every
whole frame, and no others unless a last frame is cut short. -/
theorem exists_downmixes (A : FloatArith α) (input : FloatVector α) (hpos : 1 ≤ channels.toInt) :
    ∃ pcm, (∀ pcm', Downmixes A input channels pcm' ↔ pcm' = pcm) ∧
      (pcm.length = input.1.length / channels.toInt.toNat ↔
        (3 ≤ channels.toInt → channels.toInt ∣ input.1.length)) ∧
      ∀ k < input.1.length / channels.toInt.toNat,
        pcm[k]? = some (frameSample A (frame channels.toInt.toNat k input.1)) := by
  obtain hone | htwo | hthree :
      channels.toInt = 1 ∨ channels.toInt = 2 ∨ 3 ≤ channels.toInt := by omega
  · obtain rfl : channels = 1 := Int32.toInt_inj.mp hone
    refine ⟨input.1.map A.toInt16, fun pcm' => ?_, ?_, fun k hk => map_toInt16_getElem? hk⟩
    · simp [Downmixes, downmix, eq_comm]
    · simp [hone]
  · obtain rfl : channels = 2 := Int32.toInt_inj.mp htwo
    obtain ⟨hlength, hget⟩ := @mixPairs_spec α A input.1
    refine ⟨mixPairs A input.1, fun pcm' => ?_, ?_, hget⟩
    · simp [Downmixes, downmix, eq_comm]
    · simpa [htwo] using hlength
  · refine ⟨_, fun pcm' => downmixes_iff_of_three_le hthree, ?_, fun k hk => ?_⟩
    · have hcast : channels.toInt ∣ input.1.length ↔
          channels.toInt.toNat ∣ input.1.length := by
        rw [← Int.natCast_dvd_natCast, Int.toNat_of_nonneg (by omega)]
      rw [List.length_map, List.length_range, frameCount_eq_div_iff (by omega), hcast]
      exact ⟨fun h _ => h, fun h => h hthree⟩
    · have hlt : k < frameCount input.1.length channels.toInt.toNat := by
        refine hk.trans_le (Nat.div_le_div_right ?_)
        omega
      rw [List.getElem?_map, List.getElem?_range hlt, Option.map_some, mixFrame_eq hthree hk]

/-- Mixing ends for every input, unless there are no channels. -/
theorem exists_downmixes_iff :
    (∃ pcm, Downmixes A input channels pcm) ↔ (channels = 0 → input.1 = []) := by
  constructor
  · rintro ⟨pcm, hpcm⟩ rfl
    by_contra hne
    exact not_downmixes_zero hne hpcm
  · intro h
    obtain hneg | hzero | hpos :
        channels.toInt < 0 ∨ channels.toInt = 0 ∨ 1 ≤ channels.toInt := by omega
    · exact exists_downmixes_neg hneg
    · obtain rfl : channels = 0 := Int32.toInt_inj.mp hzero
      exact ⟨[], downmixes_nil (by decide) (by decide) (h rfl)⟩
    · obtain ⟨pcm, hunique, -⟩ := exists_downmixes A input hpos
      exact ⟨pcm, (hunique pcm).mpr rfl⟩

/-- The law holds exactly if there are channels and, beyond two of them, whole frames. -/
theorem downmixLaw_iff : DownmixLaw A input channels ↔ WholeFrames input channels := by
  constructor
  · intro h
    refine ⟨exists_downmixes_iff.mp h.ends, fun hthree => ?_⟩
    have hpos : 1 ≤ channels.toInt := by omega
    obtain ⟨pcm, hunique, hlength, -⟩ := exists_downmixes A input hpos
    exact hlength.mp (h.count hpos pcm ((hunique pcm).mpr rfl)) hthree
  · rintro ⟨hzero, hwhole⟩
    refine ⟨exists_downmixes_iff.mpr hzero, fun hpos pcm hpcm => ?_, ?_⟩
    · obtain ⟨pcm, hunique, hlength, -⟩ := exists_downmixes A input hpos
      obtain rfl := (hunique _).mp hpcm
      exact hlength.mpr hwhole
    · intro hpos pcm hpcm input' pcm' hpcm' k hk hk' hframe
      obtain ⟨pcm, hunique, -, hget⟩ := exists_downmixes A input hpos
      obtain ⟨pcm', hunique', -, hget'⟩ := exists_downmixes A input' hpos
      obtain rfl := (hunique _).mp hpcm
      obtain rfl := (hunique' _).mp hpcm'
      rw [hget k hk, hget' k hk', hframe]

/-- Whole frames always yield their quantised mean. -/
theorem meanLaw (input : FloatVector ℚ) (channels : Int32) : MeanLaw input channels := by
  intro hpos pcm hpcm k hk
  obtain ⟨pcm, hunique, -, hget⟩ := exists_downmixes exact input hpos
  obtain rfl := (hunique _).mp hpcm
  have hlength := length_frame hk
  have hne : frame channels.toInt.toNat k input.1 ≠ [] := by
    intro hnil
    rw [hnil, List.length_nil] at hlength
    omega
  have hcast : ((frame channels.toInt.toNat k input.1).length : ℚ) = channels.toInt := by
    have hchannels : ((channels.toInt.toNat : ℕ) : ℤ) = channels.toInt := by omega
    rw [hlength]
    exact_mod_cast hchannels
  rw [hget k hk, frameSample_exact hne, hcast]

/-- The whole conversion succeeds on whole frames: it mixes them and then brings as many samples
as there are frames to the rate of 16 kHz. -/
theorem exists_to16kMonoInt16 {rate : ℤ} (hrate : 0 < rate) (hpos : 1 ≤ channels.toInt)
    (hwhole : WholeFrames input channels) :
    ∃ fuel out, to16kMonoInt16 A fuel input rate channels = some out ∧
      (out.length : ℤ) =
        ⌈((input.1.length / channels.toInt.toNat : ℕ) : ℚ) * (16000 : ℤ) / rate⌉ := by
  by_cases hinput : input.1 = []
  · exact ⟨0, [], by simp [to16kMonoInt16, hinput], by simp [hinput]⟩
  obtain ⟨pcm, hunique, hlength, -⟩ := exists_downmixes A input hpos
  obtain ⟨fuel, hfuel⟩ := (hunique pcm).mpr rfl
  have hto : to16kMonoInt16 A fuel input rate channels =
      if rate = 16000 then some pcm else resampleLinearInt16 pcm rate 16000 := by
    rw [to16kMonoInt16, if_neg hinput, hfuel]
    rfl
  rw [← hlength.mpr hwhole.2]
  by_cases hsame : rate = 16000
  · refine ⟨fuel, pcm, by rw [hto, if_pos hsame], ?_⟩
    rw [hsame, mul_div_cancel_right₀ _ (by norm_num), Int.ceil_natCast]
  by_cases hpcm : pcm = []
  · refine ⟨fuel, [], ?_, by simp [hpcm]⟩
    rw [hto, if_neg hsame, resampleLinearInt16, if_pos (Or.inl hpcm), hpcm]
  · obtain ⟨out, hresample, hout, -⟩ := exists_resample hpcm hrate (by norm_num) hsame
    exact ⟨fuel, out, by rw [hto, if_neg hsame, hresample], hout⟩

/-- The loops obey the law of mixing, with exact numbers including the mean, exactly if there
are channels and, beyond two of them, the input consists of whole frames. -/
theorem downmix_law_iff_wholeFrames {α : Type} (A : FloatArith α) (input : FloatVector α)
    (values : FloatVector ℚ) (channels : Int32) :
    (DownmixLaw A input channels ↔ WholeFrames input channels) ∧
      (DownmixLaw exact values channels ∧ MeanLaw values channels ↔
        WholeFrames values channels) := by
  refine ⟨downmixLaw_iff, ?_⟩
  rw [and_iff_left (meanLaw values channels), downmixLaw_iff]

/-- One number fits into a vector. -/
theorem one_lt_maxSize : ([1] : List ℚ).length < 2 ^ 61 := by norm_num

/-- Four numbers do. -/
theorem four_lt_maxSize : ([1, 1, 1, 1] : List ℚ).length < 2 ^ 61 := by norm_num

/-- Inputs of one number and of four. -/
def oneNumber : FloatVector ℚ := ⟨[1], one_lt_maxSize⟩

/-- Four numbers, which are not whole frames of three. -/
def fourNumbers : FloatVector ℚ := ⟨[1, 1, 1, 1], four_lt_maxSize⟩

/-- Without channels a single number keeps the loop running for ever. With three channels,
four numbers yield two samples, the second from a frame with one number. -/
theorem downmix_cut_short :
    (∀ fuel, downmix exact fuel oneNumber 0 = none) ∧
    (∃ pcm, Downmixes exact fourNumbers 3 pcm ∧ pcm.length = 2) ∧
    ¬DownmixLaw exact oneNumber 0 ∧ ¬DownmixLaw exact fourNumbers 3 := by
  refine ⟨fun fuel => ?_, ⟨_, ⟨3, rfl⟩, rfl⟩, fun h => ?_, fun h => ?_⟩
  · rw [Option.eq_none_iff_forall_ne_some]
    intro pcm hpcm
    exact not_downmixes_zero (List.cons_ne_nil _ _) ⟨fuel, hpcm⟩
  · obtain ⟨pcm, hpcm⟩ := h.ends
    exact not_downmixes_zero (List.cons_ne_nil _ _) hpcm
  · have hlength := h.count (by decide) _ ⟨3, rfl⟩
    exact absurd hlength (by decide)

end AudioResampler

end TtsServer
