import Mathlib.Data.UInt
import Mathlib.Tactic.IntervalCases
import TtsServer.Messages

/-!
# Hexadecimal audio payloads

The upstream service sends audio as hexadecimal text. Decoding gives up with an
empty result on an odd length or on a character that is no hexadecimal digit.
Encoding writes the two halves of each byte as lower-case digits. On hexadecimal
texts of even length the two are inverse to each other, up to the case of letters.
-/

namespace TtsServer

/-- The value of a hexadecimal digit; `none` stands for the `-1` of the lambda. -/
def nibble (c : UInt8) : Option Nat :=
  if 48 ≤ c.toNat ∧ c.toNat ≤ 57 then some (c.toNat - 48)
  else if 97 ≤ c.toNat ∧ c.toNat ≤ 102 then some (10 + (c.toNat - 97))
  else if 65 ≤ c.toNat ∧ c.toNat ≤ 70 then some (10 + (c.toNat - 65))
  else none

/-- The loop of `hex_decode` on the characters from the current index on, with the
bytes pushed so far. -/
def hexDecodeFrom (out : Bytes) : Bytes → Bytes
  | hi :: lo :: rest =>
    match nibble hi, nibble lo with
    | some h, some l => hexDecodeFrom (out ++ [UInt8.ofNat ((h <<< 4) ||| l)]) rest
    | _, _ => []
  | _ => out

/-- `hex_decode`. -/
def hexDecode (hex : Bytes) : Bytes :=
  if hex.length % 2 ≠ 0 then [] else hexDecodeFrom [] hex

/-- An entry of the table of digits of `hex_encode`. -/
def hexDigit (v : Nat) : UInt8 := (ascii "0123456789abcdef").getD v 0

/-- `hex_encode`. -/
def hexEncode (bytes : Bytes) : Bytes :=
  bytes.flatMap fun c => [hexDigit ((c.toNat >>> 4) &&& 0xF), hexDigit (c.toNat &&& 0xF)]

/-! ### Hexadecimal texts -/

/-- The character is a hexadecimal digit, in either case. -/
def isHexDigit (c : UInt8) : Bool := (ascii "0123456789abcdefABCDEF").contains c

/-- A text of hexadecimal digits that come in pairs. -/
structure HexText (hex : Bytes) : Prop where
  even : hex.length % 2 = 0
  digits : hex.all isHexDigit = true

instance (hex : Bytes) : Decidable (HexText hex) :=
  decidable_of_iff (hex.length % 2 = 0 ∧ hex.all isHexDigit = true)
    ⟨fun h => ⟨h.1, h.2⟩, fun h => ⟨h.even, h.digits⟩⟩

/-- The lower-case form of an ASCII letter; every other character is kept. -/
def lower (c : UInt8) : UInt8 :=
  if 65 ≤ c.toNat ∧ c.toNat ≤ 90 then UInt8.ofNat (c.toNat + 32) else c

variable {hex out bytes : Bytes} {c hi lo : UInt8} {v h l : Nat}

/-- The table of digits is read back. -/
theorem nibble_hexDigit (hv : v < 16) : nibble (hexDigit v) = some v := by
  interval_cases v <;> rfl

/-- A character with a value is a hexadecimal digit, and its lower-case form stands in the
table at that value. -/
theorem hexDigit_of_nibble (hc : nibble c = some v) :
    v < 16 ∧ hexDigit v = lower c ∧ isHexDigit c = true := by
  have hcode : c = UInt8.ofNat c.toNat := UInt8.ofNat_toNat.symm
  unfold nibble at hc
  rw [hcode]
  generalize c.toNat = n at hc
  -- The three ranges of digits.
  split at hc
  · obtain rfl := Option.some.inj hc
    obtain ⟨hlow, hhigh⟩ := ‹48 ≤ n ∧ n ≤ 57›
    interval_cases n <;> decide
  split at hc
  · obtain rfl := Option.some.inj hc
    obtain ⟨hlow, hhigh⟩ := ‹97 ≤ n ∧ n ≤ 102›
    interval_cases n <;> decide
  split at hc
  · obtain rfl := Option.some.inj hc
    obtain ⟨hlow, hhigh⟩ := ‹65 ≤ n ∧ n ≤ 70›
    interval_cases n <;> decide
  · cases hc

/-- Exactly the hexadecimal digits have a value. -/
theorem exists_nibble_iff : (∃ v, nibble c = some v) ↔ isHexDigit c = true := by
  constructor
  · rintro ⟨v, hv⟩
    exact (hexDigit_of_nibble hv).2.2
  · intro hc
    have hall : (ascii "0123456789abcdefABCDEF").all fun c => (nibble c).isSome := by decide
    exact Option.isSome_iff_exists.mp (List.all_eq_true.mp hall c (List.contains_iff_mem.mp hc))

/-- Two nibbles side by side are the quotient and the remainder by 16. -/
theorem pack_eq (hl : l < 16) : (h <<< 4) ||| l = 16 * h + l := by
  rw [← Nat.shiftLeft_add_eq_or_of_lt hl, Nat.shiftLeft_eq]
  omega

/-- The two digits of a byte. -/
theorem hexEncode_cons :
    hexEncode (c :: bytes) =
      hexDigit (c.toNat / 16) :: hexDigit (c.toNat % 16) :: hexEncode bytes := by
  have hbyte : c.toNat < 256 := c.toNat_lt
  have hhigh : (c.toNat >>> 4) &&& 0xF = c.toNat / 16 := by
    rw [Nat.shiftRight_eq_div_pow, Nat.and_two_pow_sub_one_eq_mod _ 4]
    omega
  have hlow : c.toNat &&& 0xF = c.toNat % 16 := Nat.and_two_pow_sub_one_eq_mod _ 4
  simp only [hexEncode, List.flatMap_cons, hhigh, hlow, List.cons_append, List.nil_append]

/-- A byte takes two digits. -/
theorem length_hexEncode : (hexEncode bytes).length = 2 * bytes.length := by
  induction bytes with
  | nil => rfl
  | cons c bytes ih =>
    rw [hexEncode_cons, List.length_cons, List.length_cons, List.length_cons, ih]
    omega

/-- Two more digits are two characters with values and a text of digits. -/
theorem hexText_cons_cons :
    HexText (hi :: lo :: hex) ↔ isHexDigit hi = true ∧ isHexDigit lo = true ∧ HexText hex := by
  constructor
  · rintro ⟨heven, hdigits⟩
    simp only [List.all_cons, Bool.and_eq_true, List.length_cons] at hdigits heven
    exact ⟨hdigits.1, hdigits.2.1, by omega, hdigits.2.2⟩
  · rintro ⟨hhi, hlo, heven, hdigits⟩
    refine ⟨?_, ?_⟩
    · simp only [List.length_cons]
      omega
    · simp [hhi, hlo, hdigits]

/-! ### Decoding -/

/-- The loop decodes the pair at its index, if both characters are digits. -/
theorem hexDecodeFrom_cons_cons (hhi : nibble hi = some h) (hlo : nibble lo = some l) :
    hexDecodeFrom out (hi :: lo :: hex) =
      hexDecodeFrom (out ++ [UInt8.ofNat (16 * h + l)]) hex := by
  rw [hexDecodeFrom, hhi, hlo]
  simp only [pack_eq (hexDigit_of_nibble hlo).1]

/-- The loop reads back what was encoded. -/
theorem hexDecodeFrom_hexEncode : hexDecodeFrom out (hexEncode bytes) = out ++ bytes := by
  induction bytes generalizing out with
  | nil => simp [hexEncode, hexDecodeFrom]
  | cons c bytes ih =>
    have hbyte : c.toNat < 256 := c.toNat_lt
    have hhigh : nibble (hexDigit (c.toNat / 16)) = some (c.toNat / 16) :=
      nibble_hexDigit (by omega)
    have hlow : nibble (hexDigit (c.toNat % 16)) = some (c.toNat % 16) :=
      nibble_hexDigit (by omega)
    have hpack : 16 * (c.toNat / 16) + c.toNat % 16 = c.toNat := by omega
    rw [hexEncode_cons, hexDecodeFrom_cons_cons hhigh hlow, ih, hpack, UInt8.ofNat_toNat]
    simp

/-- The loop appends to the bytes pushed so far the bytes that the text encodes, up to the case
of letters. -/
theorem HexText.hexDecodeFrom (hhex : HexText hex) :
    ∃ bytes, hexDecodeFrom out hex = out ++ bytes ∧ hexEncode bytes = hex.map lower := by
  induction hex using List.twoStepInduction generalizing out with
  | nil => exact ⟨[], by simp [TtsServer.hexDecodeFrom], rfl⟩
  | singleton c => exact absurd hhex.even (by simp)
  | cons_cons hi lo hex ih _ =>
    obtain ⟨hhi, hlo, hrest⟩ := hexText_cons_cons.mp hhex
    obtain ⟨h, hh⟩ := exists_nibble_iff.mpr hhi
    obtain ⟨l, hl⟩ := exists_nibble_iff.mpr hlo
    obtain ⟨hlt, hdigit, -⟩ := hexDigit_of_nibble hh
    obtain ⟨hlt', hdigit', -⟩ := hexDigit_of_nibble hl
    obtain ⟨bytes, hdecode, hencode⟩ := @ih (out ++ [UInt8.ofNat (16 * h + l)]) hrest
    have hcode : (UInt8.ofNat (16 * h + l)).toNat = 16 * h + l :=
      UInt8.toNat_ofNat_of_lt' (by norm_num [UInt8.size]; omega)
    have hdiv : (16 * h + l) / 16 = h := by omega
    have hmod : (16 * h + l) % 16 = l := by omega
    refine ⟨UInt8.ofNat (16 * h + l) :: bytes, ?_, ?_⟩
    · rw [hexDecodeFrom_cons_cons hh hl, hdecode, List.append_assoc, List.singleton_append]
    · rw [hexEncode_cons, hcode, hdiv, hmod, hencode, hdigit, hdigit', List.map_cons,
        List.map_cons]

/-- A character that is no digit empties the result. -/
theorem hexDecodeFrom_of_not_hexText (heven : hex.length % 2 = 0) (hhex : ¬HexText hex) :
    hexDecodeFrom out hex = [] := by
  induction hex using List.twoStepInduction generalizing out with
  | nil => exact absurd ⟨rfl, rfl⟩ hhex
  | singleton c => simp at heven
  | cons_cons hi lo hex ih _ =>
    rw [hexDecodeFrom]
    split
    · rename_i h l hh hl
      have heven' : hex.length % 2 = 0 := by
        simp only [List.length_cons] at heven
        omega
      refine ih heven' fun hrest => hhex ?_
      exact hexText_cons_cons.mpr
        ⟨exists_nibble_iff.mp ⟨h, hh⟩, exists_nibble_iff.mp ⟨l, hl⟩, hrest⟩
    · rfl

/-- Whatever is no hexadecimal text decodes to nothing. -/
theorem hexDecode_of_not_hexText (hhex : ¬HexText hex) : hexDecode hex = [] := by
  unfold hexDecode
  split
  · rfl
  · exact hexDecodeFrom_of_not_hexText (by omega) hhex

/-- A hexadecimal text decodes to the bytes it encodes, up to the case of letters. -/
theorem HexText.hexEncode_hexDecode (hhex : HexText hex) :
    hexEncode (hexDecode hex) = hex.map lower := by
  obtain ⟨bytes, hdecode, hencode⟩ := @HexText.hexDecodeFrom hex [] hhex
  rw [hexDecode, if_neg (by simp [hhex.even]), hdecode, List.nil_append, hencode]

/-- Decoding halves the length of a hexadecimal text. -/
theorem HexText.length_hexDecode (hhex : HexText hex) :
    (hexDecode hex).length = hex.length / 2 := by
  have hlength := congrArg List.length hhex.hexEncode_hexDecode
  rw [length_hexEncode, List.length_map] at hlength
  omega

/-- The inverse laws of the codec: encoding is undone by decoding, decoding a hexadecimal text
is undone by encoding up to the case of letters and halves the length, and decoding yields
something exactly for the non-empty hexadecimal texts. -/
theorem hex_codec_inverse :
    (∀ bytes, hexDecode (hexEncode bytes) = bytes) ∧
    (∀ hex, HexText hex →
      hexEncode (hexDecode hex) = hex.map lower ∧ (hexDecode hex).length = hex.length / 2) ∧
    ∀ hex, hexDecode hex ≠ [] ↔ hex ≠ [] ∧ HexText hex := by
  refine ⟨fun bytes => ?_, fun hex hhex => ⟨hhex.hexEncode_hexDecode, hhex.length_hexDecode⟩,
    fun hex => ⟨fun hdecode => ⟨?_, ?_⟩, fun ⟨hne, hhex⟩ hdecode => ?_⟩⟩
  · have heven : (hexEncode bytes).length % 2 = 0 := by
      rw [length_hexEncode]
      omega
    rw [hexDecode, if_neg (by omega), hexDecodeFrom_hexEncode, List.nil_append]
  · rintro rfl
    exact hdecode rfl
  · by_contra hhex
    exact hdecode (hexDecode_of_not_hexText hhex)
  · have hlength := hhex.length_hexDecode
    have heven := hhex.even
    have hpos : 0 < hex.length := List.length_pos_of_ne_nil hne
    rw [hdecode, List.length_nil] at hlength
    omega

/-- Capital digits come back in lower case. -/
theorem hex_codec_inverse_upper :
    HexText (ascii "4A") ∧ hexEncode (hexDecode (ascii "4A")) = (ascii "4A").map lower ∧
      (ascii "4A").map lower = ascii "4a" ∧ hexDecode (ascii "4A") = [0x4A] :=
  have hhex : HexText (ascii "4A") := by decide
  ⟨hhex, (hex_codec_inverse.2.1 _ hhex).1, by decide, by decide⟩

end TtsServer
