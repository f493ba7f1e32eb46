import TtsServer.Lib.Text
import Mathlib.Data.Rat.Cast.CharZero

/-!
# JSON texts

The grammar of RFC 8259 over bytes, rule by rule, together with the value that each
text denotes. A number denotes a rational, so that `10`, `1e1` and `10.0` are one
integer. A string denotes the UTF-8 bytes of its characters once the escapes are
resolved. The members of an object are kept in the order of the text, repeated names
included.
-/

namespace Lib

/-- What a JSON text denotes. -/
inductive JsonValue where
  | null
  | bool (b : Bool)
  | number (q : ℚ)
  | string (s : List UInt8)
  | array (elements : List JsonValue)
  | object (members : List (List UInt8 × JsonValue))

namespace JsonGrammar

/-- Insignificant whitespace: spaces, tabs, line feeds and carriage returns. -/
def Ws (text : List UInt8) : Prop := ∀ b ∈ text, b ∈ [0x20, 0x09, 0x0A, 0x0D]

/-- A structural character, with whitespace allowed on both sides. -/
def Structural (c : UInt8) (text : List UInt8) : Prop :=
  ∃ before after, Ws before ∧ Ws after ∧ text = before ++ c :: after

/-- No whitespace is needed. -/
theorem structural_self (c : UInt8) : Structural c [c] :=
  ⟨[], [], List.forall_mem_nil _, List.forall_mem_nil _, rfl⟩

/-! ### Numbers -/

/-- One or more digits. -/
def Digits (text : List UInt8) : Prop := text ≠ [] ∧ text.all isDigit

/-- The integral part of a number: digits without a leading zero. -/
def Integral (text : List UInt8) : Prop :=
  Digits text ∧ (text.head? = some 0x30 → text = [0x30])

/-- An optional sign and what it multiplies by; only an exponent may have a plus. -/
inductive Sign : List UInt8 → ℤ → Prop where
  | none : Sign [] 1
  | minus : Sign [0x2D] (-1)

/-- The optional part behind the point. -/
inductive Fraction : List UInt8 → List UInt8 → Prop where
  | none : Fraction [] []
  | some {digits} : Digits digits → Fraction (0x2E :: digits) digits

/-- The optional power of ten. -/
inductive Exponent : List UInt8 → ℤ → Prop where
  | none : Exponent [] 0
  | signed {e sign digits s} : e ∈ [0x65, 0x45] → Sign sign s → Digits digits →
      Exponent (e :: sign ++ digits) (s * decimal digits)
  | plus {e digits} : e ∈ [0x65, 0x45] → Digits digits →
      Exponent (e :: 0x2B :: digits) (decimal digits)

/-- A number and its value: the digits before and behind the point, moved by as many
places as the exponent says. -/
inductive Number : List UInt8 → ℚ → Prop where
  | intro {sign integral fraction exponent s digits k} :
      Sign sign s → Integral integral → Fraction fraction digits → Exponent exponent k →
      Number (sign ++ integral ++ fraction ++ exponent)
        (s * decimal (integral ++ digits) * 10 ^ (k - digits.length))

/-! ### Strings -/

/-- The character that a two-character escape stands for. -/
def shortEscape (c : UInt8) : Option UInt8 :=
  [(0x22, 0x22), (0x5C, 0x5C), (0x2F, 0x2F), (0x62, 0x08), (0x66, 0x0C), (0x6E, 0x0A),
    (0x72, 0x0D), (0x74, 0x09)].lookup c

/-- The value of a hexadecimal digit. -/
def hexDigit (b : UInt8) : Option ℕ :=
  if isDigit b then some (b.toNat - 0x30)
  else if 0x61 ≤ b.toNat ∧ b.toNat ≤ 0x66 then some (b.toNat - 0x61 + 10)
  else if 0x41 ≤ b.toNat ∧ b.toNat ≤ 0x46 then some (b.toNat - 0x41 + 10)
  else none

/-- An escape of six characters, `\u` with four hexadecimal digits, names a code unit. -/
inductive CodeUnit : List UInt8 → ℕ → Prop where
  | intro {a b c d x y z w} : hexDigit a = some x → hexDigit b = some y →
      hexDigit c = some z → hexDigit d = some w →
      CodeUnit [0x5C, 0x75, a, b, c, d] (4096 * x + 256 * y + 16 * z + w)

/-- The code unit is the first half of a surrogate pair. -/
def HighSurrogate (n : ℕ) : Prop := 0xD800 ≤ n ∧ n < 0xDC00

/-- The code unit is the second half of a surrogate pair. -/
def LowSurrogate (n : ℕ) : Prop := 0xDC00 ≤ n ∧ n < 0xE000

/-- The bytes of a code point. Half a surrogate pair is no character; the replacement
character stands for it. -/
def utf8 (n : ℕ) : List UInt8 :=
  String.utf8EncodeChar (if n.isValidChar then Char.ofNat n else Char.ofNat 0xFFFD)

/-- A byte that may stand for itself: no control character, quotation mark or backslash. -/
def isUnescaped (b : UInt8) : Bool := decide (0x20 ≤ b.toNat) && b != 0x22 && b != 0x5C

/-- The text between the quotation marks of a string, and the bytes it denotes. -/
inductive Chars : List UInt8 → List UInt8 → Prop where
  | nil : Chars [] []
  | unescaped {b text s} : isUnescaped b → Chars text s → Chars (b :: text) (b :: s)
  | short {c b text s} : shortEscape c = some b → Chars text s →
      Chars (0x5C :: c :: text) (b :: s)
  | pair {hi lo m n text s} : CodeUnit hi m → HighSurrogate m → CodeUnit lo n →
      LowSurrogate n → Chars text s →
      Chars (hi ++ lo ++ text) (utf8 (0x10000 + 0x400 * (m - 0xD800) + (n - 0xDC00)) ++ s)
  | unit {unit n text s} : CodeUnit unit n →
      (HighSurrogate n → ∀ lo m, CodeUnit lo m → LowSurrogate m → ¬ lo <+: text) →
      Chars text s → Chars (unit ++ text) (utf8 n ++ s)

/-- Characters that need no escape denote themselves. -/
theorem chars_self {text : List UInt8} (h : text.all isUnescaped) : Chars text text := by
  induction text with
  | nil => exact .nil
  | cons b text ih =>
    rw [List.all_cons, Bool.and_eq_true] at h
    exact .unescaped h.1 (ih h.2)

/-- A string in its quotation marks. -/
inductive Str : List UInt8 → List UInt8 → Prop where
  | intro {text s} : Chars text s → Str (0x22 :: text ++ [0x22]) s

/-- A string without escapes denotes what stands between its quotation marks. -/
theorem str_self (text : List UInt8) (h : text.all isUnescaped) :
    Str (0x22 :: text ++ [0x22]) text :=
  .intro (chars_self h)

/-! ### Values -/

mutual

/-- A value. -/
inductive Value : List UInt8 → JsonValue → Prop where
  | null : Value [0x6E, 0x75, 0x6C, 0x6C] .null
  | true : Value [0x74, 0x72, 0x75, 0x65] (.bool true)
  | false : Value [0x66, 0x61, 0x6C, 0x73, 0x65] (.bool false)
  | number {text q} : Number text q → Value text (.number q)
  | string {text s} : Str text s → Value text (.string s)
  | emptyArray {l r} : Structural 0x5B l → Structural 0x5D r → Value (l ++ r) (.array [])
  | array {l text r vs} : Structural 0x5B l → Elements text vs → Structural 0x5D r →
      Value (l ++ text ++ r) (.array vs)
  | emptyObject {l r} : Structural 0x7B l → Structural 0x7D r → Value (l ++ r) (.object [])
  | object {l text r ms} : Structural 0x7B l → Members text ms → Structural 0x7D r →
      Value (l ++ text ++ r) (.object ms)

/-- The elements of an array, separated by commas. -/
inductive Elements : List UInt8 → List JsonValue → Prop where
  | one {text v} : Value text v → Elements text [v]
  | more {text v comma rest vs} : Value text v → Structural 0x2C comma →
      Elements rest vs → Elements (text ++ comma ++ rest) (v :: vs)

/-- The members of an object, separated by commas. -/
inductive Members : List UInt8 → List (List UInt8 × JsonValue) → Prop where
  | one {name s colon text v} : Str name s → Structural 0x3A colon → Value text v →
      Members (name ++ colon ++ text) [(s, v)]
  | more {name s colon text v comma rest ms} : Str name s → Structural 0x3A colon →
      Value text v → Structural 0x2C comma → Members rest ms →
      Members (name ++ colon ++ text ++ comma ++ rest) ((s, v) :: ms)

end

end JsonGrammar

open JsonGrammar in
/-- A JSON text: a value with whitespace around it, all of it in UTF-8. -/
def JsonText (text : List UInt8) (v : JsonValue) : Prop :=
  (∃ s : String, s.toUTF8.data.toList = text) ∧
    ∃ before value after, Ws before ∧ Value value v ∧ Ws after ∧ text = before ++ value ++ after

end Lib
