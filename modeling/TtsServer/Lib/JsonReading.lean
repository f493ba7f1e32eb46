import TtsServer.Lib.Json

/-!
# Reading JSON texts

A reader for the grammar of JSON texts that looks at the text once, from left to right. What
the grammar derives for a text, the reader returns. So a text denotes at most one value, although
the grammar may assign the whitespace of a text in several ways.
-/

namespace Lib

namespace JsonReader

open JsonGrammar

/-- The byte is insignificant whitespace. -/
def isWs (b : UInt8) : Bool := b = 0x20 || b = 0x09 || b = 0x0A || b = 0x0D

/-- What stands behind the whitespace. -/
def skipWs (text : List UInt8) : List UInt8 := text.dropWhile isWs

/-- A code unit at the beginning of the text, with what follows it. -/
def readCodeUnit : List UInt8 → Option (ℕ × List UInt8)
  | e :: u :: a :: b :: c :: d :: rest =>
    if e = 0x5C ∧ u = 0x75 then
      match hexDigit a, hexDigit b, hexDigit c, hexDigit d with
      | some x, some y, some z, some w => some (4096 * x + 256 * y + 16 * z + w, rest)
      | _, _, _, _ => none
    else none
  | _ => none

/-- The low half of a surrogate pair at the beginning of the text, with what follows it. -/
def readLowSurrogate (text : List UInt8) : Option (ℕ × List UInt8) :=
  match readCodeUnit text with
  | some (n, rest) => if 0xDC00 ≤ n ∧ n < 0xE000 then some (n, rest) else none
  | none => none

/-- The characters up to the closing quotation mark, with what follows it. -/
def readChars : ℕ → List UInt8 → Option (List UInt8 × List UInt8)
  | 0, _ => none
  | _ + 1, [] => none
  | fuel + 1, b :: text =>
    if b = 0x22 then some ([], text)
    else if b = 0x5C then
      match readCodeUnit (b :: text) with
      | some (n, rest) =>
        match if 0xD800 ≤ n ∧ n < 0xDC00 then readLowSurrogate rest else none with
        | some (m, rest) =>
          (readChars fuel rest).map fun (s, rest) =>
            (utf8 (0x10000 + 0x400 * (n - 0xD800) + (m - 0xDC00)) ++ s, rest)
        | none => (readChars fuel rest).map fun (s, rest) => (utf8 n ++ s, rest)
      | none =>
        match text with
        | [] => none
        | c :: rest =>
          match shortEscape c with
          | some b => (readChars fuel rest).map fun (s, rest) => (b :: s, rest)
          | none => none
    else if isUnescaped b then (readChars fuel text).map fun (s, rest) => (b :: s, rest)
    else none

/-- The digits behind a point, with what follows them. -/
def readFraction : List UInt8 → Option (List UInt8 × List UInt8)
  | [] => some ([], [])
  | b :: rest =>
    if b = 0x2E then
      if rest.takeWhile isDigit = [] then none
      else some (rest.takeWhile isDigit, rest.dropWhile isDigit)
    else some ([], b :: rest)

/-- A row of digits with a sign in front, and what follows it. -/
def readSigned (sign : ℤ) (text : List UInt8) : Option (ℤ × List UInt8) :=
  if text.takeWhile isDigit = [] then none
  else some (sign * decimal (text.takeWhile isDigit), text.dropWhile isDigit)

/-- The power of ten, with what follows it. -/
def readExponent : List UInt8 → Option (ℤ × List UInt8)
  | [] => some (0, [])
  | e :: rest =>
    if e = 0x65 ∨ e = 0x45 then
      match rest with
      | [] => none
      | b :: digits =>
        if b = 0x2D then readSigned (-1) digits
        else if b = 0x2B then readSigned 1 digits
        else readSigned 1 (b :: digits)
    else some (0, e :: rest)

/-- A number without its sign, with what follows it. -/
def readMagnitude (sign : ℤ) (text : List UInt8) : Option (ℚ × List UInt8) :=
  let integral := text.takeWhile isDigit
  if integral = [] ∨ integral.head? = some 0x30 ∧ integral ≠ [0x30] then none
  else
    match readFraction (text.dropWhile isDigit) with
    | none => none
    | some (digits, rest) =>
      (readExponent rest).map fun (k, rest) =>
        (sign * decimal (integral ++ digits) * 10 ^ (k - digits.length), rest)

/-- A number, with what follows it. -/
def readNumber : List UInt8 → Option (ℚ × List UInt8)
  | [] => none
  | b :: text => if b = 0x2D then readMagnitude (-1) text else readMagnitude 1 (b :: text)

/-- A value of a fixed spelling. -/
def readLiteral (text rest : List UInt8) : Option (List UInt8) :=
  if text.isPrefixOf rest then some (rest.drop text.length) else none

mutual

/-- A value, with what follows it and the whitespace behind it. -/
def readValue : ℕ → List UInt8 → Option (JsonValue × List UInt8)
  | 0, _ => none
  | fuel + 1, text =>
    match skipWs text with
    | [] => none
    | b :: rest =>
      if b = 0x22 then
        (readChars (rest.length + 1) rest).map fun (s, rest) => (.string s, skipWs rest)
      else if b = 0x5B then
        match skipWs rest with
        | [] => none
        | c :: after =>
          if c = 0x5D then some (.array [], skipWs after)
          else (readElements fuel rest).map fun (vs, rest) => (.array vs, rest)
      else if b = 0x7B then
        match skipWs rest with
        | [] => none
        | c :: after =>
          if c = 0x7D then some (.object [], skipWs after)
          else (readMembers fuel rest).map fun (ms, rest) => (.object ms, rest)
      else if b = 0x6E then
        (readLiteral [0x6E, 0x75, 0x6C, 0x6C] (b :: rest)).map fun rest => (.null, skipWs rest)
      else if b = 0x74 then
        (readLiteral [0x74, 0x72, 0x75, 0x65] (b :: rest)).map fun rest =>
          (.bool true, skipWs rest)
      else if b = 0x66 then
        (readLiteral [0x66, 0x61, 0x6C, 0x73, 0x65] (b :: rest)).map fun rest =>
          (.bool false, skipWs rest)
      else (readNumber (b :: rest)).map fun (q, rest) => (.number q, skipWs rest)

/-- The elements up to the closing bracket. -/
def readElements : ℕ → List UInt8 → Option (List JsonValue × List UInt8)
  | 0, _ => none
  | fuel + 1, text =>
    match readValue fuel text with
    | none => none
    | some (_, []) => none
    | some (v, b :: rest) =>
      if b = 0x2C then (readElements fuel rest).map fun (vs, rest) => (v :: vs, rest)
      else if b = 0x5D then some ([v], skipWs rest)
      else none

/-- The members up to the closing brace. -/
def readMembers : ℕ → List UInt8 → Option (List (List UInt8 × JsonValue) × List UInt8)
  | 0, _ => none
  | fuel + 1, text =>
    match skipWs text with
    | [] => none
    | q :: name =>
      if q = 0x22 then
        match readChars (name.length + 1) name with
        | none => none
        | some (s, rest) =>
          match skipWs rest with
          | [] => none
          | c :: rest =>
            if c = 0x3A then
              match readValue fuel rest with
              | none => none
              | some (_, []) => none
              | some (v, b :: rest) =>
                if b = 0x2C then
                  (readMembers fuel rest).map fun (ms, rest) => ((s, v) :: ms, rest)
                else if b = 0x7D then some ([(s, v)], skipWs rest)
                else none
            else none
      else none

end

/-- The value of a text. -/
def read (text : List UInt8) : Option JsonValue :=
  match readValue (2 * text.length + 1) text with
  | some (v, []) => some v
  | _ => none

/-! ### Whitespace -/

variable {text rest s : List UInt8} {b c : UInt8}

/-- The test accepts the four whitespace bytes. -/
theorem isWs_iff : isWs b = true ↔ b ∈ [0x20, 0x09, 0x0A, 0x0D] := by
  simp [isWs, or_assoc]

/-- Whitespace at the front is skipped. -/
theorem skipWs_append {before : List UInt8} (h : Ws before) :
    skipWs (before ++ text) = skipWs text :=
  List.dropWhile_append_of_pos fun b hb => isWs_iff.mpr (h b hb)

/-- Nothing is skipped where no whitespace is. -/
theorem skipWs_cons (h : isWs b = false) : skipWs (b :: text) = b :: text := by
  simp [skipWs, h]

/-- Whitespace alone is skipped to the end. -/
theorem skipWs_ws (h : Ws text) : skipWs text = [] := by
  rw [← List.append_nil text, skipWs_append h]
  rfl

/-- Whitespace in front of a structural character is skipped, and whitespace follows it. -/
theorem skipWs_structural {l : List UInt8} (h : Structural c l) (hc : isWs c = false)
    (rest : List UInt8) : ∃ ws, Ws ws ∧ skipWs (l ++ rest) = c :: (ws ++ rest) := by
  obtain ⟨before, after, hbefore, hafter, rfl⟩ := h
  refine ⟨after, hafter, ?_⟩
  rw [List.append_assoc, skipWs_append hbefore, List.cons_append, skipWs_cons hc]

/-- Behind a value: the end of the text, whitespace, or a character that separates or closes. -/
def Stops (rest : List UInt8) : Prop :=
  ∀ b ∈ rest.head?, isWs b = true ∨ b ∈ [0x2C, 0x5D, 0x7D]

/-- Whitespace ends a number. -/
theorem stops_ws (h : Ws text) : Stops text :=
  fun b hb => Or.inl (isWs_iff.mpr (h b (List.mem_of_mem_head? hb)))

/-- So do a comma and a closing bracket, after whitespace. -/
theorem stops_structural {l : List UInt8} (h : Structural c l) (hc : c ∈ [0x2C, 0x5D, 0x7D]) :
    Stops (l ++ rest) := by
  obtain ⟨before, after, hbefore, -, rfl⟩ := h
  intro b hb
  cases before with
  | nil =>
    obtain rfl : c = b := by simpa using hb
    exact Or.inr hc
  | cons d before =>
    obtain rfl : d = b := by simpa using hb
    exact Or.inl (isWs_iff.mpr (hbefore d List.mem_cons_self))

/-- What may follow a value cannot continue a number. -/
theorem Stops.head_ne (h : Stops rest) (hb : b ∈ rest.head?) :
    isDigit b = false ∧ b ≠ 0x2E ∧ b ≠ 0x65 ∧ b ≠ 0x45 := by
  rcases h b hb with hws | hclose
  · simp only [isWs_iff, List.mem_cons, List.not_mem_nil, or_false] at hws
    rcases hws with rfl | rfl | rfl | rfl <;> decide
  · simp only [List.mem_cons, List.not_mem_nil, or_false] at hclose
    rcases hclose with rfl | rfl | rfl <;> decide

/-! ### Strings -/

/-- A code unit is read back. -/
theorem readCodeUnit_append {unit : List UInt8} {n : ℕ} (h : CodeUnit unit n) :
    readCodeUnit (unit ++ rest) = some (n, rest) := by
  cases h with
  | intro ha hb hc hd => simp [readCodeUnit, ha, hb, hc, hd]

/-- What is read as a code unit is one. -/
theorem exists_of_readCodeUnit {n : ℕ} (h : readCodeUnit text = some (n, rest)) :
    ∃ unit, CodeUnit unit n ∧ text = unit ++ rest := by
  unfold readCodeUnit at h
  split at h
  · next e u a b c d rest' =>
    split at h
    · next heu =>
      obtain ⟨rfl, rfl⟩ := heu
      split at h
      · next ha hb hc hd =>
        obtain ⟨rfl, rfl⟩ := Prod.mk.inj (Option.some.inj h)
        exact ⟨_, .intro ha hb hc hd, rfl⟩
      · cases h
    · cases h
  · cases h

/-- The text of a code unit holds no quote. -/
theorem quote_notMem_codeUnit {unit : List UInt8} {n : ℕ} (h : CodeUnit unit n) :
    0x22 ∉ unit := by
  cases h with
  | intro ha hb hc hd =>
    have hne {d : UInt8} {x : ℕ} (hd : hexDigit d = some x) : 0x22 ≠ d := by
      rintro rfl
      have hnone : hexDigit 0x22 = none := by decide
      rw [hnone] at hd
      cases hd
    simp [hne ha, hne hb, hne hc, hne hd]

/-- No low surrogate is found behind a high one that stands alone. -/
theorem readLowSurrogate_eq_none
    (h : ∀ lo m, CodeUnit lo m → LowSurrogate m → ¬ lo <+: text) :
    readLowSurrogate (text ++ 0x22 :: rest) = none := by
  unfold readLowSurrogate
  split
  · next m after hunit =>
    refine if_neg fun hlow => ?_
    obtain ⟨lo, hlo, heq⟩ := exists_of_readCodeUnit hunit
    refine h lo m hlo hlow ?_
    rcases List.append_eq_append_iff.mp heq with ⟨tail, rfl, htail⟩ | ⟨tail, rfl, -⟩
    · -- The code unit would have to contain the quotation mark.
      cases tail with
      | nil => simp
      | cons q tail =>
        obtain rfl : 0x22 = q := (List.cons.inj htail).1
        exact absurd (List.mem_append_right _ List.mem_cons_self) (quote_notMem_codeUnit hlo)
    · exact List.prefix_append _ _
  · rfl

/-- The characters of a string are read up to its closing quote. -/
theorem readChars_append (h : Chars text s) {fuel : ℕ} (hfuel : text.length < fuel) :
    readChars fuel (text ++ 0x22 :: rest) = some (s, rest) := by
  induction h generalizing fuel with
  | nil =>
    obtain ⟨fuel, rfl⟩ := Nat.exists_eq_add_one_of_ne_zero (by omega : fuel ≠ 0)
    simp [readChars]
  | @unescaped b text s hb h ih =>
    obtain ⟨fuel, rfl⟩ := Nat.exists_eq_add_one_of_ne_zero (by omega : fuel ≠ 0)
    have hrest := @ih fuel (by simpa using hfuel)
    have hquote : b ≠ 0x22 := by
      rintro rfl
      exact absurd hb (by decide)
    have hbackslash : b ≠ 0x5C := by
      rintro rfl
      exact absurd hb (by decide)
    simp [readChars, hquote, hbackslash, hb, hrest]
  | @short c b text s hc h ih =>
    obtain ⟨fuel, rfl⟩ := Nat.exists_eq_add_one_of_ne_zero (by omega : fuel ≠ 0)
    have hrest := @ih fuel (by simp only [List.length_cons] at hfuel; omega)
    have hu : c ≠ 0x75 := by
      rintro rfl
      have hnone : shortEscape 0x75 = none := by decide
      rw [hnone] at hc
      cases hc
    have hunit : readCodeUnit (0x5C :: c :: (text ++ 0x22 :: rest)) = none := by
      cases hcase : readCodeUnit (0x5C :: c :: (text ++ 0x22 :: rest)) with
      | none => rfl
      | some found =>
        obtain ⟨n, after⟩ := found
        obtain ⟨unit, hunit, heq⟩ := exists_of_readCodeUnit hcase
        cases hunit with
        | intro => exact absurd (List.cons.inj (List.cons.inj heq).2).1 hu
    simp [readChars, hunit, hc, hrest]
  | @pair hi lo m n text s hhi hm hlo hn h ih =>
    obtain ⟨fuel, rfl⟩ := Nat.exists_eq_add_one_of_ne_zero (by omega : fuel ≠ 0)
    have hrest := @ih fuel (by
      cases hhi
      simp only [List.length_append, List.length_cons] at hfuel
      omega)
    have hread := @readCodeUnit_append (lo ++ text ++ 0x22 :: rest) _ _ hhi
    have hlow : readLowSurrogate (lo ++ (text ++ 0x22 :: rest)) =
        some (n, text ++ 0x22 :: rest) := by
      rw [readLowSurrogate, readCodeUnit_append hlo]
      exact if_pos hn
    cases hhi with
    | intro ha hb hc hd =>
      simp only [List.cons_append, List.nil_append, List.append_assoc] at hread ⊢
      simp [readChars, hread, hm.1, hm.2, hlow, hrest]
  | @unit unit n text s hunit halone h ih =>
    obtain ⟨fuel, rfl⟩ := Nat.exists_eq_add_one_of_ne_zero (by omega : fuel ≠ 0)
    have hrest := @ih fuel (by
      cases hunit
      simp only [List.length_append, List.length_cons] at hfuel
      omega)
    have hread := @readCodeUnit_append (text ++ 0x22 :: rest) _ _ hunit
    have hlow : (if 0xD800 ≤ n ∧ n < 0xDC00 then readLowSurrogate (text ++ 0x22 :: rest)
        else none) = none := by
      split
      · next hhigh => exact readLowSurrogate_eq_none (halone hhigh)
      · rfl
    cases hunit with
    | intro ha hb hc hd =>
      simp only [List.cons_append, List.nil_append] at hread ⊢
      simp [readChars, hread, hlow, hrest]

/-! ### Numbers -/

/-- Digits are read up to the first byte that is none. -/
theorem span_digits (hdigits : text.all isDigit) (hrest : ∀ b ∈ rest.head?, isDigit b = false) :
    (text ++ rest).takeWhile isDigit = text ∧ (text ++ rest).dropWhile isDigit = rest :=
  takeWhile_dropWhile_iff.mpr
    ⟨rfl, List.all_eq_true.mp hdigits, fun b hb => by simp [hrest b hb]⟩

/-- A signed number is read up to the last digit. -/
theorem readSigned_append {sign : ℤ} (hdigits : Digits text)
    (hrest : ∀ b ∈ rest.head?, isDigit b = false) :
    readSigned sign (text ++ rest) = some (sign * decimal text, rest) := by
  obtain ⟨htake, hdrop⟩ := span_digits hdigits.2 hrest
  rw [readSigned, htake, hdrop, if_neg hdigits.1]

/-- The first of some digits. -/
theorem exists_digit (hdigits : Digits text) : ∃ d tail, text = d :: tail ∧ isDigit d = true := by
  obtain ⟨hne, hall⟩ := hdigits
  obtain ⟨d, tail, rfl⟩ := List.exists_cons_of_ne_nil hne
  rw [List.all_cons, Bool.and_eq_true] at hall
  exact ⟨d, tail, rfl, hall.1⟩

/-- An exponent is read back before anything that ends a number. -/
theorem readExponent_append {k : ℤ} (h : Exponent text k) (hstops : Stops rest) :
    readExponent (text ++ rest) = some (k, rest) := by
  have hdigit : ∀ b ∈ rest.head?, isDigit b = false := fun b hb => (hstops.head_ne hb).1
  cases h with
  | none =>
    cases rest with
    | nil => rfl
    | cons b rest =>
      obtain ⟨-, -, he, hE⟩ := hstops.head_ne (b := b) rfl
      simp [readExponent, he, hE]
  | @signed e sign digits t he hsign hdigits =>
    have hmark : e = 0x65 ∨ e = 0x45 := by simpa using he
    obtain ⟨d, tail, rfl, hd⟩ := exists_digit hdigits
    have hread := @readSigned_append (d :: tail) rest t hdigits hdigit
    cases hsign with
    | none =>
      have hminus : d ≠ 0x2D := by
        rintro rfl
        exact absurd hd (by decide)
      have hplus : d ≠ 0x2B := by
        rintro rfl
        exact absurd hd (by decide)
      simp only [List.cons_append, List.nil_append, readExponent, hmark, if_true, hminus, hplus,
        if_false]
      exact hread
    | minus =>
      simp only [List.cons_append, List.nil_append, readExponent, hmark, if_true]
      exact hread
  | @plus e digits he hdigits =>
    have hmark : e = 0x65 ∨ e = 0x45 := by simpa using he
    have hread := @readSigned_append digits rest 1 hdigits hdigit
    rw [one_mul] at hread
    simp only [List.cons_append, readExponent, hmark, if_true]
    exact hread

/-- What may follow the digits of a fraction. -/
theorem exponent_head {k : ℤ} (h : Exponent text k) (hstops : Stops rest) :
    ∀ b ∈ (text ++ rest).head?, isDigit b = false ∧ b ≠ 0x2E := by
  intro b hb
  cases h with
  | none =>
    obtain ⟨hdigit, hpoint, -⟩ := hstops.head_ne hb
    exact ⟨hdigit, hpoint⟩
  | signed he =>
    obtain rfl : _ = b := by simpa using hb
    simp only [List.mem_cons, List.not_mem_nil, or_false] at he
    rcases he with rfl | rfl <;> decide
  | plus he =>
    obtain rfl : _ = b := by simpa using hb
    simp only [List.mem_cons, List.not_mem_nil, or_false] at he
    rcases he with rfl | rfl <;> decide

/-- A fraction is read back before anything that does not continue it. -/
theorem readFraction_append {digits : List UInt8} (h : Fraction text digits)
    (hrest : ∀ b ∈ rest.head?, isDigit b = false ∧ b ≠ 0x2E) :
    readFraction (text ++ rest) = some (digits, rest) := by
  cases h with
  | none =>
    cases rest with
    | nil => rfl
    | cons b rest => simp [readFraction, (hrest b rfl).2]
  | some hdigits =>
    obtain ⟨htake, hdrop⟩ := span_digits hdigits.2 fun b hb => (hrest b hb).1
    simp only [List.cons_append, readFraction, if_true, htake, hdrop, hdigits.1, if_false]

/-- What may follow the integral part. -/
theorem fraction_head {digits : List UInt8} (h : Fraction text digits)
    (hrest : ∀ b ∈ rest.head?, isDigit b = false ∧ b ≠ 0x2E) :
    ∀ b ∈ (text ++ rest).head?, isDigit b = false := by
  intro b hb
  cases h with
  | none => exact (hrest b hb).1
  | some =>
    obtain rfl : _ = b := by simpa using hb
    decide

/-- A number is read back before anything that ends it. -/
theorem readNumber_append {q : ℚ} (h : Number text q) (hstops : Stops rest) :
    readNumber (text ++ rest) = some (q, rest) := by
  cases h with
  | @intro sign integral fraction exponent t digits k hsign hintegral hfraction hexponent =>
    have hexp := exponent_head hexponent hstops
    have hmagnitude (z : ℤ) : readMagnitude z (integral ++ (fraction ++ (exponent ++ rest))) =
        some ((z : ℚ) * decimal (integral ++ digits) * 10 ^ (k - digits.length), rest) := by
      obtain ⟨htake, hdrop⟩ := span_digits hintegral.1.2 (fraction_head hfraction hexp)
      have hgood : ¬ (integral = [] ∨ integral.head? = some 0x30 ∧ integral ≠ [0x30]) := by
        rintro (hempty | ⟨hzero, hlong⟩)
        · exact hintegral.1.1 hempty
        · exact hlong (hintegral.2 hzero)
      simp only [readMagnitude, htake, hdrop, if_neg hgood, readFraction_append hfraction hexp,
        readExponent_append hexponent hstops, Option.map_some]
    obtain ⟨d, tail, rfl, hd⟩ := exists_digit hintegral.1
    simp only [List.append_assoc] at hmagnitude ⊢
    cases hsign with
    | none =>
      have hminus : d ≠ 0x2D := by
        rintro rfl
        exact absurd hd (by decide)
      have hread := hmagnitude 1
      simp only [List.cons_append, List.nil_append, readNumber, hminus, if_false] at hread ⊢
      exact hread
    | minus =>
      simp only [List.cons_append, List.nil_append, readNumber, if_true] at hmagnitude ⊢
      exact hmagnitude (-1)

/-- A number begins with a minus sign or a digit. -/
theorem number_head {q : ℚ} (h : Number text q) :
    ∃ d tail, text = d :: tail ∧ (d = 0x2D ∨ isDigit d = true) := by
  cases h with
  | intro hsign hintegral hfraction hexponent =>
    obtain ⟨d, tail, rfl, hd⟩ := exists_digit hintegral.1
    cases hsign with
    | none => exact ⟨d, _, rfl, Or.inr hd⟩
    | minus => exact ⟨0x2D, _, rfl, Or.inl rfl⟩

/-! ### Values -/

/-- Whitespace in front of a value is skipped. -/
theorem readValue_ws {before : List UInt8} {fuel : ℕ} (h : Ws before) :
    readValue fuel (before ++ text) = readValue fuel text := by
  cases fuel with
  | zero => rfl
  | succ fuel => simp only [readValue, skipWs_append h]

/-- The byte can be the first one of a value. -/
def Opens (c : UInt8) : Prop :=
  isWs c = false ∧ c ≠ 0x2C ∧ c ≠ 0x3A ∧ c ≠ 0x5D ∧ c ≠ 0x7D

/-- A number opens with a byte that opens no other value. -/
theorem opens_number (h : c = 0x2D ∨ isDigit c = true) :
    Opens c ∧ c ∉ [0x22, 0x5B, 0x7B, 0x6E, 0x74, 0x66] := by
  have hrange : 0x2D ≤ c.toNat ∧ c.toNat ≤ 0x39 ∧ c.toNat ≠ 0x2E := by
    rcases h with rfl | hdigit
    · decide
    · have hbounds : 0x30 ≤ c.toNat ∧ c.toNat ≤ 0x39 := by simpa [isDigit] using hdigit
      omega
  have hne (d : UInt8) (hd : d.toNat < 0x2D ∨ 0x39 < d.toNat) : c ≠ d := by
    rintro rfl
    omega
  refine ⟨⟨?_, hne _ (by decide), hne _ (by decide), hne _ (by decide), hne _ (by decide)⟩, ?_⟩
  · simp [isWs, hne 0x20 (by decide), hne 0x09 (by decide), hne 0x0A (by decide),
      hne 0x0D (by decide)]
  · simp [hne 0x22 (by decide), hne 0x5B (by decide), hne 0x7B (by decide), hne 0x6E (by decide),
      hne 0x74 (by decide), hne 0x66 (by decide)]

/-- Behind its whitespace, a value begins with a byte that opens it. -/
theorem value_opens {v : JsonValue} (h : Value text v) :
    ∃ c after, skipWs (text ++ rest) = c :: after ∧ Opens c := by
  have hopen {b : UInt8} {l more : List UInt8} (hl : Structural b l) (hb : Opens b) :
      ∃ c after, skipWs (l ++ more ++ rest) = c :: after ∧ Opens c := by
    obtain ⟨ws, -, hskip⟩ := skipWs_structural hl hb.1 (more ++ rest)
    exact ⟨b, ws ++ (more ++ rest), by rw [List.append_assoc, hskip], hb⟩
  cases h with
  | null => exact ⟨0x6E, _, rfl, by unfold Opens; decide⟩
  | true => exact ⟨0x74, _, rfl, by unfold Opens; decide⟩
  | false => exact ⟨0x66, _, rfl, by unfold Opens; decide⟩
  | number hnumber =>
    obtain ⟨d, tail, rfl, hd⟩ := number_head hnumber
    exact ⟨d, _, skipWs_cons (opens_number hd).1.1, (opens_number hd).1⟩
  | string hstr =>
    cases hstr with
    | intro => exact ⟨0x22, _, rfl, by unfold Opens; decide⟩
  | emptyArray hl => exact hopen hl (by unfold Opens; decide)
  | @array l text r vs hl =>
    rw [List.append_assoc l]
    exact hopen hl (by unfold Opens; decide)
  | emptyObject hl => exact hopen hl (by unfold Opens; decide)
  | @object l text r ms hl =>
    rw [List.append_assoc l]
    exact hopen hl (by unfold Opens; decide)

/-- So do the elements of an array. -/
theorem elements_opens {vs : List JsonValue} (h : Elements text vs) :
    ∃ c after, skipWs (text ++ rest) = c :: after ∧ Opens c := by
  cases h with
  | one hv => exact value_opens hv
  | more hv =>
    rw [List.append_assoc, List.append_assoc]
    exact value_opens hv

/-- A name in its quotation marks. -/
theorem readChars_str {name : List UInt8} (h : Str name s) :
    ∃ body, name ++ rest = 0x22 :: body ∧ readChars (body.length + 1) body = some (s, rest) := by
  cases h with
  | @intro text s h =>
    refine ⟨text ++ 0x22 :: rest, by simp, readChars_append h ?_⟩
    simp only [List.length_append]
    omega

/-- The members of an object begin with a quotation mark. -/
theorem members_opens {ms : List (List UInt8 × JsonValue)} (h : Members text ms) :
    ∃ after, skipWs (text ++ rest) = 0x22 :: after := by
  cases h with
  | one hname => cases hname; exact ⟨_, skipWs_cons rfl⟩
  | more hname => cases hname; exact ⟨_, skipWs_cons rfl⟩

/-- Whitespace before the elements of an array does not matter. -/
theorem readElements_ws {before : List UInt8} {fuel : ℕ} (h : Ws before) :
    readElements fuel (before ++ text) = readElements fuel text := by
  cases fuel with
  | zero => rfl
  | succ fuel => simp only [readElements, readValue_ws h]

/-- Whitespace before the members of an object does not matter. -/
theorem readMembers_ws {before : List UInt8} {fuel : ℕ} (h : Ws before) :
    readMembers fuel (before ++ text) = readMembers fuel text := by
  cases fuel with
  | zero => rfl
  | succ fuel => simp only [readMembers, skipWs_append h]

/-- An empty array or object. -/
theorem readValue_empty {l r : List UInt8} {fuel : ℕ} {v : JsonValue}
    (hbracket : (b, c, v) = (0x5B, 0x5D, .array []) ∨ (b, c, v) = (0x7B, 0x7D, .object []))
    (hl : Structural b l) (hr : Structural c r) :
    readValue (fuel + 1) (l ++ r ++ rest) = some (v, skipWs rest) := by
  have hws : isWs b = false ∧ isWs c = false := by
    rcases hbracket with h | h <;> cases h <;> decide
  obtain ⟨ws, hws₁, hskip⟩ := skipWs_structural hl hws.1 (r ++ rest)
  obtain ⟨ws', hws₂, hskip'⟩ := skipWs_structural hr hws.2 rest
  have hrest : skipWs (ws' ++ rest) = skipWs rest := skipWs_append hws₂
  rw [← hrest]
  rcases hbracket with h | h
  all_goals
    cases h
    simp [readValue, hskip, skipWs_append hws₁, hskip']

mutual

/-- A value is read back, together with the whitespace behind it. -/
theorem readValue_append : ∀ {text : List UInt8} {v : JsonValue}, Value text v →
    ∀ {rest : List UInt8} {fuel : ℕ}, Stops rest → 2 * text.length < fuel →
      readValue fuel (text ++ rest) = some (v, skipWs rest)
  | _, _, .null, rest, fuel + 1, _, _ => by
    simp [readValue, skipWs_cons (b := 0x6E) rfl, readLiteral]
  | _, _, .true, rest, fuel + 1, _, _ => by
    simp [readValue, skipWs_cons (b := 0x74) rfl, readLiteral]
  | _, _, .false, rest, fuel + 1, _, _ => by
    simp [readValue, skipWs_cons (b := 0x66) rfl, readLiteral]
  | text, _, .number hnumber, rest, fuel + 1, hstops, _ => by
    have hread := readNumber_append hnumber hstops
    obtain ⟨d, tail, rfl, hd⟩ := number_head hnumber
    obtain ⟨hopens, hother⟩ := opens_number hd
    simp only [List.mem_cons, List.not_mem_nil, or_false, not_or] at hother
    obtain ⟨h22, h5B, h7B, h6E, h74, h66⟩ := hother
    rw [List.cons_append] at hread ⊢
    simp only [readValue, skipWs_cons hopens.1, h22, h5B, h7B, h6E, h74, h66, if_false, hread,
      Option.map_some]
  | text, _, .string hstr, rest, fuel + 1, _, _ => by
    obtain ⟨body, hbody, hread⟩ := @readChars_str rest _ _ hstr
    simp [readValue, hbody, skipWs_cons (b := 0x22) rfl, hread]
  | _, _, .emptyArray hl hr, rest, fuel + 1, _, _ => readValue_empty (Or.inl rfl) hl hr
  | _, _, .emptyObject hl hr, rest, fuel + 1, _, _ => readValue_empty (Or.inr rfl) hl hr
  | _, _, @Value.array l text r vs hl helements hr, rest, fuel + 1, _, hfuel => by
    obtain ⟨ws, hws, hskip⟩ := skipWs_structural hl rfl (text ++ (r ++ rest))
    obtain ⟨c, after, hopen, hc⟩ := @elements_opens text (r ++ rest) vs helements
    have hread := @readElements_append text vs helements r rest fuel hr (by
      obtain ⟨before, after, -, -, rfl⟩ := hl
      simp only [List.length_append, List.length_cons] at hfuel
      omega)
    rw [List.append_assoc] at hread
    simp [readValue, hskip, skipWs_append hws, hopen, hc.2.2.2.1, readElements_ws hws, hread]
  | _, _, @Value.object l text r ms hl hmembers hr, rest, fuel + 1, _, hfuel => by
    obtain ⟨ws, hws, hskip⟩ := skipWs_structural hl rfl (text ++ (r ++ rest))
    obtain ⟨after, hopen⟩ := @members_opens text (r ++ rest) ms hmembers
    have hread := @readMembers_append text ms hmembers r rest fuel hr (by
      obtain ⟨before, after, -, -, rfl⟩ := hl
      simp only [List.length_append, List.length_cons] at hfuel
      omega)
    rw [List.append_assoc] at hread
    simp [readValue, hskip, skipWs_append hws, hopen, readMembers_ws hws, hread]

/-- The elements of an array are read back, up to its closing bracket. -/
theorem readElements_append : ∀ {text : List UInt8} {vs : List JsonValue}, Elements text vs →
    ∀ {r rest : List UInt8} {fuel : ℕ}, Structural 0x5D r → 2 * text.length + 1 < fuel →
      readElements fuel (text ++ r ++ rest) = some (vs, skipWs rest)
  | text, _, .one hvalue, r, rest, fuel + 1, hr, hfuel => by
    obtain ⟨ws, hws, hskip⟩ := skipWs_structural hr rfl rest
    have hread := @readValue_append text _ hvalue (r ++ rest) fuel
      (stops_structural hr (by decide)) (by omega)
    rw [List.append_assoc]
    simp [readElements, hread, hskip, skipWs_append hws]
  | _, _, @Elements.more text v comma more vs hvalue hcomma helements, r, rest, fuel + 1, hr,
      hfuel => by
    obtain ⟨ws, hws, hskip⟩ := skipWs_structural hcomma rfl (more ++ (r ++ rest))
    simp only [List.length_append] at hfuel
    have hread := @readValue_append text v hvalue (comma ++ (more ++ (r ++ rest))) fuel
      (stops_structural hcomma (by decide)) (by omega)
    have hmore := @readElements_append more vs helements r rest fuel hr (by
      obtain ⟨before, after, -, -, rfl⟩ := hcomma
      simp only [List.length_append, List.length_cons] at hfuel
      omega)
    rw [List.append_assoc] at hmore
    simp [readElements, hread, hskip, readElements_ws hws, hmore]

/-- The members of an object are read back, up to its closing bracket. -/
theorem readMembers_append : ∀ {text : List UInt8} {ms : List (List UInt8 × JsonValue)},
    Members text ms → ∀ {r rest : List UInt8} {fuel : ℕ}, Structural 0x7D r →
      2 * text.length + 1 < fuel →
      readMembers fuel (text ++ r ++ rest) = some (ms, skipWs rest)
  | _, _, @Members.one name s colon text v hname hcolon hvalue, r, rest, fuel + 1, hr, hfuel => by
    obtain ⟨ws, hws, hskip⟩ := skipWs_structural hr rfl rest
    obtain ⟨ws', hws', hskip'⟩ := skipWs_structural hcolon rfl (text ++ (r ++ rest))
    simp only [List.length_append] at hfuel
    have hread := @readValue_append text v hvalue (r ++ rest) fuel
      (stops_structural hr (by decide)) (by omega)
    obtain ⟨body, hbody, hchars⟩ := @readChars_str (colon ++ (text ++ (r ++ rest))) _ _ hname
    simp [readMembers, hbody, skipWs_cons (b := 0x22) rfl, hchars, hskip', readValue_ws hws', hread,
      hskip, skipWs_append hws]
  | _, _, @Members.more name s colon text v comma more ms hname hcolon hvalue hcomma hmembers, r,
      rest, fuel + 1, hr, hfuel => by
    obtain ⟨ws, hws, hskip⟩ := skipWs_structural hcomma rfl (more ++ (r ++ rest))
    obtain ⟨ws', hws', hskip'⟩ := skipWs_structural hcolon rfl
      (text ++ (comma ++ (more ++ (r ++ rest))))
    simp only [List.length_append] at hfuel
    have hread := @readValue_append text v hvalue (comma ++ (more ++ (r ++ rest))) fuel
      (stops_structural hcomma (by decide)) (by omega)
    have hmore := @readMembers_append more ms hmembers r rest fuel hr (by
      obtain ⟨before, after, -, -, rfl⟩ := hcomma
      simp only [List.length_append, List.length_cons] at hfuel
      omega)
    rw [List.append_assoc] at hmore
    obtain ⟨body, hbody, hchars⟩ :=
      @readChars_str (colon ++ (text ++ (comma ++ (more ++ (r ++ rest))))) _ _ hname
    simp [readMembers, hbody, skipWs_cons (b := 0x22) rfl, hchars, hskip', readValue_ws hws', hread,
      hskip, readMembers_ws hws, hmore]

end

end JsonReader

open JsonReader in
/-- The reader returns what a text denotes. -/
theorem read_of_jsonText {text : List UInt8} {v : JsonValue} (h : JsonText text v) :
    JsonReader.read text = some v := by
  obtain ⟨-, before, value, after, hbefore, hvalue, hafter, rfl⟩ := h
  have hread := @readValue_append value v hvalue after
    (2 * (before ++ value ++ after).length + 1) (stops_ws hafter) (by
      simp only [List.length_append]
      omega)
  rw [skipWs_ws hafter] at hread
  rw [JsonReader.read, List.append_assoc, readValue_ws hbefore, ← List.append_assoc, hread]

/-- **A text denotes at most one value.** -/
theorem JsonText.unique {text : List UInt8} {v w : JsonValue} (hv : JsonText text v)
    (hw : JsonText text w) : v = w :=
  Option.some.inj ((read_of_jsonText hv).symm.trans (read_of_jsonText hw))

end Lib
