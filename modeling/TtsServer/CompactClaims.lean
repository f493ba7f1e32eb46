import TtsServer.HexCodec
import TtsServer.JwtVerifier

/-!
# Claims in compact tokens

A flat object has integers and strings as members, and no quotation mark or backslash in
its names and strings. Written as JSON without blanks, it has quotation marks only around
names and string values. So the quoted key with its colon, for which `find_value`
searches, occurs only where it is a name, and what is found behind it is the text of the
value. That text is the value itself unless it is a string with a control character, which
JSON can only write as an escape and which the search does not resolve.
-/

namespace TtsServer

namespace JwtVerifier

/-! ### Flat objects -/

/-- The backslash. -/
def backslash : UInt8 := 0x5C

/-- The character is neither a quotation mark nor a backslash. -/
def isPlain (b : UInt8) : Bool := b != quote && b != backslash

/-- The character is a control character, which JSON writes as an escape. -/
def isControl (b : UInt8) : Bool := decide (b.toNat < 0x20)

/-- The character is an ASCII letter. -/
def isLetter (b : UInt8) : Bool :=
  decide (0x41 ≤ b.toNat ∧ b.toNat ≤ 0x5A) || decide (0x61 ≤ b.toNat ∧ b.toNat ≤ 0x7A)

/-- A value of a flat object. -/
inductive FlatValue where
  | int (n : Int)
  | str (s : Bytes)
  deriving DecidableEq, Repr

/-- A string value is plain if its characters are. -/
def FlatValue.isPlain : FlatValue → Bool
  | .int _ => true
  | .str s => s.all JwtVerifier.isPlain

/-- A flat object: its names are distinct, and names and strings are plain. -/
structure FlatObject where
  members : List (Bytes × FlatValue)
  distinct : (members.map Prod.fst).Nodup
  plain : members.all fun m => m.1.all isPlain && m.2.isPlain

/-- The member with a name. -/
def FlatObject.value? (o : FlatObject) (key : Bytes) : Option FlatValue := o.members.lookup key

/-! ### Compact texts -/

/-- How JSON writes a character inside a string. -/
def escape (b : UInt8) : Bytes :=
  if b = quote ∨ b = backslash then [backslash, b]
  else if isControl b then
    match b.toNat with
    | 0x08 => [backslash, 0x62]
    | 0x09 => [backslash, 0x74]
    | 0x0A => [backslash, 0x6E]
    | 0x0C => [backslash, 0x66]
    | 0x0D => [backslash, 0x72]
    | n => [backslash, 0x75, 0x30, 0x30, hexDigit (n / 16), hexDigit (n % 16)]
  else [b]

/-- A string between its quotation marks. -/
def compactString (s : Bytes) : Bytes := quote :: s.flatMap escape ++ [quote]

/-- The decimal text of an integer. -/
def intText (n : Int) : Bytes := (if n < 0 then [0x2D] else []) ++ Lib.decimalText n.natAbs

/-- The text of a value. -/
def compactValue : FlatValue → Bytes
  | .int n => intText n
  | .str s => compactString s

/-- The text of a member. -/
def compactMember (m : Bytes × FlatValue) : Bytes := compactString m.1 ++ 0x3A :: compactValue m.2

/-- The compact JSON text of a flat object. -/
def FlatObject.compact (o : FlatObject) : Bytes :=
  0x7B :: [0x2C].intercalate (o.members.map compactMember) ++ [0x7D]

variable {key s body text rest : Bytes} {b sep : UInt8} {n : Int} {v : FlatValue}
  {m : Bytes × FlatValue} {ms : List (Bytes × FlatValue)} {o : FlatObject}

/-! ### Escapes -/

/-- A plain character is written without quotation marks, as itself if it is no control
character, and with a backslash if it is one. -/
theorem escape_spec (hb : isPlain b = true) :
    quote ∉ escape b ∧ (isControl b = false → escape b = [b]) ∧
      (isControl b = true → backslash ∈ escape b) := by
  simp only [isPlain, Bool.and_eq_true, bne_iff_ne] at hb
  by_cases hcontrol : isControl b = true
  · refine ⟨?_, fun h => absurd hcontrol (by simp [h]), fun _ => ?_⟩
    all_goals
      have hcode : b = UInt8.ofNat b.toNat := UInt8.ofNat_toNat.symm
      have hlt : b.toNat < 0x20 := of_decide_eq_true hcontrol
      rw [hcode]
      generalize b.toNat = k at hlt
      interval_cases k <;> decide
  · have hself : escape b = [b] := by simp [escape, hb.1, hb.2, hcontrol]
    rw [hself]
    refine ⟨?_, fun _ => rfl, fun h => absurd h hcontrol⟩
    simpa using Ne.symm hb.1

/-- A plain string is written without quotation marks. -/
theorem quote_notMem_escaped (hs : s.all isPlain = true) : quote ∉ s.flatMap escape := by
  intro hmem
  obtain ⟨b, hb, hquote⟩ := List.mem_flatMap.mp hmem
  exact (escape_spec (List.all_eq_true.mp hs b hb)).1 hquote

/-- A plain string without control characters is written as itself, and any other differs from
every text without backslashes. -/
theorem escaped_eq_iff (hs : s.all isPlain = true) (htext : backslash ∉ text) :
    s.flatMap escape = text ↔ s = text ∧ s.any isControl = false := by
  by_cases hcontrol : s.any isControl = true
  · obtain ⟨b, hb, hbc⟩ := List.any_eq_true.mp hcontrol
    have hmem : backslash ∈ s.flatMap escape :=
      List.mem_flatMap.mpr ⟨b, hb, (escape_spec (List.all_eq_true.mp hs b hb)).2.2 hbc⟩
    simp only [hcontrol, Bool.true_eq_false, and_false, iff_false]
    intro heq
    exact htext (heq ▸ hmem)
  · have hself : s.flatMap escape = s := by
      have hsingle : ∀ b ∈ s, escape b = [b] := fun b hb => by
        refine (escape_spec (List.all_eq_true.mp hs b hb)).2.1 (Bool.eq_false_iff.mpr fun hbc => ?_)
        exact hcontrol (List.any_eq_true.mpr ⟨b, hb, hbc⟩)
      rw [List.flatMap_congr hsingle]
      simp
    rw [hself]
    simp [Bool.eq_false_iff.mpr hcontrol]

/-! ### Integers -/

/-- The text of an integer holds a sign and digits only. -/
theorem mem_intText (hb : b ∈ intText n) : b = 0x2D ∨ Lib.isDigit b = true := by
  obtain hsign | hdigit := List.mem_append.mp hb
  · split at hsign
    · exact Or.inl (List.mem_singleton.mp hsign)
    · cases hsign
  · exact Or.inr (List.all_eq_true.mp Lib.isDigit_decimalText b hdigit)

/-- So it holds neither quotation marks nor delimiters. -/
theorem intText_notMem (hb : b ∈ intText n) : b ≠ quote ∧ isDelimiter b = false := by
  obtain rfl | hdigit := mem_intText hb
  · decide
  · simp only [Lib.isDigit, decide_eq_true_eq] at hdigit
    refine ⟨?_, ?_⟩
    · rintro rfl
      exact absurd hdigit (by decide)
    · simp only [isDelimiter, Bool.or_eq_false_iff, beq_eq_false_iff_ne]
      refine ⟨?_, ?_⟩
      · rintro rfl
        exact absurd hdigit (by decide)
      · rintro rfl
        exact absurd hdigit (by decide)

/-- The text of an integer holds no quote. -/
theorem quote_notMem_intText (n : Int) : quote ∉ intText n :=
  fun hmem => (intText_notMem hmem).1 rfl

/-- `stoll` reads the text of an integer of its range back. -/
theorem leadsWith_intText (hn : InLongLong n) : LeadsWith (intText n) n := by
  have hdigits : ∀ b ∈ Lib.decimalText n.natAbs, Lib.isDigit b = true :=
    List.all_eq_true.mp Lib.isDigit_decimalText
  have hleads {sign : Bytes} {t : Int} (hsign : SignText sign t) (hval : t * n.natAbs = n) :
      LeadsWith (sign ++ Lib.decimalText n.natAbs) n := by
    have hrange : InLongLong (t * Lib.decimal (Lib.decimalText n.natAbs)) := by
      rwa [Lib.decimal_decimalText, hval]
    have hleads := @LeadsWith.intro [] sign (Lib.decimalText n.natAbs) [] t (by simp) hsign
      Lib.decimalText_head.1 hdigits (by simp) hrange
    rw [Lib.decimal_decimalText, hval] at hleads
    simpa using hleads
  unfold intText
  split
  · exact hleads .minus (by omega)
  · exact hleads .none (by omega)

/-! ### The search -/

/-- A key for which the claims are looked up: letters, at least one. -/
structure IsKey (key : Bytes) : Prop where
  ne_nil : key ≠ []
  letters : key.all isLetter = true

/-- A letter is none of the characters that JSON gives a meaning to. -/
theorem not_isLetter_iff {b : UInt8} (hb : isLetter b = true) :
    b ≠ quote ∧ b ≠ backslash ∧ b ≠ 0x2C ∧ b ≠ 0x3A ∧ b ≠ 0x7D ∧ isControl b = false := by
  refine ⟨?_, ?_, ?_, ?_, ?_, ?_⟩
  iterate 5
    rintro rfl
    exact absurd hb (by decide)
  simp only [isLetter, Bool.or_eq_true, decide_eq_true_eq] at hb
  exact decide_eq_false (by omega)

section Key

variable (hkey : IsKey key)
include hkey

/-- A key holds no quote, no backslash and no control byte. -/
theorem IsKey.notMem : quote ∉ key ∧ backslash ∉ key ∧ key.any isControl = false := by
  refine ⟨fun hmem => ?_, fun hmem => ?_, ?_⟩
  · exact (not_isLetter_iff (List.all_eq_true.mp hkey.letters _ hmem)).1 rfl
  · exact (not_isLetter_iff (List.all_eq_true.mp hkey.letters _ hmem)).2.1 rfl
  · rw [List.any_eq_false]
    intro b hb
    simp [(not_isLetter_iff (List.all_eq_true.mp hkey.letters b hb)).2.2.2.2.2]

/-- A key is written as itself. -/
theorem IsKey.escaped : key.flatMap escape = key := by
  obtain ⟨hquote, hbackslash, hcontrol⟩ := hkey.notMem
  have hplain : key.all isPlain = true := by
    rw [List.all_eq_true]
    intro b hb
    obtain ⟨hbq, hbb, -⟩ := not_isLetter_iff (List.all_eq_true.mp hkey.letters b hb)
    simp [isPlain, hbq, hbb]
  exact (escaped_eq_iff hplain hbackslash).mpr ⟨rfl, hcontrol⟩

/-- A string is skipped if it is not the key, or if no colon follows it, and if what follows
begins with no letter. -/
theorem IsKey.skips_string (hbody : quote ∉ body) (hother : ¬ (key = body ∧ [0x3A] <+: text))
    (htext : ∀ b ∈ text.head?, isLetter b = false) :
    Lib.Skips (quotedKey key) (quote :: body ++ [quote]) text := by
  have hpat : quotedKey key = quote :: (key ++ quote :: [0x3A]) := rfl
  rw [hpat, List.cons_append]
  refine ⟨?_, Lib.skips_append.mpr ⟨Lib.skips_of_notMem hbody, ?_, trivial⟩⟩
  · rw [List.cons_prefix_cons, List.append_assoc, List.singleton_append,
      Lib.append_cons_prefix_iff hkey.notMem.1 hbody]
    exact fun h => hother h.2
  · obtain ⟨c, key', rfl⟩ := List.exists_cons_of_ne_nil hkey.ne_nil
    intro hprefix
    obtain ⟨after, hafter⟩ := (List.cons_prefix_cons.mp hprefix).2
    have hhead : text.head? = some c := by
      have := congrArg List.head? hafter
      simpa using this.symm
    have hletter := List.all_eq_true.mp hkey.letters c List.mem_cons_self
    rw [htext c hhead] at hletter
    cases hletter

/-- A member with another name is skipped, together with the separator behind it. -/
theorem IsKey.skips_member (hname : m.1.all isPlain = true) (hvalue : m.2.isPlain = true)
    (hother : m.1 ≠ key) (hsep : sep = 0x2C ∨ sep = 0x7D) :
    Lib.Skips (quotedKey key) (compactMember m ++ [sep]) text := by
  have hsepLetter : isLetter sep = false ∧ sep ≠ 0x3A ∧ sep ≠ quote := by
    rcases hsep with rfl | rfl <;> decide
  have hpat : quotedKey key = quote :: (key ++ [quote, 0x3A]) := rfl
  rw [compactMember, List.append_assoc, Lib.skips_append]
  constructor
  · refine hkey.skips_string (quote_notMem_escaped hname) (fun h => hother ?_) ?_
    · exact ((escaped_eq_iff hname hkey.notMem.2.1).mp h.1.symm).1
    · intro b hb
      obtain rfl : 0x3A = b := by simpa using hb
      decide
  · rw [List.cons_append, ← List.singleton_append, Lib.skips_append]
    refine ⟨?_, Lib.skips_append.mpr ⟨?_, ?_⟩⟩
    · rw [hpat]
      exact Lib.skips_of_notMem (by decide)
    · cases hv : m.2 with
      | int n =>
        rw [hpat]
        exact Lib.skips_of_notMem (quote_notMem_intText n)
      | str s =>
        rw [hv] at hvalue
        refine hkey.skips_string (quote_notMem_escaped hvalue) (fun h => ?_) ?_
        · exact hsepLetter.2.1 (by simpa [eq_comm] using h.2)
        · intro b hb
          obtain rfl : sep = b := by simpa using hb
          exact hsepLetter.1
    · rw [hpat]
      exact Lib.skips_of_notMem (by simpa using hsepLetter.2.2.symm)

omit hkey in
/-- The search goes on behind what is skipped. -/
theorem findValue_append {skipped : Bytes} (h : Lib.Skips (quotedKey key) skipped text) :
    findValue (skipped ++ text) key = findValue text key := by
  rw [findValue, findValue, Lib.find_append_of_skips h]
  cases Lib.find (quotedKey key) text with
  | none => rfl
  | some p =>
    simp only [Option.map_some]
    rw [Nat.add_assoc, ← List.drop_drop, List.drop_left]

omit hkey in
/-- The search stops at the key. -/
theorem findValue_quotedKey : findValue (quotedKey key ++ text) key = valueText text := by
  have hfind : Lib.find (quotedKey key) (quotedKey key ++ text) = some 0 :=
    Lib.find_eq_some_iff.mpr ⟨by simp, fun j hj => absurd hj (Nat.not_lt_zero j)⟩
  rw [findValue, hfind]
  simp

/-! ### Lookup in a compact text -/

/-- The text between the quotation marks of a string, or of an integer. -/
def FlatValue.written : FlatValue → Bytes
  | .int n => intText n
  | .str s => s.flatMap escape

/-- What a lookup is meant to yield: the decimal text of an integer or the content of a string. -/
def FlatValue.content : FlatValue → Bytes
  | .int n => intText n
  | .str s => s

omit hkey in
/-- The text of a value is taken up to the separator behind it. -/
theorem valueText_compactValue (hvalue : v.isPlain = true) (hsep : sep = 0x2C ∨ sep = 0x7D) :
    valueText (compactValue v ++ sep :: rest) = v.written := by
  cases v with
  | int n =>
    have hdelimiter : isDelimiter sep = true ∧ sep ≠ quote := by
      rcases hsep with rfl | rfl <;> decide
    refine (valueText_bare_iff ?_).mpr ⟨sep :: rest, rfl, fun b hb => ?_, fun b hb => ?_⟩
    · intro hhead
      change (intText n ++ sep :: rest).head? = some quote at hhead
      cases htext : intText n with
      | nil =>
        rw [htext] at hhead
        exact hdelimiter.2 (by simpa using hhead)
      | cons b text =>
        rw [htext] at hhead
        obtain rfl : b = quote := by simpa using hhead
        exact quote_notMem_intText n (htext ▸ List.mem_cons_self)
    · simp [(intText_notMem hb).2]
    · obtain rfl : sep = b := by simpa using hb
      exact hdelimiter.1
  | str s =>
    have hspan : ∃ i, (s.flatMap escape ++ quote :: sep :: rest).findIdx? (· == quote) = some i ∧
        (s.flatMap escape ++ quote :: sep :: rest).take i = s.flatMap escape := by
      refine Lib.findIdx?_take_iff.mpr ⟨quote, sep :: rest, rfl, by simp, fun b hb heq => ?_⟩
      exact quote_notMem_escaped hvalue (beq_iff_eq.mp heq ▸ hb)
    obtain ⟨i, hi, htake⟩ := hspan
    have htext : compactValue (.str s) ++ sep :: rest =
        quote :: (s.flatMap escape ++ quote :: sep :: rest) := by
      simp [compactValue, compactString]
    rw [htext, valueText, if_pos rfl, hi]
    exact htake

/-- The members and the brace behind them, read from the first member on. -/
theorem IsKey.findValue_members
    (hplain : ms.all (fun m => m.1.all isPlain && m.2.isPlain) = true) :
    findValue ([0x2C].intercalate (ms.map compactMember) ++ [0x7D]) key =
      ((ms.lookup key).map FlatValue.written).getD [] := by
  induction ms with
  | nil =>
    have hskips : Lib.Skips (quotedKey key) [0x7D] [] := Lib.skips_of_notMem (by decide)
    have hnil : [0x2C].intercalate (List.map compactMember []) ++ [0x7D] = [0x7D] ++ [] := rfl
    rw [hnil, findValue_append hskips]
    rfl
  | cons m ms ih =>
    rw [List.all_cons, Bool.and_eq_true, Bool.and_eq_true] at hplain
    obtain ⟨⟨hname, hvalue⟩, hrest⟩ := hplain
    -- Behind the member stands a separator, and then the other members or nothing.
    obtain ⟨sep, rest, hsep, htext, hfind⟩ : ∃ sep rest, (sep = 0x2C ∨ sep = 0x7D) ∧
        [0x2C].intercalate ((m :: ms).map compactMember) ++ [0x7D] =
          compactMember m ++ sep :: rest ∧
        findValue rest key = ((ms.lookup key).map FlatValue.written).getD [] := by
      cases ms with
      | nil =>
        refine ⟨0x7D, [], Or.inr rfl, by simp [List.intercalate], ?_⟩
        rfl
      | cons m' ms =>
        refine ⟨0x2C, _, Or.inl rfl, ?_, ih hrest⟩
        rw [List.map_cons, List.map_cons, List.intercalate_cons_cons]
        simp
    rw [htext]
    by_cases hother : m.1 = key
    · have hmember : compactMember m ++ sep :: rest =
          quotedKey key ++ (compactValue m.2 ++ sep :: rest) := by
        rw [compactMember, compactString, hother, hkey.escaped, quotedKey]
        simp
      have hlookup : (m :: ms).lookup key = some m.2 := by
        rw [List.lookup_cons, hother, beq_self_eq_true]
      rw [hmember, findValue_quotedKey, valueText_compactValue hvalue hsep, hlookup]
      rfl
    · have hskips : Lib.Skips (quotedKey key) (compactMember m ++ [sep]) rest :=
        hkey.skips_member hname hvalue hother hsep
      have hlookup : (m :: ms).lookup key = ms.lookup key := by
        have hne : (key == m.1) = false := beq_eq_false_iff_ne.mpr (Ne.symm hother)
        rw [List.lookup_cons, hne]
      have happend : compactMember m ++ sep :: rest = (compactMember m ++ [sep]) ++ rest := by simp
      rw [happend, findValue_append hskips, hfind, hlookup]

/-- The search finds the text of the member with the key, and nothing if there is none. -/
theorem IsKey.findValue_compact :
    findValue o.compact key = ((o.value? key).map FlatValue.written).getD [] := by
  have hskips : Lib.Skips (quotedKey key) [0x7B]
      ([0x2C].intercalate (o.members.map compactMember) ++ [0x7D]) :=
    Lib.skips_of_notMem (by decide)
  have htext : o.compact =
      [0x7B] ++ ([0x2C].intercalate (o.members.map compactMember) ++ [0x7D]) := rfl
  rw [htext, findValue_append hskips, hkey.findValue_members o.plain]
  rfl

omit hkey in
/-- The member that is looked up is plain. -/
theorem FlatObject.isPlain_of_value? (hv : o.value? key = some v) : v.isPlain = true := by
  obtain ⟨before, after, hmembers, -⟩ := List.lookup_eq_some_iff.mp hv
  have hall := List.all_eq_true.mp o.plain (key, v) (by simp [hmembers])
  rw [Bool.and_eq_true] at hall
  exact hall.2

omit hkey in
/-- The text of a plain value is its content unless it is a string with a control character. -/
theorem FlatValue.written_eq_iff {text : Bytes} (hvalue : v.isPlain = true)
    (htext : ∀ s, v = .str s → backslash ∉ text) :
    v.written = text ↔ v.content = text ∧ ∀ s, v = .str s → s.any isControl = false := by
  cases v with
  | int n => simp [FlatValue.written, FlatValue.content]
  | str s =>
    rw [FlatValue.written, escaped_eq_iff hvalue (htext s rfl), FlatValue.content]
    simp

/-- The string under a key, if it is one, has no control characters. -/
def FlatObject.Uncontrolled (o : FlatObject) (key : Bytes) : Prop :=
  ∀ s, o.value? key = some (.str s) → s.any isControl = false

/-- A lookup yields the content of the member, or nothing if there is none, exactly if the
member is no string with a control character. -/
theorem IsKey.findValue_eq_content_iff :
    findValue o.compact key = ((o.value? key).map FlatValue.content).getD [] ↔
      o.Uncontrolled key := by
  rw [hkey.findValue_compact, FlatObject.Uncontrolled]
  cases hv : o.value? key with
  | none => simp
  | some v =>
    have hplain := o.isPlain_of_value? hv
    have hbackslash : ∀ s, v = .str s → backslash ∉ v.content := by
      rintro s rfl hmem
      have hb := List.all_eq_true.mp hplain backslash hmem
      exact absurd hb (by decide)
    simp only [Option.map_some, Option.getD_some, Option.some.injEq]
    rw [FlatValue.written_eq_iff hplain hbackslash, and_iff_right rfl]

end Key

/-! ### Compact texts are JSON -/

open Lib.JsonGrammar in
/-- JSON reads an escape back. -/
theorem chars_escape {t : Bytes} (h : Chars text t) : Chars (escape b ++ text) (b :: t) := by
  unfold escape
  split
  · rename_i hb
    refine .short ?_ h
    rcases hb with rfl | rfl <;> decide
  · rename_i hb
    split
    · rename_i hcontrol
      have hcode : b = UInt8.ofNat b.toNat := UInt8.ofNat_toNat.symm
      have hlt : b.toNat < 0x20 := of_decide_eq_true hcontrol
      rw [hcode]
      generalize b.toNat = k at hlt
      -- Five control characters have a short escape, the others one of six characters.
      have hunit (hi lo : UInt8) (x y : ℕ) (hhi : Lib.JsonGrammar.hexDigit hi = some x)
          (hlo : Lib.JsonGrammar.hexDigit lo = some y) (hlow : 16 * x + y < 0x20)
          (hutf8 : utf8 (16 * x + y) = [UInt8.ofNat k]) :
          Chars ([backslash, 0x75, 0x30, 0x30, hi, lo] ++ text) (UInt8.ofNat k :: t) := by
        have hcodeUnit : CodeUnit [0x5C, 0x75, 0x30, 0x30, hi, lo] (16 * x + y) := by
          simpa using @CodeUnit.intro 0x30 0x30 hi lo 0 0 x y (by decide) (by decide) hhi hlo
        have hchars := Chars.unit hcodeUnit (fun hsurrogate => ?_) h
        · rwa [hutf8] at hchars
        · have := hsurrogate.1
          omega
      interval_cases k
      all_goals first
        | exact .short (by decide) h
        | exact hunit _ _ _ _ rfl rfl (by decide) (by decide)
    · rename_i hcontrol
      refine .unescaped ?_ h
      simp only [isControl, decide_eq_true_eq, not_lt] at hcontrol
      rw [not_or] at hb
      simp only [isUnescaped, Bool.and_eq_true, decide_eq_true_eq, bne_iff_ne]
      exact ⟨⟨hcontrol, hb.1⟩, hb.2⟩

open Lib.JsonGrammar in
/-- The text of a string is read back as that string. -/
theorem str_compactString (s : Bytes) : Str (compactString s) s := by
  refine .intro ?_
  induction s with
  | nil => exact .nil
  | cons b s ih =>
    rw [List.flatMap_cons]
    exact chars_escape ih

/-- What a value denotes. -/
def FlatValue.json : FlatValue → Lib.JsonValue
  | .int n => .number n
  | .str s => .string s

open Lib.JsonGrammar in
/-- The text of a value denotes it. -/
theorem value_compactValue (v : FlatValue) : Value (compactValue v) v.json := by
  cases v with
  | str s => exact .string (str_compactString s)
  | int n =>
    have hintegral : Integral (Lib.decimalText n.natAbs) :=
      ⟨⟨Lib.decimalText_head.1, Lib.isDigit_decimalText⟩, Lib.decimalText_head.2⟩
    have hnumber {sign : Bytes} {t : ℤ} (hsign : Sign sign t) (hval : t * n.natAbs = n) :
        Number (sign ++ Lib.decimalText n.natAbs) n := by
      have hnumber := Number.intro hsign hintegral .none .none
      simp only [List.append_nil, Lib.decimal_decimalText, List.length_nil] at hnumber
      have hcast : (t : ℚ) * (n.natAbs : ℕ) * 10 ^ ((0 : ℤ) - (0 : ℕ)) = n := by
        rw [Nat.cast_zero, sub_zero, zpow_zero, mul_one, ← Int.cast_natCast n.natAbs,
          ← Int.cast_mul, hval]
      rwa [hcast] at hnumber
    refine .number ?_
    change Number (intText n) n
    unfold intText
    split
    · exact hnumber .minus (by omega)
    · exact hnumber .none (by omega)

open Lib.JsonGrammar in
/-- The compact text of an object is a JSON object with its members. -/
theorem FlatObject.value_compact (o : FlatObject) :
    Value o.compact (.object (o.members.map fun m => (m.1, m.2.json))) := by
  have hmembers (m : Bytes × FlatValue) (ms : List (Bytes × FlatValue)) :
      Members ([0x2C].intercalate ((m :: ms).map compactMember))
        ((m :: ms).map fun m => (m.1, m.2.json)) := by
    induction ms generalizing m with
    | nil =>
      have hone := Members.one (str_compactString m.1) (structural_self 0x3A)
        (value_compactValue m.2)
      simpa [List.intercalate, compactMember] using hone
    | cons m' ms ih =>
      have hmore := Members.more (str_compactString m.1) (structural_self 0x3A)
        (value_compactValue m.2) (structural_self 0x2C) (ih m')
      rw [List.map_cons, List.map_cons, List.intercalate_cons_cons]
      simpa [compactMember] using hmore
  unfold compact
  cases o.members with
  | nil => exact .emptyObject (structural_self 0x7B) (structural_self 0x7D)
  | cons m ms => exact .object (structural_self 0x7B) (hmembers m ms) (structural_self 0x7D)

/-! ### Verification of compact tokens -/

/-- The token has compact texts of flat objects as header and payload, the header names the
algorithm, and the signature passes its check. -/
structure CompactToken (bioRead : Bytes → Option Bytes) (rsa : Bytes → Bytes → Bool)
    (token : Bytes) (header payload : FlatObject) : Prop where
  decodes : ∃ h p s signature, HasParts token h p s ∧
    base64urlDecode bioRead h = some header.compact ∧
    base64urlDecode bioRead p = some payload.compact ∧
    base64urlDecode bioRead s = some signature ∧ rsa (h ++ [dot] ++ p) signature = true
  alg : header.value? (ascii "alg") = some (.str (ascii "RS256"))

/-- The text of a member is part of the text of the object. -/
theorem FlatObject.compactMember_infix (hv : o.value? key = some v) :
    compactMember (key, v) <:+: o.compact := by
  obtain ⟨before, after, hmembers, -⟩ := List.lookup_eq_some_iff.mp hv
  have hmem : compactMember (key, v) ∈ o.members.map compactMember :=
    List.mem_map.mpr ⟨(key, v), by simp [hmembers], rfl⟩
  obtain ⟨left, right, htext⟩ := @Lib.infix_intercalate _ [0x2C] _ _ hmem
  refine ⟨0x7B :: left, right ++ [0x7D], ?_⟩
  rw [compact, ← htext]
  simp

variable {bioRead : Bytes → Option Bytes} {rsa : Bytes → Bytes → Bool} {token issuer : Bytes}
  {header payload : FlatObject} {exp now : Int}

/-- On such a token only the claims are left to look at. -/
theorem CompactToken.verify_eq (h : CompactToken bioRead rsa token header payload) :
    verify bioRead rsa now token issuer = checkClaims now payload.compact issuer := by
  obtain ⟨⟨hd, pl, sg, signature, hparts, hheader, hpayload, hsignature, hrsa⟩, halg⟩ := h
  have hnamed : algText <:+: header.compact := by
    have hmember : compactMember (ascii "alg", .str (ascii "RS256")) = algText := by decide
    exact hmember ▸ FlatObject.compactMember_infix halg
  rw [JwtVerifier.verify_eq rsa hparts hheader hpayload hsignature, hrsa, if_neg (by simp),
    if_neg (isNone_find_algText.not.mpr (not_not.mpr hnamed))]

/-- The name `exp` is a key. -/
theorem isKey_exp : IsKey (ascii "exp") := ⟨by decide, by decide⟩

/-- The name `iss` is a key. -/
theorem isKey_iss : IsKey (ascii "iss") := ⟨by decide, by decide⟩

/-- The expiry time is read as it is meant. -/
theorem readsExpiry_iff (hexp : payload.value? (ascii "exp") = some (.int exp))
    (hrange : InLongLong exp) {n : Int} : ReadsExpiry payload.compact n ↔ n = exp := by
  have hleads := leadsWith_intText hrange
  have hfind : findValue payload.compact (ascii "exp") = intText exp := by
    rw [isKey_exp.findValue_compact, hexp]
    rfl
  have hreads : ReadsExpiry payload.compact exp :=
    ⟨_, (findValue_eq_iff hleads.ne_nil).mp hfind, hleads⟩
  exact ⟨hreads.spec.2 n, fun heq => heq ▸ hreads⟩

/-- The issuer is read as it is written. -/
theorem reads_issuer_iff (hiss : ∀ v, payload.value? (ascii "iss") = some v → ∃ s, v = .str s)
    (hissuer : issuer ≠ []) :
    Reads payload.compact (ascii "iss") issuer ↔
      ∃ s, payload.value? (ascii "iss") = some (.str s) ∧ s.flatMap escape = issuer := by
  rw [← findValue_eq_iff hissuer, isKey_iss.findValue_compact]
  cases hv : payload.value? (ascii "iss") with
  | none => simpa using Ne.symm hissuer
  | some v =>
    obtain ⟨s, rfl⟩ := hiss v hv
    simp [FlatValue.written]

/-- A compact token passes when its expiry time lies ahead and the issuer is what it writes. -/
theorem CompactToken.verify_eq_ok_iff (h : CompactToken bioRead rsa token header payload)
    (hexp : payload.value? (ascii "exp") = some (.int exp)) (hrange : InLongLong exp)
    (hiss : ∀ v, payload.value? (ascii "iss") = some v → ∃ s, v = .str s)
    (hissuer : issuer ≠ []) :
    verify bioRead rsa now token issuer = .ok ↔
      now < exp ∧
        ∃ s, payload.value? (ascii "iss") = some (.str s) ∧ s.flatMap escape = issuer := by
  rw [h.verify_eq, checkClaims_eq_ok_iff hissuer, reads_issuer_iff hiss hissuer]
  simp only [readsExpiry_iff hexp hrange, forall_eq]

/-- The string under a key is written as itself exactly if it has no control characters. -/
theorem FlatObject.escaped_eq_self_iff (hv : o.value? key = some (.str s)) :
    s.flatMap escape = s ↔ s.any isControl = false := by
  have hplain : s.all isPlain = true := o.isPlain_of_value? hv
  have hbackslash : backslash ∉ s := fun hmem =>
    absurd (List.all_eq_true.mp hplain backslash hmem) (by decide)
  rw [escaped_eq_iff hplain hbackslash, and_iff_right rfl]

/-- Lookup in compact texts, and with it the verification of compact tokens, follows the members
exactly if the string that is looked up has no control characters, however base64 is read; a
token that has expired at every time is always refused. -/
theorem compact_claims_iff (bioRead : Bytes → Option Bytes) (rsa : Bytes → Bytes → Bool)
    (payload : FlatObject) :
    (∀ key : Bytes, key ≠ [] → key.all isLetter = true →
      (findValue payload.compact key = ((payload.value? key).map FlatValue.content).getD [] ↔
        payload.Uncontrolled key)) ∧
    ∀ (token : Bytes) (header : FlatObject) (exp : Int),
      CompactToken bioRead rsa token header payload →
      payload.value? (ascii "exp") = some (.int exp) → InLongLong exp →
      (∀ v, payload.value? (ascii "iss") = some v → ∃ s, v = .str s) →
      ((∀ issuer now, issuer ≠ [] → InLongLong now →
          (verify bioRead rsa now token issuer = .ok ↔
            payload.value? (ascii "iss") = some (.str issuer) ∧ now < exp)) ↔
        exp = -2 ^ 63 ∨ payload.Uncontrolled (ascii "iss")) := by
  refine ⟨fun key hne hletters => IsKey.findValue_eq_content_iff ⟨hne, hletters⟩, ?_⟩
  intro token header exp htoken hexp hrange hiss
  constructor
  · intro hverify
    by_contra hnot
    simp only [not_or, FlatObject.Uncontrolled, not_forall] at hnot
    obtain ⟨hmin, s, hs, hcontrol⟩ := hnot
    have hne : s ≠ [] := by
      rintro rfl
      exact hcontrol rfl
    -- One second before the token expires, it is refused for its own issuer.
    have hnow : InLongLong (exp - 1) := by
      obtain ⟨hlow, hhigh⟩ := hrange
      exact ⟨by omega, by omega⟩
    have hok := (hverify s (exp - 1) hne hnow).mpr ⟨hs, by omega⟩
    obtain ⟨-, s', hs', heq⟩ := (htoken.verify_eq_ok_iff hexp hrange hiss hne).mp hok
    obtain rfl : s = s' := by simpa [hs] using hs'
    exact hcontrol ((FlatObject.escaped_eq_self_iff hs).mp heq)
  · intro hcond issuer now hissuer hnow
    rw [htoken.verify_eq_ok_iff hexp hrange hiss hissuer, and_comm]
    refine and_congr_left fun hlt => ?_
    have huncontrolled : payload.Uncontrolled (ascii "iss") := by
      refine hcond.resolve_left fun hmin => ?_
      have hlow := hnow.1
      omega
    constructor
    · rintro ⟨s, hs, rfl⟩
      rwa [(FlatObject.escaped_eq_self_iff hs).mpr (huncontrolled s hs)]
    · intro hs
      exact ⟨issuer, hs, (FlatObject.escaped_eq_self_iff hs).mpr (huncontrolled issuer hs)⟩

/-! ### Two tokens -/

/-- The members `iss` and `exp`. -/
def issuedMembers (iss : Bytes) : List (Bytes × FlatValue) :=
  [(ascii "iss", .str iss), (ascii "exp", .int 5)]

/-- The members of the payload have different names. -/
theorem issuedMembers_distinct (iss : Bytes) : ((issuedMembers iss).map Prod.fst).Nodup := by
  simp only [issuedMembers, List.map_cons, List.map_nil]
  decide

/-- They are plain if the issuer is. -/
theorem issuedMembers_plain {iss : Bytes} (hiss : iss.all isPlain = true) :
    (issuedMembers iss).all fun m => m.1.all isPlain && m.2.isPlain := by
  have hnames : (ascii "iss").all isPlain = true ∧ (ascii "exp").all isPlain = true := by decide
  simp [issuedMembers, FlatValue.isPlain, hiss, hnames]

/-- A payload with that issuer which expires five seconds into the epoch. -/
def issuedPayload (iss : Bytes) (hiss : iss.all isPlain = true) : FlatObject :=
  ⟨issuedMembers iss, issuedMembers_distinct iss, issuedMembers_plain hiss⟩

/-- The header has one member. -/
theorem algMember_distinct :
    ([(ascii "alg", FlatValue.str (ascii "RS256"))].map Prod.fst).Nodup := by
  simp

/-- It is plain. -/
theorem algMember_plain :
    [(ascii "alg", FlatValue.str (ascii "RS256"))].all fun m => m.1.all isPlain && m.2.isPlain := by
  decide

/-- A header with nothing but the algorithm. -/
def algHeader : FlatObject :=
  ⟨[(ascii "alg", .str (ascii "RS256"))], algMember_distinct, algMember_plain⟩

/-- An issuer of two letters. -/
def plainIssuer : Bytes := ascii "me"

/-- An issuer that ends with a line feed. -/
def brokenIssuer : Bytes := [0x61, 0x0A]

/-- This issuer is plain. -/
theorem plainIssuer_isPlain : plainIssuer.all isPlain = true := by decide

/-- So is the one with a line break. -/
theorem brokenIssuer_isPlain : brokenIssuer.all isPlain = true := by decide

/-- The tokens with the two payloads. -/
def plainToken : Bytes := ascii "eyJhbGciOiJSUzI1NiJ9.eyJpc3MiOiJtZSIsImV4cCI6NX0.c2ln"

/-- The token that names it. -/
def brokenToken : Bytes := ascii "eyJhbGciOiJSUzI1NiJ9.eyJpc3MiOiJhXG4iLCJleHAiOjV9.c2ln"

/-- The first token is compact wherever standard base64 is read. -/
theorem plainToken_compact (h : StandardBase64 bioRead) :
    CompactToken bioRead (fun _ _ => true) plainToken algHeader
      (issuedPayload plainIssuer plainIssuer_isPlain) := by
  refine ⟨⟨ascii "eyJhbGciOiJSUzI1NiJ9", ascii "eyJpc3MiOiJtZSIsImV4cCI6NX0", ascii "c2ln",
    ascii "sig", splitDot_eq_three_iff.mp ?_, h.base64urlDecode_eq ?_, h.base64urlDecode_eq ?_,
    h.base64urlDecode_eq ?_, rfl⟩, ?_⟩
  all_goals decide +kernel

/-- So is the second one. -/
theorem brokenToken_compact (h : StandardBase64 bioRead) :
    CompactToken bioRead (fun _ _ => true) brokenToken algHeader
      (issuedPayload brokenIssuer brokenIssuer_isPlain) := by
  refine ⟨⟨ascii "eyJhbGciOiJSUzI1NiJ9", ascii "eyJpc3MiOiJhXG4iLCJleHAiOjV9", ascii "c2ln",
    ascii "sig", splitDot_eq_three_iff.mp ?_, h.base64urlDecode_eq ?_, h.base64urlDecode_eq ?_,
    h.base64urlDecode_eq ?_, rfl⟩, ?_⟩
  all_goals decide +kernel

/-- A token without control characters is read as it is meant. -/
theorem compact_claims_plainToken :
    findValue (issuedPayload plainIssuer plainIssuer_isPlain).compact (ascii "iss") =
        plainIssuer ∧
      (verify base64Decode (fun _ _ => true) 4 plainToken plainIssuer = .ok ↔
        (issuedPayload plainIssuer plainIssuer_isPlain).value? (ascii "iss") =
          some (.str plainIssuer) ∧ 4 < (5 : Int)) := by
  have huncontrolled :
      (issuedPayload plainIssuer plainIssuer_isPlain).Uncontrolled (ascii "iss") := by
    intro s hs
    obtain rfl : plainIssuer = s := FlatValue.str.inj (Option.some.inj hs)
    decide
  obtain ⟨hlookup, hverify⟩ :=
    compact_claims_iff base64Decode (fun _ _ => true)
      (issuedPayload plainIssuer plainIssuer_isPlain)
  refine ⟨(hlookup (ascii "iss") (by decide) (by decide)).mpr huncontrolled, ?_⟩
  refine (hverify plainToken algHeader 5 (plainToken_compact standardBase64_self) rfl (by decide)
    (fun v hv => ⟨plainIssuer, (Option.some.inj hv).symm⟩)).mpr (Or.inr huncontrolled)
    plainIssuer 4 (by decide) (by decide)

/-- The line feed is looked up as the two letters of its escape, and the token is refused for its
own issuer. -/
theorem brokenToken_refused :
    (issuedPayload brokenIssuer brokenIssuer_isPlain).value? (ascii "iss") =
        some (.str brokenIssuer) ∧
      findValue (issuedPayload brokenIssuer brokenIssuer_isPlain).compact (ascii "iss") =
        [0x61, 0x5C, 0x6E] ∧
      CompactToken base64Decode (fun _ _ => true) brokenToken algHeader
        (issuedPayload brokenIssuer brokenIssuer_isPlain) ∧
      verify base64Decode (fun _ _ => true) 4 brokenToken brokenIssuer = .issuerMismatch :=
  ⟨by decide +kernel, by decide +kernel, brokenToken_compact standardBase64_self,
    by decide +kernel⟩

end JwtVerifier

end TtsServer
