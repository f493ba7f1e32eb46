import TtsServer.Messages
import TtsServer.Lib.Json

/-!
# Verification of bearer tokens

`Rsa256Verifier::verify` splits a token at its dots, decodes the three parts, has the
signature checked and then looks for two claims in the payload. The claims are not read
by parsing: `find_value` searches for the quoted key with its colon and takes what
stands behind the first match. What OpenSSL does is a parameter here: the reading of base64
through a `BIO` and the check of the RSA signature; and so is the clock. Only the texts of
single tokens below need a reader that reads standard base64 as such.

What the search takes is described here by the text alone, and compared with the
members that the payload has as a JSON object.
-/

namespace TtsServer

/-- `JwtVerifier::Result`. -/
inductive JwtResult where
  | ok
  | missingHeader
  | invalidSignature
  | expired
  | malformed
  | issuerMismatch
  deriving DecidableEq, Repr

namespace JwtVerifier

variable {bioRead : Bytes → Option Bytes} {token issuer json key text value : Bytes} {now : Int}

/-! ### Decoding -/

/-- The dot between the parts of a token. -/
def dot : UInt8 := 0x2E

/-- The loop of `split_dot`, with the parts pushed so far and the letters from `start`
to the current position. -/
def splitDotFrom (parts : List Bytes) (part : Bytes) : Bytes → List Bytes
  | [] => parts ++ [part]
  | b :: rest =>
    if b = dot then splitDotFrom (parts ++ [part]) [] rest
    else splitDotFrom parts (part ++ [b]) rest

/-- `split_dot`. -/
def splitDot (s : Bytes) : List Bytes := splitDotFrom [] [] s

/-- The value of a letter of the base64 alphabet. -/
def sextet (b : UInt8) : Option Nat :=
  if 0x41 ≤ b.toNat ∧ b.toNat ≤ 0x5A then some (b.toNat - 0x41)
  else if 0x61 ≤ b.toNat ∧ b.toNat ≤ 0x7A then some (b.toNat - 0x61 + 26)
  else if 0x30 ≤ b.toNat ∧ b.toNat ≤ 0x39 then some (b.toNat - 0x30 + 52)
  else if b = 0x2B then some 62
  else if b = 0x2F then some 63
  else none

/-- Standard base64 with padding: four letters give three bytes, and the last group may
end in one or two `=`. -/
def base64Decode : Bytes → Option Bytes
  | [] => some []
  | a :: b :: c :: d :: rest => do
    let x ← sextet a
    let y ← sextet b
    let first := UInt8.ofNat (x * 4 + y / 16)
    if c = 0x3D ∧ d = 0x3D ∧ rest = [] then return [first]
    let z ← sextet c
    let second := UInt8.ofNat (y % 16 * 16 + z / 4)
    if d = 0x3D ∧ rest = [] then return [first, second]
    let w ← sextet d
    let third := UInt8.ofNat (z % 4 * 64 + w)
    let bytes ← base64Decode rest
    return first :: second :: third :: bytes
  | _ => none

/-- `base64url_decode`: the two letters are replaced, the text is filled up with `=`, and
`BIO_read` gives the bytes, or `none` when it returns a negative number and the function
throws. -/
def base64urlDecode (bioRead : Bytes → Option Bytes) (s : Bytes) : Option Bytes :=
  let replaced := s.map fun b => if b = 0x2D then 0x2B else if b = 0x5F then 0x2F else b
  bioRead (replaced ++ List.replicate ((4 - replaced.length % 4) % 4) 0x3D)

/-- The reader reads standard base64 as such; of other texts nothing is said. -/
def StandardBase64 (bioRead : Bytes → Option Bytes) : Prop :=
  ∀ text bytes, base64Decode text = some bytes → bioRead text = some bytes

/-- What decodes as standard base64 decodes in the same way with such a reader. -/
theorem StandardBase64.base64urlDecode_eq (h : StandardBase64 bioRead) {s bytes : Bytes}
    (hs : base64urlDecode base64Decode s = some bytes) : base64urlDecode bioRead s = some bytes :=
  h _ _ hs

/-! ### Claims -/

/-- `constant_time_eq`. -/
def constantTimeEq (a b : Bytes) : Bool :=
  a.length == b.length && (a.zip b).foldl (fun acc p => acc ||| (p.1 ^^^ p.2)) 0 == 0

/-- The double quote. -/
def quote : UInt8 := 0x22

/-- The text `find_value` searches for: the quoted key with its colon. -/
def quotedKey (key : Bytes) : Bytes := quote :: key ++ [quote, 0x3A]

/-- The two letters of `find_first_of(",}")`. -/
def isDelimiter (b : UInt8) : Bool := b == 0x2C || b == 0x7D

/-- What `find_value` takes from the text behind the key: a quoted text up to the next
quote, or anything else up to the next delimiter or the end. -/
def valueText : Bytes → Bytes
  | [] => []
  | b :: rest =>
    if b = quote then
      match rest.findIdx? (· == quote) with
      | none => []
      | some e => rest.take e
    else (b :: rest).take ((b :: rest).findIdx isDelimiter)

/-- The lambda `find_value`. -/
def findValue (json key : Bytes) : Bytes :=
  match Lib.find (quotedKey key) json with
  | none => []
  | some p => valueText (json.drop (p + (quotedKey key).length))

/-- The letters `isspace` accepts. -/
def isSpace (b : UInt8) : Bool := b == 0x20 || decide (0x09 ≤ b.toNat ∧ b.toNat ≤ 0x0D)

/-- The range of `long long`. -/
def InLongLong (n : Int) : Prop := -2 ^ 63 ≤ n ∧ n < 2 ^ 63

instance (n : Int) : Decidable (InLongLong n) := inferInstanceAs (Decidable (_ ∧ _))

/-- The optional sign `stoll` accepts, as the factor it stands for, and the text behind
it. -/
def signed : Bytes → Int × Bytes
  | [] => (1, [])
  | b :: rest =>
    if b = 0x2D then (-1, rest) else if b = 0x2B then (1, rest) else (1, b :: rest)

/-- `std::stoll`: blanks, a sign and the digits that follow; letters behind them are
ignored. `none` stands for both of its exceptions. -/
def stoll (s : Bytes) : Option Int :=
  let (sign, rest) := signed (s.dropWhile isSpace)
  let digits := rest.takeWhile Lib.isDigit
  if digits = [] then none
  else if InLongLong (sign * Lib.decimal digits) then some (sign * Lib.decimal digits)
  else none

/-- The check of the `exp` claim; a text that is no number is let through. -/
def isExpired (now : Int) (expStr : Bytes) : Bool :=
  !expStr.isEmpty &&
    match stoll expStr with
    | some exp => decide (now ≥ exp)
    | none => false

/-- The part of `verify` behind the signature check. -/
def checkClaims (now : Int) (payloadJson requiredIssuer : Bytes) : JwtResult :=
  if isExpired now (findValue payloadJson (ascii "exp")) then .expired
  else if !requiredIssuer.isEmpty &&
      !constantTimeEq (findValue payloadJson (ascii "iss")) requiredIssuer then
    .issuerMismatch
  else .ok

/-- The text `verify` searches for in the header. -/
def algText : Bytes := ascii "\"alg\":\"RS256\""

/-- `Rsa256Verifier::verify`, with the reader of base64, the check of the RSA signature and
the time in seconds as parameters. -/
def verify (bioRead : Bytes → Option Bytes) (verifyRsaSha256 : Bytes → Bytes → Bool) (now : Int)
    (token requiredIssuer : Bytes) : JwtResult :=
  if token.isEmpty then .missingHeader
  else
    match splitDot token with
    | [header, payload, signature] =>
      match base64urlDecode bioRead header, base64urlDecode bioRead payload,
        base64urlDecode bioRead signature with
      | some headerJson, some payloadJson, some sigBytes =>
        if !verifyRsaSha256 (header ++ [dot] ++ payload) sigBytes then .invalidSignature
        else if (Lib.find algText headerJson).isNone then .invalidSignature
        else checkClaims now payloadJson requiredIssuer
      | _, _, _ => .malformed
    | _ => .malformed

/-! ### What the functions compute -/

/-- Putting nothing in front of the first part changes nothing. -/
theorem modifyHead_nil_append (parts : List Bytes) : parts.modifyHead ([] ++ ·) = parts := by
  cases parts <;> rfl

/-- The loop of `split_dot` pushes what cutting at the dots gives, the first part
behind the letters already taken. -/
theorem splitDotFrom_eq (s : Bytes) (parts : List Bytes) (part : Bytes) :
    splitDotFrom parts part s = parts ++ (s.splitOn dot).modifyHead (part ++ ·) := by
  induction s generalizing parts part with
  | nil => simp [splitDotFrom]
  | cons b s ih =>
    rw [splitDotFrom, List.splitOn_cons_eq_if_modifyHead]
    by_cases hb : b = dot
    · rw [if_pos hb, if_pos (beq_iff_eq.mpr hb), ih, modifyHead_nil_append]
      simp
    · rw [if_neg hb, if_neg (by simpa using hb), ih, List.modifyHead_modifyHead]
      congr 2
      funext part'
      simp

/-- No part holds a dot. -/
theorem dot_notMem_splitDotFrom (s : Bytes) (parts : List Bytes) (part : Bytes)
    (hparts : ∀ p ∈ parts, dot ∉ p) (hpart : dot ∉ part) :
    ∀ p ∈ splitDotFrom parts part s, dot ∉ p := by
  induction s generalizing parts part with
  | nil =>
    intro p hp
    rcases List.mem_append.mp hp with hp | hp
    · exact hparts p hp
    · rwa [List.mem_singleton.mp hp]
  | cons b s ih =>
    rw [splitDotFrom]
    split
    · refine ih _ _ (fun p hp => ?_) List.not_mem_nil
      rcases List.mem_append.mp hp with hp | hp
      · exact hparts p hp
      · rwa [List.mem_singleton.mp hp]
    · refine ih _ _ hparts fun hmem => ?_
      rcases List.mem_append.mp hmem with hmem | hmem
      · exact hpart hmem
      · exact absurd (List.mem_singleton.mp hmem).symm ‹_›

/-- `split_dot` gives the parts without dots that make up the text when they are joined
by dots. -/
theorem splitDot_eq_iff {s : Bytes} {parts : List Bytes} :
    splitDot s = parts ↔
      parts ≠ [] ∧ (∀ p ∈ parts, dot ∉ p) ∧ [dot].intercalate parts = s := by
  have hsplit : splitDot s = s.splitOn dot := by
    rw [splitDot, splitDotFrom_eq, modifyHead_nil_append, List.nil_append]
  constructor
  · rintro rfl
    refine ⟨?_, dot_notMem_splitDotFrom s [] [] (by simp) List.not_mem_nil, ?_⟩
    · rw [hsplit]
      exact List.splitOn_ne_nil dot s
    · rw [hsplit, List.intercalate_splitOn]
  · rintro ⟨hne, hdots, rfl⟩
    rw [hsplit, List.splitOn_intercalate dot hdots hne]

/-- The loop of `constant_time_eq` ends at zero when it finds no difference. -/
theorem foldl_xor_eq_zero_iff (ps : List (UInt8 × UInt8)) (acc : UInt8) :
    ps.foldl (fun acc p => acc ||| (p.1 ^^^ p.2)) acc = 0 ↔
      acc = 0 ∧ ∀ p ∈ ps, p.1 = p.2 := by
  induction ps generalizing acc with
  | nil => simp
  | cons p ps ih =>
    rw [List.foldl_cons, ih, UInt8.or_eq_zero_iff, UInt8.xor_eq_zero_iff, and_assoc,
      List.forall_mem_cons]

/-- `constant_time_eq` is equality. -/
theorem constantTimeEq_iff {a b : Bytes} : constantTimeEq a b = true ↔ a = b := by
  rw [constantTimeEq, Bool.and_eq_true, beq_iff_eq, beq_iff_eq, foldl_xor_eq_zero_iff]
  constructor
  · rintro ⟨hlen, -, hsame⟩
    refine List.ext_getElem hlen fun i ha hb => ?_
    have hmem : (a[i], b[i]) ∈ a.zip b :=
      List.mem_iff_getElem.mpr ⟨i, by simpa using ⟨ha, hb⟩, by simp⟩
    exact hsame _ hmem
  · rintro rfl
    refine ⟨rfl, rfl, fun p hp => ?_⟩
    obtain ⟨i, hi, rfl⟩ := List.mem_iff_getElem.mp hp
    simp

/-! ### What the search reads -/

/-- The text that stands behind the first occurrence of the quoted key: between quotes,
or up to a delimiter or the end. -/
inductive Reads (json key : Bytes) : Bytes → Prop where
  | quoted {value rest} :
      Lib.FollowsFirst (quotedKey key) json (quote :: value ++ quote :: rest) →
      quote ∉ value → Reads json key value
  | bare {value rest} : Lib.FollowsFirst (quotedKey key) json (value ++ rest) →
      (value ++ rest).head? ≠ some quote → (∀ b ∈ value, ¬ isDelimiter b) →
      (∀ b ∈ rest.head?, isDelimiter b) → Reads json key value

/-- A quoted text is taken up to the next quote. -/
theorem valueText_quoted_iff (hvalue : value ≠ []) :
    valueText (quote :: text) = value ↔
      ∃ rest, text = value ++ quote :: rest ∧ quote ∉ value := by
  have hfind : (∃ e, text.findIdx? (· == quote) = some e ∧ text.take e = value) ↔
      ∃ rest, text = value ++ quote :: rest ∧ quote ∉ value := by
    rw [Lib.findIdx?_take_iff]
    simp only [beq_iff_eq]
    constructor
    · rintro ⟨a, rest, htext, rfl, hin⟩
      exact ⟨rest, htext, fun hmem => hin _ hmem rfl⟩
    · rintro ⟨rest, htext, hin⟩
      refine ⟨quote, rest, htext, rfl, fun b hb heq => hin (heq ▸ hb)⟩
  rw [← hfind, valueText, if_pos rfl]
  cases hidx : text.findIdx? (· == quote) with
  | none => simpa using hvalue.symm
  | some e => simp

/-- Any other text is taken up to the next delimiter or the end. -/
theorem valueText_bare_iff (htext : text.head? ≠ some quote) :
    valueText text = value ↔ ∃ rest, text = value ++ rest ∧
      (∀ b ∈ value, ¬ isDelimiter b) ∧ ∀ b ∈ rest.head?, isDelimiter b := by
  rw [← Lib.take_findIdx_iff]
  cases text with
  | nil => rfl
  | cons b text =>
    have hb : b ≠ quote := fun heq => htext (by rw [heq]; rfl)
    rw [valueText, if_neg hb]

/-- A text that is found is the one that stands behind the first occurrence of the
key. -/
theorem findValue_eq_iff (hvalue : value ≠ []) :
    findValue json key = value ↔ Reads json key value := by
  constructor
  · intro hfound
    rw [findValue] at hfound
    split at hfound
    · exact absurd hfound.symm hvalue
    · next p hp =>
      have hfollows : ∀ {rest}, json.drop (p + (quotedKey key).length) = rest →
          Lib.FollowsFirst (quotedKey key) json rest :=
        fun hrest => Lib.followsFirst_iff.mpr ⟨p, hp, hrest⟩
      by_cases hquote : (json.drop (p + (quotedKey key).length)).head? = some quote
      · obtain ⟨text, htext⟩ := List.head?_eq_some_iff.mp hquote
        rw [htext, valueText_quoted_iff hvalue] at hfound
        obtain ⟨rest, rfl, hin⟩ := hfound
        exact .quoted (hfollows htext) hin
      · obtain ⟨rest, htext, hin, hout⟩ := (valueText_bare_iff hquote).mp hfound
        exact .bare (hfollows htext) (htext ▸ hquote) hin hout
  · rintro (⟨hfollows, hin⟩ | ⟨hfollows, hhead, hin, hout⟩)
    · obtain ⟨p, hp, htext⟩ := Lib.followsFirst_iff.mp hfollows
      rw [findValue, hp]
      simp only
      rw [htext]
      exact (valueText_quoted_iff hvalue).mpr ⟨_, rfl, hin⟩
    · obtain ⟨p, hp, htext⟩ := Lib.followsFirst_iff.mp hfollows
      rw [findValue, hp]
      simp only
      rw [htext]
      exact (valueText_bare_iff hhead).mpr ⟨_, rfl, hin, hout⟩

/-- A sign and the factor it stands for. -/
inductive SignText : Bytes → Int → Prop where
  | none : SignText [] 1
  | plus : SignText [0x2B] 1
  | minus : SignText [0x2D] (-1)

/-- The text begins with a number of the range of `long long`: blanks, a sign, and
digits up to a letter that is none. -/
inductive LeadsWith : Bytes → Int → Prop where
  | intro {space sign digits rest s} : (∀ b ∈ space, isSpace b) → SignText sign s →
      digits ≠ [] → (∀ b ∈ digits, Lib.isDigit b) → (∀ b ∈ rest.head?, ¬ Lib.isDigit b) →
      InLongLong (s * Lib.decimal digits) →
      LeadsWith (space ++ (sign ++ (digits ++ rest))) (s * Lib.decimal digits)

/-- A digit is neither a blank nor a sign. -/
theorem isDigit_other {b : UInt8} (hb : Lib.isDigit b) :
    ¬ isSpace b ∧ b ≠ 0x2D ∧ b ≠ 0x2B := by
  simp only [Lib.isDigit, decide_eq_true_eq] at hb
  refine ⟨?_, ?_, ?_⟩
  · simp only [isSpace, Bool.or_eq_true, beq_iff_eq, decide_eq_true_eq, not_or]
    refine ⟨?_, by omega⟩
    rintro rfl
    revert hb
    decide
  · rintro rfl
    revert hb
    decide
  · rintro rfl
    revert hb
    decide

/-- A sign is taken off the front. -/
theorem signed_spec (s : Bytes) :
    ∃ sign, SignText sign (signed s).1 ∧ s = sign ++ (signed s).2 := by
  cases s with
  | nil => exact ⟨[], .none, rfl⟩
  | cons b rest =>
    rw [signed]
    split
    · next hb => exact ⟨[0x2D], .minus, by simp [hb]⟩
    · split
      · next hb => exact ⟨[0x2B], .plus, by simp [hb]⟩
      · exact ⟨[], .none, rfl⟩

/-- It is taken off in front of digits. -/
theorem signed_append {sign digits rest : Bytes} {s : Int} (hsign : SignText sign s)
    (hne : digits ≠ []) (hdigits : ∀ b ∈ digits, Lib.isDigit b) :
    signed (sign ++ (digits ++ rest)) = (s, digits ++ rest) := by
  obtain ⟨d, digits, rfl⟩ := List.exists_cons_of_ne_nil hne
  obtain ⟨-, hminus, hplus⟩ := isDigit_other (hdigits d List.mem_cons_self)
  cases hsign with
  | none => simp [signed, hminus, hplus]
  | plus => rfl
  | minus => rfl

/-- A signed number does not begin with whitespace. -/
theorem isSpace_head {sign digits rest : Bytes} {s : Int} (hsign : SignText sign s)
    (hne : digits ≠ []) (hdigits : ∀ b ∈ digits, Lib.isDigit b) :
    ∀ b ∈ (sign ++ (digits ++ rest)).head?, ¬ isSpace b := by
  obtain ⟨d, digits, rfl⟩ := List.exists_cons_of_ne_nil hne
  intro b hb
  cases hsign with
  | none =>
    obtain rfl : d = b := by simpa using hb
    exact (isDigit_other (hdigits d List.mem_cons_self)).1
  | plus =>
    obtain rfl : 0x2B = b := by simpa using hb
    decide
  | minus =>
    obtain rfl : 0x2D = b := by simpa using hb
    decide

/-- `stoll` gives the number that the text begins with. -/
theorem stoll_eq_some_iff {n : Int} : stoll text = some n ↔ LeadsWith text n := by
  constructor
  · intro h
    obtain ⟨sign, hsign, hrest⟩ := signed_spec (text.dropWhile isSpace)
    simp only [stoll] at h
    split at h
    · cases h
    · next hne =>
      split at h
      · next hrange =>
        obtain rfl := Option.some.inj h
        have hspace : ∀ b ∈ text.takeWhile isSpace, isSpace b :=
          fun b hb => List.mem_takeWhile_imp hb
        obtain ⟨-, hdigits, hend⟩ := Lib.takeWhile_dropWhile_iff.mp
          (And.intro rfl rfl : _ ∧ (signed (text.dropWhile isSpace)).2.dropWhile Lib.isDigit = _)
        have hleads := LeadsWith.intro hspace hsign hne hdigits hend hrange
        rwa [List.takeWhile_append_dropWhile, ← hrest, List.takeWhile_append_dropWhile] at hleads
      · cases h
  · rintro @⟨space, sign, digits, rest, s, hspace, hsign, hne, hdigits, hend, hrange⟩
    have hblank := (Lib.takeWhile_dropWhile_iff.mpr
      ⟨rfl, hspace, @isSpace_head _ _ rest _ hsign hne hdigits⟩).2
    have hdigit := (Lib.takeWhile_dropWhile_iff.mpr ⟨rfl, hdigits, hend⟩).1
    simp only [stoll, hblank, signed_append hsign hne hdigits, hdigit]
    rw [if_neg hne, if_pos hrange]

/-- The payload has a number behind the first occurrence of the quoted `exp`. -/
def ReadsExpiry (payload : Bytes) (n : Int) : Prop :=
  ∃ text, Reads payload (ascii "exp") text ∧ LeadsWith text n

/-- A text that begins with a number is not empty. -/
theorem LeadsWith.ne_nil {n : Int} (h : LeadsWith text n) : text ≠ [] := by
  obtain ⟨-, -, hne, -, -, -⟩ := h
  simp [hne]

/-- A payload is expired at the number it reads as, and afterwards. -/
theorem isExpired_iff {payload : Bytes} :
    isExpired now (findValue payload (ascii "exp")) = true ↔
      ∃ n, ReadsExpiry payload n ∧ n ≤ now := by
  rw [isExpired, Bool.and_eq_true]
  constructor
  · rintro ⟨hne, hexp⟩
    split at hexp
    · next n hn =>
      have hvalue : findValue payload (ascii "exp") ≠ [] := by simpa using hne
      exact ⟨n, ⟨_, (findValue_eq_iff hvalue).mp rfl, stoll_eq_some_iff.mp hn⟩,
        of_decide_eq_true hexp⟩
    · cases hexp
  · rintro ⟨n, ⟨text, hreads, hleads⟩, hle⟩
    rw [(findValue_eq_iff hleads.ne_nil).mpr hreads, stoll_eq_some_iff.mpr hleads]
    exact ⟨by simpa using hleads.ne_nil, decide_eq_true hle⟩

/-- Behind the signature check, a payload passes when no number it reads as has come and
the required issuer is what it reads as. -/
theorem checkClaims_eq_ok_iff {payload : Bytes} (hissuer : issuer ≠ []) :
    checkClaims now payload issuer = .ok ↔
      (∀ n, ReadsExpiry payload n → now < n) ∧ Reads payload (ascii "iss") issuer := by
  have hlate : isExpired now (findValue payload (ascii "exp")) = true ↔
      ¬ ∀ n, ReadsExpiry payload n → now < n := by
    simp [isExpired_iff]
  have hiss : (!issuer.isEmpty && !constantTimeEq (findValue payload (ascii "iss")) issuer) = true
      ↔ ¬ Reads payload (ascii "iss") issuer := by
    rw [← findValue_eq_iff hissuer, ← constantTimeEq_iff]
    simp [hissuer]
  rw [checkClaims]
  split
  · next h => simp [hlate.mp h]
  · next h =>
    have hearly := not_not.mp (hlate.not.mp h)
    split
    · next h => simp [hiss.mp h]
    · next h => exact iff_of_true rfl ⟨hearly, not_not.mp (hiss.not.mp h)⟩

/-- The token is the three parts, joined by dots that occur nowhere else. -/
structure HasParts (token header payload signature : Bytes) : Prop where
  eq : token = header ++ dot :: payload ++ dot :: signature
  header : dot ∉ header
  payload : dot ∉ payload
  signature : dot ∉ signature

/-- A token is split into three parts exactly if it is these parts with dots between them. -/
theorem splitDot_eq_three_iff {h p s : Bytes} :
    splitDot token = [h, p, s] ↔ HasParts token h p s := by
  rw [splitDot_eq_iff]
  constructor
  · rintro ⟨-, hdots, rfl⟩
    refine ⟨?_, hdots h (by simp), hdots p (by simp), hdots s (by simp)⟩
    simp [List.intercalate, List.intersperse]
  · rintro ⟨rfl, hh, hp, hs⟩
    refine ⟨by simp, by simp [hh, hp, hs], ?_⟩
    simp [List.intercalate, List.intersperse]

/-- The token decodes to this header and this payload, and its signature decodes. -/
def DecodesTo (bioRead : Bytes → Option Bytes) (token header payload : Bytes) : Prop :=
  ∃ h p s signature, HasParts token h p s ∧ base64urlDecode bioRead h = some header ∧
    base64urlDecode bioRead p = some payload ∧ base64urlDecode bioRead s = some signature

/-- On a token that decodes, the signature check, the name of the algorithm and the claims are
looked at in turn. -/
theorem verify_eq {h p s header payload signature : Bytes} (rsa : Bytes → Bytes → Bool)
    (hparts : HasParts token h p s) (hheader : base64urlDecode bioRead h = some header)
    (hpayload : base64urlDecode bioRead p = some payload)
    (hsignature : base64urlDecode bioRead s = some signature) :
    verify bioRead rsa now token issuer =
      if !rsa (h ++ [dot] ++ p) signature then .invalidSignature
      else if (Lib.find algText header).isNone then .invalidSignature
      else checkClaims now payload issuer := by
  have hne : token.isEmpty = false := by simp [hparts.eq]
  simp only [verify, hne, splitDot_eq_three_iff.mpr hparts, hheader, hpayload, hsignature]
  rfl

/-- The search for the algorithm fails when the header does not name it. -/
theorem isNone_find_algText {header : Bytes} :
    (Lib.find algText header).isNone = true ↔ ¬ algText <:+: header := by
  rw [Option.isNone_iff_eq_none, Lib.find_eq_none_iff]

/-- A token that decodes is accepted, under some outcome of the signature check, when
its header names the algorithm and its payload passes. -/
theorem DecodesTo.exists_verify_eq_ok_iff {header payload : Bytes}
    (h : DecodesTo bioRead token header payload) :
    (∃ rsa, verify bioRead rsa now token issuer = .ok) ↔
      algText <:+: header ∧ checkClaims now payload issuer = .ok := by
  obtain ⟨hd, pl, sg, signature, hparts, hheader, hpayload, hsignature⟩ := h
  have hverify := fun rsa =>
    @verify_eq bioRead token issuer now hd pl sg header payload signature rsa
      hparts hheader hpayload hsignature
  constructor
  · rintro ⟨rsa, hok⟩
    rw [hverify] at hok
    split at hok
    · cases hok
    · split at hok
      · cases hok
      · next hfound => exact ⟨not_not.mp (isNone_find_algText.not.mp hfound), hok⟩
  · rintro ⟨hnamed, hok⟩
    refine ⟨fun _ _ => true, ?_⟩
    rw [hverify, if_neg (by simp), if_neg (isNone_find_algText.not.mpr (not_not.mpr hnamed)), hok]

/-! ### The members of the payload -/

/-- The members say what the verifier is asked to check: `iss` is there and is the
required issuer, and `exp`, where it is there, is an integer that lies ahead. -/
structure HasClaims (members : List (Bytes × Lib.JsonValue)) (issuer : Bytes) (now : Int) :
    Prop where
  present : ∃ v, (ascii "iss", v) ∈ members
  issuer : ∀ v, (ascii "iss", v) ∈ members → v = .string issuer
  expiry : ∀ v, (ascii "exp", v) ∈ members → ∃ e : Int, v = .number e ∧ now < e

/-- Whatever the signature check says and whatever the time is, a token that is accepted
for the issuer and whose payload is a JSON object has the claims as members. -/
def ClaimsSound (bioRead : Bytes → Option Bytes) (token issuer : Bytes) : Prop :=
  ∀ rsa now header payload members, InLongLong now → DecodesTo bioRead token header payload →
    Lib.JsonText payload (.object members) → verify bioRead rsa now token issuer = .ok →
    HasClaims members issuer now

/-- The members agree with what the search reads: `iss` is the issuer, and `exp` is an
integer not below the number that is read, and beyond `long long` if none is read. -/
structure AgreesWith (members : List (Bytes × Lib.JsonValue)) (payload issuer : Bytes) :
    Prop where
  present : ∃ v, (ascii "iss", v) ∈ members
  issuer : ∀ v, (ascii "iss", v) ∈ members → v = .string issuer
  expiry : ∀ v, (ascii "exp", v) ∈ members → ∃ e : Int, v = .number e ∧
    (∀ n, ReadsExpiry payload n → n ≤ e) ∧ ((∀ n, ¬ ReadsExpiry payload n) → 2 ^ 63 ≤ e)

/-- The number that is read is the one `verify` compares with. -/
theorem ReadsExpiry.stoll_eq {payload : Bytes} {n : Int} (h : ReadsExpiry payload n) :
    stoll (findValue payload (ascii "exp")) = some n := by
  obtain ⟨text, hreads, hleads⟩ := h
  rw [(findValue_eq_iff hleads.ne_nil).mpr hreads, stoll_eq_some_iff.mpr hleads]

/-- The number that is read fits in a `long long`, and there is one at most. -/
theorem ReadsExpiry.spec {payload : Bytes} {n : Int} (h : ReadsExpiry payload n) :
    InLongLong n ∧ ∀ n', ReadsExpiry payload n' → n' = n := by
  refine ⟨?_, fun n' h' => Option.some.inj (h'.stoll_eq.symm.trans h.stoll_eq)⟩
  obtain ⟨text, -, hleads⟩ := h
  cases hleads with
  | intro _ _ _ _ _ hrange => exact hrange

/-- The last time at which a payload is not expired. -/
theorem exists_last_time {payload : Bytes} (hmin : ¬ ReadsExpiry payload (-2 ^ 63)) :
    ∃ now, InLongLong now ∧ (∀ n, ReadsExpiry payload n → now < n) ∧
      ∀ e, now < e → (∀ n, ReadsExpiry payload n → n ≤ e) ∧
        ((∀ n, ¬ ReadsExpiry payload n) → 2 ^ 63 ≤ e) := by
  by_cases hread : ∃ n, ReadsExpiry payload n
  · obtain ⟨n, hn⟩ := hread
    obtain ⟨⟨hlow, hhigh⟩, honly⟩ := hn.spec
    have hne : n ≠ -2 ^ 63 := fun heq => hmin (heq ▸ hn)
    refine ⟨n - 1, ⟨by omega, by omega⟩, fun n' hn' => ?_, fun e he => ⟨fun n' hn' => ?_, ?_⟩⟩
    · rw [honly n' hn']
      omega
    · rw [honly n' hn']
      omega
    · exact fun hnone => absurd hn (hnone n)
  · have hnone : ∀ n, ¬ ReadsExpiry payload n := fun n hn => hread ⟨n, hn⟩
    refine ⟨2 ^ 63 - 1, ⟨by decide, by decide⟩, fun n hn => absurd hn (hnone n), fun e he => ?_⟩
    exact ⟨fun n hn => absurd hn (hnone n), fun _ => by omega⟩

/-- However base64 is read, a token is sound for an issuer exactly when its payload is written
so that the search reads its members. -/
theorem claims_sound_iff (hissuer : issuer ≠ []) :
    ClaimsSound bioRead token issuer ↔
      ∀ header payload members, DecodesTo bioRead token header payload → algText <:+: header →
        Lib.JsonText payload (.object members) → Reads payload (ascii "iss") issuer →
        ¬ ReadsExpiry payload (-2 ^ 63) → AgreesWith members payload issuer := by
  constructor
  · intro hsound header payload members hdecodes halg hjson hreads hmin
    obtain ⟨now, hnow, hearly, hlast⟩ := exists_last_time hmin
    obtain ⟨rsa, hok⟩ := hdecodes.exists_verify_eq_ok_iff.mpr
      ⟨halg, (checkClaims_eq_ok_iff hissuer).mpr ⟨hearly, hreads⟩⟩
    have hclaims := hsound rsa now header payload members hnow hdecodes hjson hok
    refine ⟨hclaims.present, hclaims.issuer, fun v hv => ?_⟩
    obtain ⟨e, rfl, he⟩ := hclaims.expiry v hv
    exact ⟨e, rfl, hlast e he⟩
  · intro hagrees rsa now header payload members hnow hdecodes hjson hok
    obtain ⟨halg, hpass⟩ := hdecodes.exists_verify_eq_ok_iff.mp ⟨rsa, hok⟩
    obtain ⟨hearly, hreads⟩ := (checkClaims_eq_ok_iff hissuer).mp hpass
    have hmin : ¬ ReadsExpiry payload (-2 ^ 63) := fun h => by
      have hlt := hearly _ h
      have hlow := hnow.1
      omega
    have hmembers := hagrees header payload members hdecodes halg hjson hreads hmin
    refine ⟨hmembers.present, hmembers.issuer, fun v hv => ?_⟩
    obtain ⟨e, rfl, hread, hnone⟩ := hmembers.expiry v hv
    refine ⟨e, rfl, ?_⟩
    by_cases h : ∃ n, ReadsExpiry payload n
    · obtain ⟨n, hn⟩ := h
      exact lt_of_lt_of_le (hearly n hn) (hread n hn)
    · have hbeyond := hnone fun n hn => h ⟨n, hn⟩
      have hhigh := hnow.2
      omega

/-! ### A payload the search misreads -/

/-- A header that names the algorithm. -/
def plainHeader : Bytes := ascii "\x7b\"alg\":\"RS256\"\x7d"

/-- A payload with a space before the colon of `exp`. -/
def spacedPayload : Bytes := ascii "\x7b\"iss\":\"me\",\"exp\" :1\x7d"

/-- The members of that payload: it expired one second into the epoch. -/
def spacedMembers : List (Bytes × Lib.JsonValue) :=
  [(ascii "iss", .string (ascii "me")), (ascii "exp", .number 1)]

/-- A token with that header and that payload. -/
def spacedToken : Bytes := ascii "eyJhbGciOiJSUzI1NiJ9.eyJpc3MiOiJtZSIsImV4cCIgOjF9.c2ln"

/-- The number one is the integer one. -/
theorem number_one_eq {e : Int} (h : Lib.JsonValue.number 1 = .number e) : e = 1 := by
  injection h with h
  exact_mod_cast h.symm

/-- The three parts of the token. -/
theorem splitDot_spacedToken :
    splitDot spacedToken =
      [ascii "eyJhbGciOiJSUzI1NiJ9", ascii "eyJpc3MiOiJtZSIsImV4cCIgOjF9", ascii "c2ln"] := by
  decide +kernel

/-- What its payload decodes to. -/
theorem base64urlDecode_spacedPayload :
    base64urlDecode base64Decode (ascii "eyJpc3MiOiJtZSIsImV4cCIgOjF9") = some spacedPayload := by
  decide +kernel

/-- The token decodes in this way wherever standard base64 is read. -/
theorem spacedToken_decodesTo (h : StandardBase64 bioRead) :
    DecodesTo bioRead spacedToken plainHeader spacedPayload := by
  have hheader : base64urlDecode base64Decode (ascii "eyJhbGciOiJSUzI1NiJ9") =
      some plainHeader := by
    decide +kernel
  have hsignature : base64urlDecode base64Decode (ascii "c2ln") = some (ascii "sig") := by
    decide +kernel
  exact ⟨_, _, _, ascii "sig", splitDot_eq_three_iff.mp splitDot_spacedToken,
    h.base64urlDecode_eq hheader, h.base64urlDecode_eq base64urlDecode_spacedPayload,
    h.base64urlDecode_eq hsignature⟩

/-- Standard base64 is read as such by its own decoder. -/
theorem standardBase64_self : StandardBase64 base64Decode := fun _ _ h => h

open Lib.JsonGrammar in
/-- The payload is the JSON text of its members. -/
theorem spacedPayload_json : Lib.JsonText spacedPayload (.object spacedMembers) := by
  have hone : Number [0x31] 1 := by
    have hintegral : Integral [0x31] := ⟨⟨by simp, by decide⟩, by decide⟩
    simpa [Lib.decimal] using Number.intro .none hintegral .none .none
  have hspaced : Structural 0x3A [0x20, 0x3A] :=
    ⟨[0x20], [], by simp [Ws], List.forall_mem_nil _, rfl⟩
  have hexp : Members (ascii "\"exp\" :1") [(ascii "exp", .number 1)] :=
    .one (str_self (ascii "exp") (by decide)) hspaced (.number hone)
  have hiss : Members (ascii "\"iss\":\"me\",\"exp\" :1") spacedMembers :=
    .more (str_self (ascii "iss") (by decide)) (structural_self 0x3A)
      (.string (str_self (ascii "me") (by decide))) (structural_self 0x2C) hexp
  exact ⟨⟨"\x7b\"iss\":\"me\",\"exp\" :1\x7d", by decide⟩, [], spacedPayload, [],
    List.forall_mem_nil _, .object (structural_self 0x7B) hiss (structural_self 0x7D),
    List.forall_mem_nil _, by decide⟩

/-- The expired token is accepted long after its time. -/
theorem spacedToken_accepted :
    DecodesTo base64Decode spacedToken plainHeader spacedPayload ∧
      Lib.JsonText spacedPayload (.object spacedMembers) ∧
      verify base64Decode (fun _ _ => true) 1700000000 spacedToken (ascii "me") = .ok ∧
      ¬ HasClaims spacedMembers (ascii "me") 1700000000 := by
  refine ⟨spacedToken_decodesTo standardBase64_self, spacedPayload_json, by decide +kernel,
    fun hclaims => ?_⟩
  obtain ⟨e, he, hlt⟩ := hclaims.expiry (.number 1) (by simp [spacedMembers])
  rw [number_one_eq he] at hlt
  omega

/-- The token decodes to no other payload. -/
theorem spacedToken_payload {header payload : Bytes}
    (h : DecodesTo base64Decode spacedToken header payload) : payload = spacedPayload := by
  obtain ⟨hd, pl, sg, signature, hparts, -, hpayload, -⟩ := h
  have hsplit := splitDot_spacedToken.symm.trans (splitDot_eq_three_iff.mpr hparts)
  obtain rfl : _ = pl := (List.cons.inj (List.cons.inj hsplit).2).1
  exact Option.some.inj (hpayload.symm.trans base64urlDecode_spacedPayload)

/-- The token is not sound for the issuer it names, where no number is read behind `exp`,
and is sound for an issuer that it is never accepted for. -/
theorem claims_sound_spacedToken :
    ascii "me" ≠ [] ∧ ascii "you" ≠ [] ∧ ¬ ClaimsSound base64Decode spacedToken (ascii "me") ∧
      ClaimsSound base64Decode spacedToken (ascii "you") := by
  have hme : ascii "me" ≠ [] := by decide
  have hyou : ascii "you" ≠ [] := by decide
  have hnone : ∀ n, ¬ ReadsExpiry spacedPayload n := by
    intro n hn
    have hfound : stoll (findValue spacedPayload (ascii "exp")) = none := by decide +kernel
    exact absurd (hfound.symm.trans hn.stoll_eq) (by simp)
  refine ⟨hme, hyou, fun hsound => ?_, (claims_sound_iff hyou).mpr ?_⟩
  · have hreads : Reads spacedPayload (ascii "iss") (ascii "me") :=
      (findValue_eq_iff hme).mp (by decide +kernel)
    have hagrees := (claims_sound_iff hme).mp hsound _ _ _
      (spacedToken_decodesTo standardBase64_self)
      (Lib.find_eq_none_iff.not_left.mp (by decide +kernel)) spacedPayload_json hreads (hnone _)
    obtain ⟨e, he, -, hbeyond⟩ := hagrees.expiry (.number 1) (by simp [spacedMembers])
    have hle := hbeyond hnone
    rw [number_one_eq he] at hle
    omega
  · intro header payload members hdecodes _ _ hreads _
    rw [spacedToken_payload hdecodes, ← findValue_eq_iff hyou] at hreads
    exact absurd hreads (by decide +kernel)

/-! ### What the signature covers -/

/-- The loop of `split_dot` pushes one part for each dot and one at the end. -/
theorem length_splitDotFrom (s : Bytes) (parts : List Bytes) (part : Bytes) :
    (splitDotFrom parts part s).length = parts.length + s.count dot + 1 := by
  induction s generalizing parts part with
  | nil => simp [splitDotFrom]
  | cons b s ih =>
    rw [splitDotFrom]
    by_cases hb : b = dot
    · rw [if_pos hb, ih, hb, List.count_cons_self, List.length_append, List.length_singleton]
      omega
    · rw [if_neg hb, ih, List.count_cons_of_ne hb]

/-- What `verify` holds when it has the signature checked: the signed bytes, the
signature and the decoded header and payload. -/
structure CheckedToken where
  signedData : Bytes
  sigBytes : Bytes
  headerJson : Bytes
  payloadJson : Bytes

/-- The part of `verify` before the signature check; `none` when it returns earlier. -/
def checkedToken (bioRead : Bytes → Option Bytes) (token : Bytes) : Option CheckedToken :=
  match splitDot token with
  | [header, payload, signature] =>
    match base64urlDecode bioRead header, base64urlDecode bioRead payload,
      base64urlDecode bioRead signature with
    | some headerJson, some payloadJson, some sigBytes =>
      some ⟨header ++ [dot] ++ payload, sigBytes, headerJson, payloadJson⟩
    | _, _, _ => none
  | _ => none

/-- The part of `verify` from the signature check on. -/
def CheckedToken.judge (verifyRsaSha256 : Bytes → Bytes → Bool) (now : Int)
    (requiredIssuer : Bytes) (t : CheckedToken) : JwtResult :=
  if !verifyRsaSha256 t.signedData t.sigBytes then .invalidSignature
  else if (Lib.find algText t.headerJson).isNone then .invalidSignature
  else checkClaims now t.payloadJson requiredIssuer

/-- `verify` is its two parts; the signature check is asked about the signed bytes and the
signature of the token, and about nothing when the first part returns. -/
theorem verify_eq_judge (bioRead : Bytes → Option Bytes) (rsa : Bytes → Bytes → Bool) (now : Int)
    (token issuer : Bytes) : verify bioRead rsa now token issuer =
      match checkedToken bioRead token with
      | some t => t.judge rsa now issuer
      | none => if token.isEmpty then .missingHeader else .malformed := by
  cases token with
  | nil => rfl
  | cons b rest =>
    simp only [verify, checkedToken, List.isEmpty_cons, Bool.false_eq_true, if_false]
    split
    · split <;> rfl
    · rfl

/-- A token whose signature is checked has three parts, and the first two are signed. -/
theorem exists_parts_of_checkedToken {t : CheckedToken}
    (h : checkedToken bioRead token = some t) :
    ∃ header payload signature, HasParts token header payload signature ∧
      t.signedData = header ++ dot :: payload := by
  unfold checkedToken at h
  split at h
  · next header payload signature hsplit =>
    refine ⟨header, payload, signature, splitDot_eq_three_iff.mp hsplit, ?_⟩
    split at h
    · cases h
      simp
    · cases h
  · cases h

/-- Splitting a token loses nothing: the parts are one more than the dots, hold no dot and
joined by dots are the token. Where the signature is checked, however base64 is read, it is
checked for the bytes before the last of exactly two dots. -/
theorem splitting_lossless (token : Bytes) :
    (splitDot token).length = token.count dot + 1 ∧
    (∀ part ∈ splitDot token, dot ∉ part) ∧
    [dot].intercalate (splitDot token) = token ∧
    ∀ bioRead : Bytes → Option Bytes,
      (checkedToken bioRead token = none ∧
        ∀ rsa now issuer, verify bioRead rsa now token issuer =
          if token.isEmpty then .missingHeader else .malformed) ∨
      ∃ t, checkedToken bioRead token = some t ∧
        (∀ rsa now issuer, verify bioRead rsa now token issuer = t.judge rsa now issuer) ∧
        token.count dot = 2 ∧
        ∃ signature, token = t.signedData ++ dot :: signature ∧ dot ∉ signature := by
  obtain ⟨-, hdots, hjoin⟩ := splitDot_eq_iff.mp (Eq.refl (splitDot token))
  refine ⟨?_, hdots, hjoin, fun bioRead => ?_⟩
  · rw [splitDot, length_splitDotFrom, List.length_nil, Nat.zero_add]
  · cases hcheck : checkedToken bioRead token with
    | none =>
      refine Or.inl ⟨rfl, fun rsa now issuer => ?_⟩
      rw [verify_eq_judge, hcheck]
    | some t =>
      obtain ⟨header, payload, signature, hparts, hsigned⟩ := exists_parts_of_checkedToken hcheck
      have hheader := List.count_eq_zero_of_not_mem hparts.header
      have hpayload := List.count_eq_zero_of_not_mem hparts.payload
      have hsignature := List.count_eq_zero_of_not_mem hparts.signature
      refine Or.inr ⟨t, rfl, fun rsa now issuer => ?_, ?_, signature, ?_, hparts.signature⟩
      · rw [verify_eq_judge, hcheck]
      · rw [hparts.eq, List.count_append, List.count_append, List.count_cons_self,
          List.count_cons_self]
        omega
      · rw [hparts.eq, hsigned]

end JwtVerifier

end TtsServer
