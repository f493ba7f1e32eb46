import TtsServer.CompactClaims
import TtsServer.OutboundFrames
import TtsServer.Lib.JsonReading

/-!
# The text of the frames

The documents of the codec are written by the JSON library, which is a parameter here. What is
asked of it is that the text of a document is a JSON text that denotes the document, with the
members of an object in the order of their names, as they stand in a `std::map` (`WritesJson`). By
the grammar of JSON a text has at most one reading. So a frame determines the settings or the text
of its request, whatever these contain, and what the service reads on the connection of a session
are the documents of the requests that were sent on it, one by one.

The texts of a document are valid UTF-8 here; `json::dump` throws for others.

`Json.dump` is one serialiser that does what is asked: without blanks, with the escapes that the
grammar demands.
-/

namespace TtsServer

open Lib.JsonGrammar JwtVerifier

/-- The bytes of a text. -/
def utf8Bytes (s : String) : Bytes := s.toUTF8.data.toList

/-- A text has only one sequence of bytes. -/
theorem utf8Bytes_injective : Function.Injective utf8Bytes := by
  intro s t h
  rw [← String.toByteArray_inj]
  exact ByteArray.ext (Array.toList_inj.mp h)

namespace Json

mutual

/-- The members of every object in the order of their names. -/
def sorted : Json → Json
  | .obj members => .obj ((sortedMembers members).insertionSort fun a b => a.1 ≤ b.1)
  | doc => doc

/-- Members with their values sorted. -/
def sortedMembers : List (String × Json) → List (String × Json)
  | [] => []
  | (name, doc) :: members => (name, doc.sorted) :: sortedMembers members

end

mutual

/-- What a document says, if `floats` is what the texts of its numbers of type `float` say. -/
def meaning (floats : F32 → Lib.JsonValue) : Json → Lib.JsonValue
  | .str s => .string (utf8Bytes s)
  | .int n => .number n
  | .float x => floats x
  | .bool b => .bool b
  | .obj members => .object (memberMeanings floats members)

/-- What the members say. -/
def memberMeanings (floats : F32 → Lib.JsonValue) :
    List (String × Json) → List (Bytes × Lib.JsonValue)
  | [] => []
  | (name, doc) :: members => (utf8Bytes name, doc.meaning floats) :: memberMeanings floats members

end

end Json

/-- What is asked of the JSON library: the text of a document denotes it. -/
structure WritesJson (dump : Json → String) (floats : F32 → Lib.JsonValue) : Prop where
  denotes : ∀ doc, Lib.JsonText (utf8Bytes (dump doc)) (doc.sorted.meaning floats)

namespace WritesJson

variable {dump : Json → String} {floats : F32 → Lib.JsonValue} (h : WritesJson dump floats)

include h

/-- The text of a document has exactly one reading, the document. -/
theorem jsonText_iff (doc : Json) (v : Lib.JsonValue) :
    Lib.JsonText (utf8Bytes (dump doc)) v ↔ v = doc.sorted.meaning floats := by
  constructor
  · exact fun hv => hv.unique (h.denotes doc)
  · rintro rfl
    exact h.denotes doc

/-- No document has an empty text. -/
theorem ne_empty (doc : Json) : dump doc ≠ "" := by
  intro hempty
  have hread := Lib.read_of_jsonText (h.denotes doc)
  rw [hempty] at hread
  cases hread

/-- Documents with the same text say the same. -/
theorem meaning_eq {doc doc' : Json} (hdump : dump doc = dump doc') :
    doc.sorted.meaning floats = doc'.sorted.meaning floats := by
  have hdenotes := h.denotes doc
  rw [hdump] at hdenotes
  exact hdenotes.unique (h.denotes doc')

end WritesJson

/-! ### A serialiser -/

/-- A byte of ASCII. -/
def isAscii (b : UInt8) : Bool := decide (b.toNat < 0x80)

/-- A way to write a `float`, and what the text denotes. -/
structure FloatTexts where
  text : F32 → Bytes
  value : F32 → Lib.JsonValue
  denotes : ∀ x, Value (text x) (value x)
  allAscii : ∀ x, (text x).all isAscii = true

namespace Json

variable (floats : FloatTexts)

mutual

/-- The text of a document, its members in the order in which they are listed. -/
def text : Json → Bytes
  | .str s => compactString (utf8Bytes s)
  | .int n => intText n
  | .float x => floats.text x
  | .bool b => if b then ascii "true" else ascii "false"
  | .obj members => 0x7B :: [0x2C].intercalate (memberTexts members) ++ [0x7D]

/-- The texts of the members. -/
def memberTexts : List (String × Json) → List Bytes
  | [] => []
  | (name, doc) :: members =>
    (compactString (utf8Bytes name) ++ 0x3A :: doc.text) :: memberTexts members

end

variable {floats}

/-- An integer is written in decimal. -/
theorem value_intText (n : Int) : Value (intText n) (.number n) := value_compactValue (.int n)

mutual

/-- The text of a document denotes it. -/
theorem value_text : ∀ doc : Json, Value (doc.text floats) (doc.meaning floats.value)
  | .str s => .string (str_compactString _)
  | .int n => value_intText n
  | .float x => floats.denotes x
  | .bool true => .true
  | .bool false => .false
  | .obj [] => .emptyObject (structural_self 0x7B) (structural_self 0x7D)
  | .obj (m :: members) =>
    .object (structural_self 0x7B) (members_memberTexts (m :: members) (by simp))
      (structural_self 0x7D)

/-- The texts of the members, with commas between them, denote the members. -/
theorem members_memberTexts : ∀ members : List (String × Json), members ≠ [] →
    Members ([0x2C].intercalate (memberTexts floats members))
      (memberMeanings floats.value members)
  | [], hne => absurd rfl hne
  | [(name, doc)], _ => by
    have hone := Members.one (str_compactString (utf8Bytes name)) (structural_self 0x3A)
      (value_text doc)
    simpa [memberTexts, memberMeanings, List.intercalate] using hone
  | (name, doc) :: m :: members, _ => by
    have hmore := Members.more (str_compactString (utf8Bytes name)) (structural_self 0x3A)
      (value_text doc) (structural_self 0x2C) (members_memberTexts (m :: members) (by simp))
    rw [memberTexts, memberTexts, List.intercalate_cons_cons]
    simpa [memberTexts, memberMeanings] using hmore

end

/-! ### Its texts are UTF-8 -/

/-- The bytes are the encoding of characters. -/
def IsUtf8 (t : Bytes) : Prop := ∃ cs : List Char, cs.flatMap String.utf8EncodeChar = t

/-- One text after another. -/
theorem IsUtf8.append {t u : Bytes} (ht : IsUtf8 t) (hu : IsUtf8 u) : IsUtf8 (t ++ u) := by
  obtain ⟨cs, rfl⟩ := ht
  obtain ⟨ds, rfl⟩ := hu
  exact ⟨cs ++ ds, List.flatMap_append⟩

/-- The empty text. -/
theorem isUtf8_nil : IsUtf8 [] := ⟨[], rfl⟩

/-- A byte of ASCII encodes the character with its number. -/
theorem utf8EncodeChar_byte {b : UInt8} (hb : b.toNat < 0x80) :
    String.utf8EncodeChar (Char.ofNat b.toNat) = [b] := by
  have hval : (Char.ofNat b.toNat).val.toNat = b.toNat := by
    have hvalid : b.toNat.isValidChar := Or.inl (by omega)
    rw [Char.ofNat, dif_pos hvalid]
    rfl
  simp only [String.utf8EncodeChar, hval]
  rw [if_pos (by omega), UInt8.ofNat_toNat]

/-- A row of ASCII bytes. -/
theorem isUtf8_ascii {t : Bytes} (h : t.all isAscii = true) : IsUtf8 t := by
  induction t with
  | nil => exact isUtf8_nil
  | cons b t ih =>
    rw [List.all_cons, Bool.and_eq_true, isAscii, decide_eq_true_eq] at h
    have hone : IsUtf8 [b] := ⟨[Char.ofNat b.toNat], by simp [utf8EncodeChar_byte h.1]⟩
    exact hone.append (ih h.2)

/-- A character beyond ASCII is encoded by bytes beyond ASCII. -/
theorem le_of_mem_utf8EncodeChar {c : Char} (hc : 0x80 ≤ c.val.toNat) {b : UInt8}
    (hb : b ∈ String.utf8EncodeChar c) : 0x80 ≤ b.toNat := by
  have hbyte {n : ℕ} (hn : 0x80 ≤ n % 256) (heq : b = UInt8.ofNat n) : 0x80 ≤ b.toNat := by
    rw [heq, UInt8.toNat_ofNat']
    exact hn
  simp only [String.utf8EncodeChar] at hb
  generalize c.val.toNat = v at hc hb
  rw [if_neg (by omega)] at hb
  split at hb
  · simp only [List.mem_cons, List.not_mem_nil, or_false] at hb
    rcases hb with hb | hb <;> exact hbyte (by omega) hb
  · split at hb
    · simp only [List.mem_cons, List.not_mem_nil, or_false] at hb
      rcases hb with hb | hb | hb <;> exact hbyte (by omega) hb
    · simp only [List.mem_cons, List.not_mem_nil, or_false] at hb
      rcases hb with hb | hb | hb | hb <;> exact hbyte (by omega) hb

/-- An escape is ASCII. -/
theorem isUtf8_escape {b : UInt8} (hb : b.toNat < 0x80) : IsUtf8 (escape b) := by
  refine isUtf8_ascii ?_
  by_cases hcontrol : b.toNat < 0x20
  · have hall : ∀ k < 0x20, (escape (UInt8.ofNat k)).all isAscii = true := by decide
    have hescape := hall b.toNat hcontrol
    rwa [UInt8.ofNat_toNat] at hescape
  · unfold escape
    split
    · next hquote => rcases hquote with rfl | rfl <;> decide
    · rw [if_neg (by simpa [isControl] using hcontrol), List.all_cons, List.all_nil,
        Bool.and_true, isAscii, decide_eq_true_eq]
      exact hb

/-- A byte beyond ASCII is not escaped. -/
theorem escape_eq_self {b : UInt8} (hb : 0x80 ≤ b.toNat) : escape b = [b] := by
  unfold escape
  rw [if_neg, if_neg]
  · simp only [isControl, decide_eq_true_eq]
    omega
  · rintro (rfl | rfl) <;> exact absurd hb (by decide)

/-- The bytes of a text are those of its characters. -/
theorem utf8Bytes_eq (s : String) : utf8Bytes s = s.toList.flatMap String.utf8EncodeChar := by
  obtain ⟨cs, rfl⟩ : ∃ cs, s = String.ofList cs := ⟨s.toList, (String.ofList_toList).symm⟩
  simp [utf8Bytes, String.toUTF8, List.utf8Encode]

/-- A text between quotes. -/
theorem isUtf8_compactString (s : String) : IsUtf8 (compactString (utf8Bytes s)) := by
  have hchars (cs : List Char) : IsUtf8 ((cs.flatMap String.utf8EncodeChar).flatMap escape) := by
    induction cs with
    | nil => exact isUtf8_nil
    | cons c cs ih =>
      rw [List.flatMap_cons, List.flatMap_append]
      refine IsUtf8.append ?_ ih
      by_cases hc : c.val.toNat < 0x80
      · have hone : String.utf8EncodeChar c = [UInt8.ofNat c.val.toNat] := by
          simp only [String.utf8EncodeChar]
          exact if_pos (by omega)
        rw [hone, List.flatMap_singleton]
        refine isUtf8_escape ?_
        rw [UInt8.toNat_ofNat']
        omega
      · -- None of the bytes is escaped, and they encode the character.
        have hsame : (String.utf8EncodeChar c).flatMap escape = String.utf8EncodeChar c := by
          rw [List.flatMap_congr fun b hb =>
            escape_eq_self (le_of_mem_utf8EncodeChar (by omega) hb)]
          simp
        rw [hsame]
        exact ⟨[c], List.flatMap_singleton _ _⟩
  have hquote : IsUtf8 [quote] := isUtf8_ascii (by decide)
  rw [utf8Bytes_eq, compactString]
  exact (hquote.append (hchars _)).append hquote

/-- The text of an integer is ASCII. -/
theorem ascii_intText (n : Int) : (intText n).all isAscii = true := by
  refine List.all_eq_true.mpr fun b hb => ?_
  rcases mem_intText hb with rfl | hdigit
  · decide
  · have hbounds : 0x30 ≤ b.toNat ∧ b.toNat ≤ 0x39 := by simpa [Lib.isDigit] using hdigit
    rw [isAscii, decide_eq_true_eq]
    omega

/-- Texts with commas between them. -/
theorem isUtf8_intercalate {ts : List Bytes} (h : ∀ t ∈ ts, IsUtf8 t) :
    IsUtf8 ([0x2C].intercalate ts) := by
  have hcomma : IsUtf8 [0x2C] := isUtf8_ascii (by decide)
  induction ts with
  | nil => exact isUtf8_nil
  | cons t ts ih =>
    cases ts with
    | nil => simpa [List.intercalate] using h t List.mem_cons_self
    | cons u ts =>
      rw [List.intercalate_cons_cons]
      exact ((h t List.mem_cons_self).append hcomma).append
        (ih fun t' ht' => h t' (List.mem_cons_of_mem t ht'))

mutual

/-- The text of a document. -/
theorem isUtf8_text : ∀ doc : Json, IsUtf8 (doc.text floats)
  | .str s => isUtf8_compactString s
  | .int n => isUtf8_ascii (ascii_intText n)
  | .float x => isUtf8_ascii (floats.allAscii x)
  | .bool true => isUtf8_ascii (show (ascii "true").all isAscii = true by decide)
  | .bool false => isUtf8_ascii (show (ascii "false").all isAscii = true by decide)
  | .obj members => by
    have hopen : IsUtf8 [0x7B] := isUtf8_ascii (by decide)
    have hclose : IsUtf8 [0x7D] := isUtf8_ascii (by decide)
    rw [text]
    exact (hopen.append (isUtf8_intercalate (isUtf8_memberTexts members))).append hclose

/-- The texts of members. -/
theorem isUtf8_memberTexts : ∀ members : List (String × Json),
    ∀ t ∈ memberTexts floats members, IsUtf8 t
  | [], t, ht => by cases ht
  | (name, doc) :: members, t, ht => by
    have hcolon : IsUtf8 [0x3A] := isUtf8_ascii (by decide)
    rw [memberTexts, List.mem_cons] at ht
    rcases ht with rfl | ht
    · exact (isUtf8_compactString name).append (hcolon.append (isUtf8_text doc))
    · exact isUtf8_memberTexts members t ht

end

/-- So the text can be made a string. -/
theorem isValidUTF8_text (doc : Json) :
    (ByteArray.mk (doc.text floats).toArray).IsValidUTF8 := by
  obtain ⟨cs, hcs⟩ := @isUtf8_text floats doc
  refine .intro cs (ByteArray.ext ?_)
  simp [List.utf8Encode, hcs]

/-- The text of a document with its members in the order of their names. -/
def dump (floats : FloatTexts) (doc : Json) : String :=
  ⟨⟨(doc.sorted.text floats).toArray⟩, isValidUTF8_text doc.sorted⟩

/-- The serialiser does what is asked. -/
theorem writesJson_dump (floats : FloatTexts) : WritesJson (dump floats) floats.value := by
  refine ⟨fun doc => ⟨⟨doc.dump floats, rfl⟩, [], _, [], List.forall_mem_nil _,
    value_text doc.sorted, List.forall_mem_nil _, ?_⟩⟩
  rw [List.nil_append, List.append_nil]
  rfl

end Json

/-! ### Exact decimal texts of floats -/

namespace F32

/-- The exponent field. -/
def exponentField (x : F32) : ℕ := x.bits.toNat / 2 ^ 23 % 256

/-- The significand with its sign. -/
def significand (x : F32) : Int :=
  (if x.bits.toNat < 2 ^ 31 then 1 else -1) *
    (x.bits.toNat % 2 ^ 23 + if x.exponentField = 0 then 0 else 2 ^ 23 : ℕ)

/-- The power of two by which the significand is multiplied. -/
def scale (x : F32) : Int := (if x.exponentField = 0 then 1 else x.exponentField) - 150

/-- A finite number as an integer times a power of ten. -/
def decimal (x : F32) : Int × Int :=
  if 0 ≤ x.scale then (x.significand * 2 ^ x.scale.toNat, 0)
  else (x.significand * 5 ^ (-x.scale).toNat, x.scale)

end F32

/-- An integer times a power of ten. -/
def scaledText (n k : Int) : Bytes := intText n ++ 0x65 :: intText k

/-- An integer is written as its sign and its digits. -/
theorem intText_cases (n : Int) : ∃ sign t, Sign sign t ∧ t * n.natAbs = n ∧
    intText n = sign ++ Lib.decimalText n.natAbs := by
  unfold intText
  split
  · exact ⟨_, _, .minus, by omega, rfl⟩
  · exact ⟨_, _, .none, by omega, rfl⟩

/-- The digits of a number. -/
theorem digits_decimalText (n : ℕ) : Digits (Lib.decimalText n) :=
  ⟨Lib.decimalText_head.1, Lib.isDigit_decimalText⟩

/-- The text denotes the number. -/
theorem value_scaledText (n k : Int) :
    Value (scaledText n k) (.number ((n : ℚ) * 10 ^ k)) := by
  obtain ⟨sign, t, hsign, ht, hn⟩ := intText_cases n
  obtain ⟨sign', t', hsign', ht', hk⟩ := intText_cases k
  have hexponent := Exponent.signed (e := 0x65) (by decide) hsign' (digits_decimalText k.natAbs)
  have hnumber := Number.intro hsign ⟨digits_decimalText n.natAbs, Lib.decimalText_head.2⟩ .none
    hexponent
  simp only [List.append_nil, Lib.decimal_decimalText, List.length_nil, ht', Nat.cast_zero,
    sub_zero] at hnumber
  have hcast : (t : ℚ) * (n.natAbs : ℕ) = n := by
    rw [← Int.cast_natCast n.natAbs, ← Int.cast_mul, ht]
  rw [hcast] at hnumber
  refine .number ?_
  rw [scaledText, hn, hk]
  simpa using hnumber

/-- Texts of floats with all their digits. -/
def FloatTexts.exact : FloatTexts where
  text x := if x.exponentField = 255 then ascii "null" else scaledText x.decimal.1 x.decimal.2
  value x :=
    if x.exponentField = 255 then .null else .number ((x.decimal.1 : ℚ) * 10 ^ x.decimal.2)
  denotes x := by
    split
    · exact .null
    · exact value_scaledText _ _
  allAscii x := by
    split
    · decide
    · rw [scaledText, List.all_append, List.all_cons, Json.ascii_intText, Json.ascii_intText]
      decide

/-! ### The documents of the codec -/

/-- The formats have different names. -/
theorem AudioFormat.toString_injective : Function.Injective AudioFormat.toString := by
  intro f g h
  revert h
  cases f <;> cases g <;> decide

/-- The voice settings in the order of their names; a missing emotion is a missing member. -/
def voiceMembers (v : VoiceSettings) : List (String × Json) :=
  (v.emotion.map fun e => ("emotion", Json.str e)).toList ++
    [("english_normalization", .bool v.englishNormalization), ("pitch", .int v.pitch),
     ("speed", .float v.speed), ("voice_id", .str v.voiceId), ("vol", .float v.vol)]

/-- What they say determines the settings. -/
theorem voiceMembers_determine {floats : F32 → Lib.JsonValue} {v v' : VoiceSettings}
    (h : Json.memberMeanings floats (voiceMembers v) =
      Json.memberMeanings floats (voiceMembers v')) :
    v.voiceId = v'.voiceId ∧ v.pitch = v'.pitch ∧ v.emotion = v'.emotion ∧
      v.englishNormalization = v'.englishNormalization ∧
      floats v.speed = floats v'.speed ∧ floats v.vol = floats v'.vol := by
  unfold voiceMembers at h
  cases hemotion : v.emotion <;> cases hemotion' : v'.emotion <;>
    simp [hemotion, hemotion', Json.meaning, Json.memberMeanings,
      utf8Bytes_injective.eq_iff] at h
  · obtain ⟨henglish, hpitch, hspeed, hid, hvol⟩ := h
    exact ⟨hid, hpitch, rfl, henglish, hspeed, hvol⟩
  · obtain ⟨hname, henglish, hpitch, hspeed, hid, hvol⟩ := h
    exact ⟨hid, hpitch, congrArg some hname, henglish, hspeed, hvol⟩

/-- The document of the settings, in the order of the names. -/
theorem sorted_encodeTaskStart (model : String) (v : VoiceSettings) (a : AudioSettings) :
    (encodeTaskStart model v a).sorted = .obj [
      ("audio_setting", .obj [("bitrate", .int a.bitrate), ("channel", .int a.channel),
        ("format", .str a.format.toString), ("sample_rate", .int a.sampleRate)]),
      ("event", .str "task_start"),
      ("model", .str model),
      ("voice_setting", .obj (voiceMembers v))] := by
  cases hemotion : v.emotion <;>
    simp [encodeTaskStart, voiceMembers, hemotion, Json.sorted, Json.sortedMembers,
      List.orderedInsert]

/-- The document of a text. -/
theorem sorted_encodeTaskContinue (text : String) :
    (encodeTaskContinue text).sorted =
      .obj [("event", .str "task_continue"), ("text", .str text)] := by
  simp [encodeTaskContinue, Json.sorted, Json.sortedMembers]

/-- **A frame determines its request**, if the JSON library writes texts that denote the documents.
Two `task_start` frames with the same text carry the same model and the same settings, the speed
and the volume up to what is written of a `float`; two `task_continue` frames with the same text
carry the same text to speak; and no frame can be taken for one of the other kind. -/
theorem frames_determine_settings (dump : Json → String) (floats : F32 → Lib.JsonValue)
    (hdump : WritesJson dump floats) (model model' : String) (v v' : VoiceSettings)
    (a a' : AudioSettings) (text text' : String) :
    (dump (encodeTaskStart model v a) = dump (encodeTaskStart model' v' a') →
      model = model' ∧ a = a' ∧ v.voiceId = v'.voiceId ∧ v.pitch = v'.pitch ∧
        v.emotion = v'.emotion ∧ v.englishNormalization = v'.englishNormalization ∧
        floats v.speed = floats v'.speed ∧ floats v.vol = floats v'.vol) ∧
    (dump (encodeTaskContinue text) = dump (encodeTaskContinue text') ↔ text = text') ∧
    dump (encodeTaskStart model v a) ≠ dump (encodeTaskContinue text) := by
  refine ⟨fun heq => ?_, ⟨fun heq => ?_, fun htext => by rw [htext]⟩, fun heq => ?_⟩
  · have hmeaning := hdump.meaning_eq heq
    rw [sorted_encodeTaskStart, sorted_encodeTaskStart] at hmeaning
    obtain ⟨rate, bitrate, format, channel⟩ := a
    obtain ⟨rate', bitrate', format', channel'⟩ := a'
    simp [Json.meaning, Json.memberMeanings, utf8Bytes_injective.eq_iff,
      AudioFormat.toString_injective.eq_iff] at hmeaning
    obtain ⟨⟨rfl, rfl, rfl, rfl⟩, hmodel, hvoice⟩ := hmeaning
    exact ⟨hmodel, rfl, voiceMembers_determine hvoice⟩
  · have hmeaning := hdump.meaning_eq heq
    rw [sorted_encodeTaskContinue, sorted_encodeTaskContinue] at hmeaning
    simpa [Json.meaning, Json.memberMeanings, utf8Bytes_injective.eq_iff] using hmeaning
  · have hmeaning := hdump.meaning_eq heq
    rw [sorted_encodeTaskStart, sorted_encodeTaskContinue] at hmeaning
    simp [Json.meaning, Json.memberMeanings] at hmeaning

/-- A text that looks like a member of the document does not get confused with one. -/
theorem frames_determine_settings_quoted :
    Json.dump .exact (encodeTaskContinue "\",\"event\":\"task_start") ≠
        Json.dump .exact (encodeTaskContinue "\"") ∧
      Json.dump .exact (encodeTaskStart "speech-2.6-turbo" {} {}) ≠
        Json.dump .exact (encodeTaskContinue "\",\"event\":\"task_start") := by
  obtain ⟨-, htext, hkind⟩ := frames_determine_settings (Json.dump .exact) FloatTexts.exact.value
    (Json.writesJson_dump _) "speech-2.6-turbo" "" {} {} {} {} "\",\"event\":\"task_start" "\""
  exact ⟨fun heq => absurd (htext.mp heq) (by decide), hkind⟩

/-! ### What the service reads -/

namespace WsTaskScheduler

open Heartbeat History Lib

variable {env : Env} {x : History × List (OutWsFrame × TtsRequestMsg)}

/-- The document that a frame carries for its request. -/
def frameDocument (e : OutWsFrame × TtsRequestMsg) : Json :=
  if e.1.op = .taskStart then encodeTaskStart e.2.model.toString e.2.voice e.2.audio
  else encodeTaskContinue e.2.text

/-- Every frame of a step carries the document of its request. -/
theorem payload_of_sentBy (hwf : x.1.hb.PoolWf) {l : Step} {e : OutWsFrame × TtsRequestMsg}
    (he : e ∈ sentBy env x.1 l) : e.1.payloadJson = env.dump (frameDocument e) := by
  rcases @sentBy_cases env x.1 hwf l with hnone | ⟨req, handle, s, -, -, -, hsent⟩
  · rw [hnone] at he
    cases he
  · rw [hsent] at he
    obtain ⟨f, hf, rfl⟩ := List.mem_map.mp he
    cases hreused : handle.reused with
    | true =>
      rw [taskFrames_reused hreused, List.mem_singleton] at hf
      rw [hf]
      rfl
    | false =>
      rw [taskFrames_new hreused, List.mem_pair] at hf
      rcases hf with rfl | rfl <;> rfl

/-- The frames of a run, each with its request: they are the frames of the change sets, and each
carries the document of its request. -/
theorem sentFrames_spec (env : Env) (maxSize : Nat) (idleTimeout maxLifetime : Duration)
    (inputs : List TickInput) :
    (sentFrames env (start maxSize idleTimeout maxLifetime) inputs).map Prod.fst =
        (Heartbeat.run env (start maxSize idleTimeout maxLifetime) inputs).1.flatMap
          ChangeSet.wsFrames ∧
      ∀ e ∈ sentFrames env (start maxSize idleTimeout maxLifetime) inputs,
        e.1.payloadJson = env.dump (frameDocument e) := by
  have hend : Tagged env ((stepsOf inputs).foldl (tagged env)
      ({ hb := start maxSize idleTimeout maxLifetime }, [])) ∧
      ∀ e ∈ ((stepsOf inputs).foldl (tagged env)
        ({ hb := start maxSize idleTimeout maxLifetime }, [])).2,
        e.1.payloadJson = env.dump (frameDocument e) := by
    refine (stepsOf inputs).foldlRecOn (tagged env) (motive := fun x => Tagged env x ∧
      ∀ e ∈ x.2, e.1.payloadJson = env.dump (frameDocument e))
      ⟨⟨start_started maxSize idleTimeout maxLifetime, rfl, fun he => by cases he⟩,
        fun e he => by cases he⟩ fun x ⟨htagged, hpayload⟩ l _ => ⟨htagged.step l, fun e he => ?_⟩
    rcases List.mem_append.mp he with he | he
    · exact hpayload e he
    · exact payload_of_sentBy htagged.started.poolWf he
  have hrun : ((stepsOf inputs).foldl (tagged env)
      ({ hb := start maxSize idleTimeout maxLifetime }, [])).1 =
        of env (start maxSize idleTimeout maxLifetime) inputs := foldl_logged_fst
  refine ⟨?_, hend.2⟩
  rw [sentFrames, hend.1.frames, hrun, allFrames_of]

/-- **What the service reads.** If the JSON library writes texts that denote the documents, the
frames of the heartbeat are pumped in order, one thread dispatches them and none of the session is
dropped, then what is written on the connection of a session are the first frames that were sent on
it, and each of them has exactly one reading by the grammar of JSON: the settings or the text of the
request it was sent for. -/
theorem upstream_reads_requests (floats : F32 → JsonValue) (env : Env) (maxSize : Nat)
    (idleTimeout maxLifetime : Duration) (inputs : List TickInput) (events : List OutboundEvent)
    (sid : String) (hdump : WritesJson env.dump floats)
    (hpumped : pumpedFrames events <+: ((Heartbeat.run env
      (start maxSize idleTimeout maxLifetime) inputs).1.flatMap ChangeSet.wsFrames).map
        fun f => ⟨f.sessionId, f⟩)
    (hkeeps : Along step (Keeps sid) {} events) :
    ∃ sent, sent <+: (sentFrames env (start maxSize idleTimeout maxLifetime) inputs).filter
        (fun e => e.1.sessionId = sid) ∧
      List.Forall₂ (fun payload e => ∀ v, JsonText (utf8Bytes payload) v ↔
        v = (frameDocument e).sorted.meaning floats) ((run events).side sid).wire sent := by
  obtain ⟨hframes, hdocument⟩ := sentFrames_spec env maxSize idleTimeout maxLifetime inputs
  generalize sentFrames env (start maxSize idleTimeout maxLifetime) inputs = log at *
  rw [← hframes] at hpumped
  have hpayload : ∀ f ∈ log.map Prod.fst, f.payloadJson ≠ "" := by
    intro f hf
    obtain ⟨e, he, rfl⟩ := List.mem_map.mp hf
    rw [hdocument e he]
    exact hdump.ne_empty _
  have hwire := wire_prefix_frames hpayload hpumped hkeeps
  have hpayloads : (framesFor sid (log.map Prod.fst)).map OutWsFrame.payloadJson =
      (log.filter fun e => e.1.sessionId = sid).map fun e => e.1.payloadJson := by
    rw [framesFor, List.filter_map, List.map_map]
    rfl
  rw [hpayloads] at hwire
  have hwritten := List.prefix_iff_eq_take.mp hwire
  rw [← List.map_take] at hwritten
  refine ⟨_, List.take_prefix ((run events).side sid).wire.length _, ?_⟩
  have hsent : ∀ e ∈ (log.filter fun e => e.1.sessionId = sid).take
      ((run events).side sid).wire.length, e ∈ log := fun e he =>
    (List.mem_filter.mp (List.mem_of_mem_take he)).1
  generalize (log.filter fun e => e.1.sessionId = sid).take
    ((run events).side sid).wire.length = sent at hwritten hsent ⊢
  rw [hwritten, List.forall₂_map_left_iff, List.forall₂_same]
  intro e he v
  rw [hdocument e (hsent e he)]
  exact hdump.jsonText_iff _ v

/-- The sample environment with the texts of the serialiser. -/
def writingEnv : Env := { sampleEnv with dump := Json.dump FloatTexts.exact }

/-- The frames of the sample run are pumped, dispatched and written. -/
def writtenRun : List OutboundEvent :=
  [.addClient "s-0000000000000000", .setWsi "s-0000000000000000" true,
    .establish "s-0000000000000000", .serve "s-0000000000000000"] ++
  ((Heartbeat.run writingEnv (start 16 (seconds 60) (seconds 3600))
    History.reusingRun).1.flatMap ChangeSet.wsFrames).map .pump ++
  List.replicate 12 .dispatch ++
  (List.replicate 3 [.writeable "s-0000000000000000", .serve "s-0000000000000000",
    .serve "s-0000000000000000"]).flatten

/-- The three payloads written in this run are read as the frames of their requests. -/
theorem upstream_reads_requests_writtenRun :
    ((run writtenRun).side "s-0000000000000000").wire.length = 3 ∧
      ∃ sent, sent <+: (sentFrames writingEnv (start 16 (seconds 60) (seconds 3600))
          History.reusingRun).filter (fun e => e.1.sessionId = "s-0000000000000000") ∧
        List.Forall₂ (fun payload e => ∀ v, JsonText (utf8Bytes payload) v ↔
          v = (frameDocument e).sorted.meaning FloatTexts.exact.value)
          ((run writtenRun).side "s-0000000000000000").wire sent :=
  ⟨by decide +kernel, upstream_reads_requests FloatTexts.exact.value writingEnv 16 (seconds 60)
    (seconds 3600) History.reusingRun writtenRun _ (Json.writesJson_dump _) (by decide +kernel)
    (by decide +kernel)⟩

end WsTaskScheduler

end TtsServer
