import TtsServer.FrameCodec
import TtsServer.History
import TtsServer.Lib.Loops
import TtsServer.RequestParser

/-!
# The settings of parsed requests

What the parser accepts goes to the upstream service as the document of `task_start`
without another check. The audio settings are then always valid. The model and the
emotion are so exactly if the client names them: a model that is unset, like any value
outside the schema, arrives as an empty name. Along a stream only the first chunk
carries the settings of the client; the others carry the defaults of a request.
-/

namespace TtsServer

open Lib

/-! ### The document of a task -/

/-- The member of an object. -/
def Json.member? (key : String) : Json → Option Json
  | .obj members => members.lookup key
  | _ => none

/-- The value at the end of a path of members. -/
def Json.at? (path : List String) (doc : Json) : Option Json :=
  path.foldlM (fun doc key => doc.member? key) doc

/-- The names of the speech models. -/
def speechModels : List String :=
  ["speech-2.8-hd", "speech-2.8-turbo", "speech-2.6-hd", "speech-2.6-turbo",
    "speech-02-hd", "speech-02-turbo", "speech-01-hd", "speech-01-turbo"]

/-- The names of the emotions. -/
def emotions : List String :=
  ["happy", "sad", "angry", "fearful", "disgusted", "surprised", "calm", "fluent", "whisper"]

/-- A document of `task_start` that the upstream service can serve. -/
structure WellFormedTaskStart (doc : Json) : Prop where
  sampleRate : doc.at? ["audio_setting", "sample_rate"] = some (.int 8000) ∨
    doc.at? ["audio_setting", "sample_rate"] = some (.int 16000)
  channel : doc.at? ["audio_setting", "channel"] = some (.int 1)
  format : doc.at? ["audio_setting", "format"] = some (.str "mp3") ∨
    doc.at? ["audio_setting", "format"] = some (.str "pcm")
  model : ∃ name ∈ speechModels, doc.at? ["model"] = some (.str name)
  emotion : doc.at? ["voice_setting", "emotion"] = none ∨
    ∃ name ∈ emotions, doc.at? ["voice_setting", "emotion"] = some (.str name)

/-- The document that the heartbeat sends for a request. -/
def TtsRequestMsg.taskStart (r : TtsRequestMsg) : Json :=
  encodeTaskStart r.model.toString r.voice r.audio

variable {proto : Proto.SynthesizeRequest} {rid : String} {r : TtsRequestMsg}

/-- The document shows the model, the emotion and the audio settings of the request. -/
theorem taskStart_at (r : TtsRequestMsg) :
    r.taskStart.at? ["model"] = some (.str r.model.toString) ∧
    r.taskStart.at? ["voice_setting", "emotion"] = r.voice.emotion.map Json.str ∧
    r.taskStart.at? ["audio_setting", "sample_rate"] = some (.int r.audio.sampleRate) ∧
    r.taskStart.at? ["audio_setting", "format"] = some (.str r.audio.format.toString) ∧
    r.taskStart.at? ["audio_setting", "channel"] = some (.int r.audio.channel) := by
  refine ⟨rfl, ?_, rfl, rfl, rfl⟩
  cases hemotion : r.voice.emotion with
  | none => simp [TtsRequestMsg.taskStart, encodeTaskStart, Json.at?, Json.member?, hemotion,
      List.lookup_cons]
  | some e => simp [TtsRequestMsg.taskStart, encodeTaskStart, Json.at?, Json.member?, hemotion,
      List.lookup_cons]

/-- The names of the accepted formats. -/
theorem format_toString_iff {format : AudioFormat} :
    (format.toString = "mp3" ↔ format = .mp3) ∧ (format.toString = "pcm" ↔ format = .pcm) := by
  cases format <;> decide

/-- The document of a request is well formed if the audio settings are accepted and the model
and the emotion have names. -/
theorem wellFormedTaskStart_iff :
    WellFormedTaskStart r.taskStart ↔
      r.audio.Accepted ∧ r.model.toString ∈ speechModels ∧
        ∀ e ∈ r.voice.emotion, e ∈ emotions := by
  obtain ⟨hmodel, hemotion, hrate, hformat, hchannel⟩ := taskStart_at r
  have hnames := @format_toString_iff r.audio.format
  constructor
  · rintro ⟨hrate', hchannel', hformat', ⟨name, hname, hmodel'⟩, hemotion'⟩
    simp only [hmodel, hemotion, hrate, hformat, hchannel, Option.some.injEq, Json.int.injEq,
      Json.str.injEq, hnames] at hrate' hchannel' hformat' hmodel' hemotion'
    refine ⟨⟨hrate', hchannel', hformat'⟩, hmodel' ▸ hname, fun e he => ?_⟩
    rw [Option.mem_def.mp he] at hemotion'
    obtain hnone | ⟨name, hname, hsome⟩ := hemotion'
    · cases hnone
    · simp only [Option.map_some, Option.some.injEq, Json.str.injEq] at hsome
      exact hsome ▸ hname
  · rintro ⟨⟨hrate', hchannel', hformat'⟩, hmodel', hemotion'⟩
    refine ⟨?_, ?_, ?_, ⟨_, hmodel', hmodel⟩, ?_⟩
    · simpa only [hrate, Option.some.injEq, Json.int.injEq] using hrate'
    · rw [hchannel, hchannel']
    · simpa only [hformat, Option.some.injEq, Json.str.injEq, hnames] using hformat'
    · rw [hemotion]
      cases hvalue : r.voice.emotion with
      | none => exact Or.inl rfl
      | some e => exact Or.inr ⟨e, hemotion' e hvalue, rfl⟩

/-- The model is one of the named values of the schema. -/
def Proto.Model.isNamed : Proto.Model → Bool
  | .unspecified => false
  | .unrecognized _ => false
  | _ => true

/-- The emotion is one of the values of the schema, possibly unspecified. -/
def Proto.Emotion.isKnown : Proto.Emotion → Bool
  | .unrecognized _ => false
  | _ => true

/-- Exactly the named models keep a name. -/
theorem toModel_named (m : Proto.Model) :
    (toModel m).toString ∈ speechModels ↔ m.isNamed = true := by
  cases m <;> simp [toModel, Model.toString, speechModels, Proto.Model.isNamed]

/-- Exactly the emotions of the schema are left out or keep a name. -/
theorem applyVoice_emotion (v : Proto.VoiceSetting) :
    (∀ e ∈ (applyVoice v {}).emotion, e ∈ emotions) ↔ v.emotion.isKnown = true := by
  unfold applyVoice
  cases v.emotion <;> simp [emotionName, emotions, Proto.Emotion.isKnown]

/-- The document built from a request that the parser lets through is well formed exactly if
the client names a model and names no emotion outside the schema. -/
theorem task_start_wellFormed_iff (hparse : parseUnary proto rid = .ok r) :
    WellFormedTaskStart (encodeTaskStart r.model.toString r.voice r.audio) ↔
      proto.model.isNamed = true ∧ proto.voice.emotion.isKnown = true := by
  obtain ⟨haccepted, hr⟩ := parseUnary_eq_ok hparse
  change WellFormedTaskStart r.taskStart ↔ _
  rw [wellFormedTaskStart_iff, hr, and_iff_right haccepted, toModel_named, applyVoice_emotion]

/-- A request that names a model and an emotion. -/
theorem task_start_wellFormed_iff_sad :
    parseUnary { model := .speech02Hd, voice.emotion := .sad } "r" = .ok
        { requestId := "r", kind := .openStream, model := .speech02Hd
          voice := { emotion := some "sad" } } ∧
      WellFormedTaskStart
        (encodeTaskStart (Model.speech02Hd).toString { emotion := some "sad" } {}) :=
  ⟨rfl, (@task_start_wellFormed_iff { model := .speech02Hd, voice.emotion := .sad } "r" _ rfl).mpr
    ⟨rfl, rfl⟩⟩

/-- A request that sets nothing is accepted, and its document names no model. -/
theorem task_start_unset_model :
    parseUnary {} "r" = .ok { requestId := "r", kind := .openStream, model := .unspecified } ∧
      (encodeTaskStart Model.unspecified.toString {} {}).at? ["model"] = some (.str "") ∧
      ¬WellFormedTaskStart (encodeTaskStart Model.unspecified.toString {} {}) := by
  refine ⟨rfl, rfl, fun h => ?_⟩
  obtain ⟨name, hname, hmodel⟩ := h.model
  obtain rfl : "" = name := Json.str.inj (Option.some.inj hmodel)
  exact absurd hname (by decide)

/-! ### The settings along a stream -/

/-- The requests of a stream: its first chunk is parsed as such, the others are not. -/
def streamRequests (requestId : String) (initialSettings : Proto.SynthesizeRequest) :
    List Proto.TextChunk → Except String (List TtsRequestMsg)
  | [] => return []
  | first :: rest => do
    let r ← parseChunk first requestId initialSettings true
    let rs ← rest.mapM fun chunk => parseChunk chunk requestId initialSettings false
    return r :: rs

/-- The settings of a request. -/
structure Settings where
  model : Model := .speech28Turbo
  voice : VoiceSettings := {}
  audio : AudioSettings := {}
  backend : Backend := .auto
  deriving DecidableEq, Repr

/-- The settings that a request message carries. -/
def TtsRequestMsg.settings (r : TtsRequestMsg) : Settings :=
  { model := r.model, voice := r.voice, audio := r.audio, backend := r.backend }

/-- The settings that the first chunk of a stream takes from the call. -/
def Proto.SynthesizeRequest.settings (initial : Proto.SynthesizeRequest) : Settings where
  model := toModel initial.model
  voice := applyVoice initial.voice {}
  audio := applyAudio initial.audio {}
  backend := toBackend initial.backend

/-- All requests carry the same settings. -/
def SameSettings (rs : List TtsRequestMsg) : Prop :=
  ∀ r ∈ rs, ∀ r' ∈ rs, r.settings = r'.settings

/-- All requests go to the same backend, whichever engine the heartbeat has. -/
def SameRoute (rs : List TtsRequestMsg) : Prop :=
  ∀ env, ∀ r ∈ rs, ∀ r' ∈ rs, Heartbeat.shouldUseLocal env r = Heartbeat.shouldUseLocal env r'

/-- The call asks for nothing but the defaults of a request: each field is unset or holds the
default. The model has to be named, as an unset one is not replaced. -/
structure AsksForDefaults (initial : Proto.SynthesizeRequest) : Prop where
  model : initial.model = .speech28Turbo
  voiceId : initial.voice.voiceId = "" ∨ initial.voice.voiceId = "male-qn-qingse"
  speed : initial.voice.speed.isNonzero = false ∨ initial.voice.speed = .one
  vol : initial.voice.vol.isNonzero = false ∨ initial.voice.vol = .one
  pitch : initial.voice.pitch = 0
  emotion : initial.voice.emotion = .unspecified
  englishNormalization : initial.voice.englishNormalization = false
  sampleRate : initial.audio.sampleRate = 0 ∨ initial.audio.sampleRate = 16000
  bitrate : initial.audio.bitrate = 0 ∨ initial.audio.bitrate = 128000
  format : initial.audio.format = .unspecified ∨ initial.audio.format = .mp3
  channel : initial.audio.channel = 0 ∨ initial.audio.channel = 1
  backend : initial.backend ≠ .localEngine ∧ initial.backend ≠ .upstream

variable {initial : Proto.SynthesizeRequest} {chunk : Proto.TextChunk}
  {chunks : List Proto.TextChunk} {rs : List TtsRequestMsg}

/-- The voice settings are the defaults exactly if each field is unset or holds its default. -/
theorem applyVoice_eq_default {v : Proto.VoiceSetting} :
    applyVoice v {} = {} ↔
      (v.voiceId = "" ∨ v.voiceId = "male-qn-qingse") ∧
      (v.speed.isNonzero = false ∨ v.speed = .one) ∧ (v.vol.isNonzero = false ∨ v.vol = .one) ∧
      v.pitch = 0 ∧ v.emotion = .unspecified ∧ v.englishNormalization = false := by
  have hid : (if v.voiceId ≠ "" then v.voiceId else "male-qn-qingse") = "male-qn-qingse" ↔
      v.voiceId = "" ∨ v.voiceId = "male-qn-qingse" := by
    by_cases h : v.voiceId = "" <;> simp [h]
  have hnumber (x : F32) : (if x.isNonzero = true then x else .one) = .one ↔
      x.isNonzero = false ∨ x = .one := by
    cases h : x.isNonzero <;> simp
  have hemotion : (if v.emotion ≠ .unspecified then some (emotionName v.emotion) else none) =
      none ↔ v.emotion = .unspecified := by
    by_cases h : v.emotion = .unspecified <;> simp [h]
  rw [applyVoice, VoiceSettings.mk.injEq, hid, hnumber, hnumber, hemotion]

/-- The audio settings are the defaults exactly if each field is unset or holds its default. -/
theorem applyAudio_eq_default {a : Proto.AudioSetting} :
    applyAudio a {} = {} ↔
      (a.sampleRate = 0 ∨ a.sampleRate = 16000) ∧ (a.bitrate = 0 ∨ a.bitrate = 128000) ∧
      (a.format = .unspecified ∨ a.format = .mp3) ∧ (a.channel = 0 ∨ a.channel = 1) := by
  have hnumber (x default : Int) : (if x ≠ 0 then x else default) = default ↔
      x = 0 ∨ x = default := by
    by_cases h : x = 0 <;> simp [h]
  have hformat : (if a.format ≠ .unspecified then toFormat a.format else .mp3) = .mp3 ↔
      a.format = .unspecified ∨ a.format = .mp3 := by
    cases a.format <;> simp [toFormat]
  rw [applyAudio, AudioSettings.mk.injEq, hnumber, hnumber, hnumber, hformat]

/-- The settings of the call are the defaults exactly if the call asks for them. -/
theorem settings_eq_default_iff : initial.settings = {} ↔ AsksForDefaults initial := by
  have hmodel : toModel initial.model = .speech28Turbo ↔ initial.model = .speech28Turbo := by
    cases initial.model <;> simp [toModel]
  have hbackend : toBackend initial.backend = .auto ↔
      initial.backend ≠ .localEngine ∧ initial.backend ≠ .upstream := by
    cases initial.backend <;> simp [toBackend]
  rw [Proto.SynthesizeRequest.settings, Settings.mk.injEq, hmodel, hbackend,
    applyVoice_eq_default, applyAudio_eq_default]
  constructor
  · rintro ⟨hmodel, ⟨hid, hspeed, hvol, hpitch, hemotion, henglish⟩,
      ⟨hrate, hbitrate, hformat, hchannel⟩, hbackend⟩
    exact ⟨hmodel, hid, hspeed, hvol, hpitch, hemotion, henglish, hrate, hbitrate, hformat,
      hchannel, hbackend⟩
  · intro h
    exact ⟨h.model, ⟨h.voiceId, h.speed, h.vol, h.pitch, h.emotion, h.englishNormalization⟩,
      ⟨h.sampleRate, h.bitrate, h.format, h.channel⟩, h.backend⟩

/-- The first chunk carries the settings of the call. -/
theorem parseChunk_first (hparse : parseChunk chunk rid initial true = .ok r) :
    r.settings = initial.settings := by
  unfold parseChunk chunkHead at hparse
  cases hcheck : enforceAudioInvariants (applyAudio initial.audio {}) with
  | error e => simp [hcheck, bind, Except.bind] at hparse
  | ok u =>
    simp only [hcheck, if_true, bind, Except.bind, pure, Except.pure] at hparse
    cases chunk <;> cases hparse <;> rfl

/-- Every other chunk is accepted and carries the defaults. -/
theorem parseChunk_later (chunk : Proto.TextChunk) (rid : String)
    (initial : Proto.SynthesizeRequest) :
    ∃ r, parseChunk chunk rid initial false = .ok r ∧ r.settings = {} := by
  cases chunk <;> exact ⟨_, rfl, rfl⟩

/-- The chunks after the first are all accepted and carry the defaults. -/
theorem mapM_parseChunk_later (chunks : List Proto.TextChunk) (rid : String)
    (initial : Proto.SynthesizeRequest) :
    ∃ rs, chunks.mapM (fun chunk => parseChunk chunk rid initial false) = .ok rs ∧
      rs.length = chunks.length ∧ ∀ r ∈ rs, r.settings = {} := by
  obtain ⟨rs, hrs, hall⟩ := exists_mapM fun chunk (_ : chunk ∈ chunks) =>
    parseChunk_later chunk rid initial
  refine ⟨rs, hrs, hall.length_eq.symm, fun r hr => ?_⟩
  obtain ⟨i, rfl⟩ := List.mem_iff_get.mp hr
  have hi : i < chunks.length := by
    rw [hall.length_eq]
    exact i.2
  exact (List.forall₂_iff_get.mp hall).2 i hi i.2

/-- A stream that is accepted yields a request with the settings of the call and, for the other
chunks, requests with the defaults. -/
theorem streamRequests_eq_ok (hparse : streamRequests rid initial chunks = .ok rs) :
    (chunks = [] ∧ rs = []) ∨ ∃ r later, rs = r :: later ∧ later.length + 1 = chunks.length ∧
      r.settings = initial.settings ∧ ∀ r' ∈ later, r'.settings = {} := by
  cases chunks with
  | nil =>
    cases hparse
    exact Or.inl ⟨rfl, rfl⟩
  | cons first rest =>
    obtain ⟨later, hlater, hlength, hsettings⟩ := mapM_parseChunk_later rest rid initial
    cases hfirst : parseChunk first rid initial true with
    | error e => simp [streamRequests, hfirst, bind, Except.bind] at hparse
    | ok r =>
      simp only [streamRequests, hfirst, hlater, bind, Except.bind, pure, Except.pure,
        Except.ok.injEq] at hparse
      exact Or.inr ⟨r, later, hparse.symm, congrArg (· + 1) hlength, parseChunk_first hfirst,
        hsettings⟩

/-- Requests with the same settings take the same route. -/
theorem SameSettings.sameRoute (h : SameSettings rs) : SameRoute rs := by
  intro env r hr r' hr'
  have hbackend : r.backend = r'.backend := congrArg Settings.backend (h r hr r' hr')
  unfold Heartbeat.shouldUseLocal
  rw [hbackend]

/-- The requests of a stream carry the same settings, and so take the same route, exactly if
the stream has at most one chunk or its call asks for nothing but the defaults. -/
theorem stream_settings_constant_iff (hparse : streamRequests rid initial chunks = .ok rs) :
    SameSettings rs ∧ SameRoute rs ↔ chunks.length ≤ 1 ∨ AsksForDefaults initial := by
  rw [and_iff_left_of_imp SameSettings.sameRoute, ← settings_eq_default_iff]
  obtain ⟨rfl, rfl⟩ | ⟨r, later, rfl, hlength, hfirst, hlater⟩ := streamRequests_eq_ok hparse
  · simp [SameSettings]
  · constructor
    · intro hsame
      cases later with
      | nil =>
        left
        simp only [List.length_nil] at hlength
        omega
      | cons r' later =>
        right
        rw [← hfirst, hsame r (by simp) r' (by simp)]
        exact hlater r' (by simp)
    · rintro (hshort | hdefaults)
      · have hnil : later = [] := List.eq_nil_of_length_eq_zero (by omega)
        subst hnil
        simp [SameSettings]
      · have hall : ∀ r' ∈ r :: later, r'.settings = {} := by
          refine List.forall_mem_cons.mpr ⟨hfirst.trans hdefaults, hlater⟩
        intro r₁ hr₁ r₂ hr₂
        rw [hall r₁ hr₁, hall r₂ hr₂]

/-- A call that asks for the default model and nothing else. -/
theorem stream_settings_constant_iff_turbo :
    streamRequests "cli-1" { model := .speech28Turbo } [.text "a", .finish] = .ok
        [{ requestId := "cli-1", kind := .openStream, text := "a" },
          { requestId := "cli-1", kind := .finishStream }] ∧
      SameSettings [{ requestId := "cli-1", kind := .openStream, text := "a" },
        { requestId := "cli-1", kind := .finishStream }] := by
  refine ⟨rfl, ((@stream_settings_constant_iff "cli-1" { model := .speech28Turbo }
    [.text "a", .finish] _ rfl).mpr (Or.inr ?_)).1⟩
  exact ⟨rfl, .inl rfl, .inl (by decide), .inl (by decide), rfl, rfl, rfl, .inl rfl, .inl rfl,
    .inl rfl, .inl rfl, by decide⟩

/-- A call that asks for the upstream service has its first chunk sent there and its second
one synthesised locally. A call that sets nothing, the only one that the service makes, has
chunks with different models. -/
theorem stream_settings_change :
    (∃ rs, streamRequests "cli-1" { model := .speech28Turbo, backend := .upstream }
        [.text "a", .text "b"] = .ok rs ∧
      rs.map (Heartbeat.shouldUseLocal sampleLocalEnv) = [false, true] ∧
      ¬SameSettings rs ∧ ¬SameRoute rs) ∧
    ∃ rs, streamRequests "cli-1" {} [.text "a", .text "b"] = .ok rs ∧
      rs.map (·.model) = [.unspecified, .speech28Turbo] ∧ ¬SameSettings rs := by
  refine ⟨⟨_, rfl, rfl, fun hsame => ?_, fun hsame => ?_⟩, ⟨_, rfl, rfl, fun hsame => ?_⟩⟩
  · have hsettings := hsame _ List.mem_cons_self _ (List.mem_cons_of_mem _ List.mem_cons_self)
    exact absurd (congrArg Settings.backend hsettings) (by decide)
  · have hroute := hsame sampleLocalEnv _ List.mem_cons_self _
      (List.mem_cons_of_mem _ List.mem_cons_self)
    exact absurd hroute (by decide)
  · have hsettings := hsame _ List.mem_cons_self _ (List.mem_cons_of_mem _ List.mem_cons_self)
    exact absurd (congrArg Settings.model hsettings) (by decide)

end TtsServer
