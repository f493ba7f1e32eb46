import TtsServer.Messages

/-!
# The request parser

The gRPC entry turns protocol buffers into request messages. Enumerations of proto3 are
open, so each of them has a constructor for values outside the schema. An absent setting
arrives as the default value of its field and leaves the default of the request alone,
except for the pitch and the normalisation flag, which are always copied.
-/

namespace TtsServer

/-- The comparison `x != 0`: both zeros equal zero, and no NaN does. -/
def F32.isNonzero (x : F32) : Bool := x.bits.toNat % 0x80000000 ≠ 0

namespace Proto

/-- `tts.Model`. -/
inductive Model where
  | unspecified | speech28Hd | speech28Turbo | speech26Hd | speech26Turbo
  | speech02Hd | speech02Turbo | speech01Hd | speech01Turbo
  | unrecognized (value : Int)
  deriving DecidableEq, Repr

/-- `tts.AudioFormat`. -/
inductive AudioFormat where
  | unspecified | mp3 | pcm | flac | wav | pcmuRaw | pcmuWav | opus
  | unrecognized (value : Int)
  deriving DecidableEq, Repr

/-- `tts.Emotion`. -/
inductive Emotion where
  | unspecified | happy | sad | angry | fearful | disgusted | surprised | calm | fluent | whisper
  | unrecognized (value : Int)
  deriving DecidableEq, Repr

/-- `tts.Backend`. -/
inductive Backend where
  | unspecified | auto | localEngine | upstream
  | unrecognized (value : Int)
  deriving DecidableEq, Repr

/-- `tts.VoiceSetting`. -/
structure VoiceSetting where
  voiceId : String := ""
  speed : F32 := ⟨0⟩
  vol : F32 := ⟨0⟩
  pitch : Int := 0
  emotion : Emotion := .unspecified
  englishNormalization : Bool := false
  deriving DecidableEq, Repr

/-- `tts.AudioSetting`. -/
structure AudioSetting where
  sampleRate : Int := 0
  bitrate : Int := 0
  format : AudioFormat := .unspecified
  channel : Int := 0
  deriving DecidableEq, Repr

/-- `tts.SynthesizeRequest`, as far as the parser reads it. -/
structure SynthesizeRequest where
  text : String := ""
  model : Model := .unspecified
  voice : VoiceSetting := {}
  audio : AudioSetting := {}
  backend : Backend := .unspecified
  deriving DecidableEq, Repr

/-- `tts.TextChunk`: the cases of its body. -/
inductive TextChunk where
  | text (text : String)
  | finish
  | bodyNotSet
  deriving DecidableEq, Repr

end Proto

/-- `to_model`. -/
def toModel : Proto.Model → Model
  | .speech28Hd => .speech28Hd
  | .speech28Turbo => .speech28Turbo
  | .speech26Hd => .speech26Hd
  | .speech26Turbo => .speech26Turbo
  | .speech02Hd => .speech02Hd
  | .speech02Turbo => .speech02Turbo
  | .speech01Hd => .speech01Hd
  | .speech01Turbo => .speech01Turbo
  | _ => .unspecified

/-- `to_format`. -/
def toFormat : Proto.AudioFormat → AudioFormat
  | .mp3 => .mp3
  | .pcm => .pcm
  | .flac => .flac
  | .wav => .wav
  | _ => .unspecified

/-- The name of an emotion; values outside the schema have the empty name. -/
def emotionName : Proto.Emotion → String
  | .happy => "happy"
  | .sad => "sad"
  | .angry => "angry"
  | .fearful => "fearful"
  | .disgusted => "disgusted"
  | .surprised => "surprised"
  | .calm => "calm"
  | .fluent => "fluent"
  | .whisper => "whisper"
  | _ => ""

/-- `apply_voice`. -/
def applyVoice (src : Proto.VoiceSetting) (dst : VoiceSettings) : VoiceSettings where
  voiceId := if src.voiceId ≠ "" then src.voiceId else dst.voiceId
  speed := if src.speed.isNonzero then src.speed else dst.speed
  vol := if src.vol.isNonzero then src.vol else dst.vol
  pitch := src.pitch
  emotion := if src.emotion ≠ .unspecified then some (emotionName src.emotion) else dst.emotion
  englishNormalization := src.englishNormalization

/-- `apply_audio`. -/
def applyAudio (src : Proto.AudioSetting) (dst : AudioSettings) : AudioSettings where
  sampleRate := if src.sampleRate ≠ 0 then src.sampleRate else dst.sampleRate
  bitrate := if src.bitrate ≠ 0 then src.bitrate else dst.bitrate
  channel := if src.channel ≠ 0 then src.channel else dst.channel
  format := if src.format ≠ .unspecified then toFormat src.format else dst.format

/-- `enforce_audio_invariants`; the error is the text of the `ParseError`. -/
def enforceAudioInvariants (a : AudioSettings) : Except String Unit :=
  if a.sampleRate ≠ 8000 ∧ a.sampleRate ≠ 16000 then
    .error "sample_rate must be 8000 or 16000"
  else if a.channel ≠ 1 then .error "channel must be 1 (mono)"
  else if a.format ≠ .mp3 ∧ a.format ≠ .pcm then .error "format must be mp3 or pcm in MVP"
  else .ok ()

/-- `RequestParser::to_backend`. -/
def toBackend : Proto.Backend → Backend
  | .localEngine => .localEngine
  | .upstream => .upstream
  | _ => .auto

/-- `RequestParser::parse_unary`. -/
def parseUnary (proto : Proto.SynthesizeRequest) (requestId : String) :
    Except String TtsRequestMsg := do
  let audio := applyAudio proto.audio {}
  enforceAudioInvariants audio
  return {
    requestId, kind := .openStream, text := proto.text, model := toModel proto.model
    voice := applyVoice proto.voice {}, audio, backend := toBackend proto.backend }

/-- What `parse_chunk` fills in before it looks at the body: the settings of the stream for
its first chunk, and the defaults of a request for the others. -/
def chunkHead (requestId : String) (initialSettings : Proto.SynthesizeRequest)
    (firstChunk : Bool) : Except String TtsRequestMsg :=
  if firstChunk then do
    let audio := applyAudio initialSettings.audio {}
    enforceAudioInvariants audio
    return {
      requestId, kind := .openStream, model := toModel initialSettings.model
      voice := applyVoice initialSettings.voice {}, audio
      backend := toBackend initialSettings.backend }
  else return { requestId, kind := .streamChunk }

/-- `RequestParser::parse_chunk`. -/
def parseChunk (proto : Proto.TextChunk) (requestId : String)
    (initialSettings : Proto.SynthesizeRequest) (firstChunk : Bool) :
    Except String TtsRequestMsg := do
  let r ← chunkHead requestId initialSettings firstChunk
  match proto with
  | .text text => return { r with text }
  | .finish => return { r with kind := .finishStream, text := "" }
  | .bodyNotSet => return r

/-- Audio settings that the server accepts. -/
def AudioSettings.Accepted (a : AudioSettings) : Prop :=
  (a.sampleRate = 8000 ∨ a.sampleRate = 16000) ∧ a.channel = 1 ∧ (a.format = .mp3 ∨ a.format = .pcm)

/-- The check accepts exactly these settings. -/
theorem enforceAudioInvariants_eq_ok {a : AudioSettings} :
    enforceAudioInvariants a = .ok () ↔ a.Accepted := by
  unfold enforceAudioInvariants AudioSettings.Accepted
  split_ifs with hrate hchannel hformat
  · simp [hrate]
  · simp [hchannel]
  · simp [hformat]
  · simp only [true_iff]
    refine ⟨?_, not_not.mp hchannel, ?_⟩
    · by_contra hnot
      exact hrate (not_or.mp hnot)
    · by_contra hnot
      exact hformat (not_or.mp hnot)

/-- A request that the parser lets through has audio settings that the server accepts, and
carries what the client asks for. -/
theorem parseUnary_eq_ok {proto : Proto.SynthesizeRequest} {rid : String} {r : TtsRequestMsg}
    (hparse : parseUnary proto rid = .ok r) :
    (applyAudio proto.audio {}).Accepted ∧
      r = { requestId := rid, kind := .openStream, text := proto.text
            model := toModel proto.model, voice := applyVoice proto.voice {}
            audio := applyAudio proto.audio {}, backend := toBackend proto.backend } := by
  unfold parseUnary at hparse
  cases hcheck : enforceAudioInvariants (applyAudio proto.audio {}) with
  | error e => simp [hcheck, bind, Except.bind] at hparse
  | ok u =>
    simp only [hcheck, bind, Except.bind, pure, Except.pure, Except.ok.injEq] at hparse
    exact ⟨enforceAudioInvariants_eq_ok.mp hcheck, hparse.symm⟩

/-- The settings of a stream call that sets none are those of a request that sets none. -/
theorem chunkHead_default (rid : String) (firstChunk : Bool) :
    chunkHead rid {} firstChunk = .ok
      { requestId := rid, kind := if firstChunk then .openStream else .streamChunk
        model := if firstChunk then .unspecified else .speech28Turbo } := by
  cases firstChunk <;> rfl

/-- The text that a chunk asks to synthesise. -/
def Proto.TextChunk.spoken : Proto.TextChunk → String
  | .text content => content
  | .finish => ""
  | .bodyNotSet => ""

/-- The chunks of a call without settings are never refused, and differ for the heartbeat
in their text only: whatever its kind, a chunk becomes a request for synthesis. -/
theorem parseChunk_default (chunk : Proto.TextChunk) (rid : String) (firstChunk : Bool) :
    ∃ r, parseChunk chunk rid {} firstChunk = .ok r ∧ r.requestId = rid ∧
      r.text = chunk.spoken ∧ r.voice = {} ∧ r.audio = {} ∧ r.backend = .auto := by
  unfold parseChunk
  rw [chunkHead_default]
  cases chunk <;> exact ⟨_, rfl, rfl, rfl, rfl, rfl, rfl⟩

end TtsServer
