import TtsServer.DoubleResampler
import TtsServer.FrameTexts
import TtsServer.StreamAnswers

/-!
# What a client hears

The local engine of the server runs a speech model. The numbers that the model yields are
quantised and brought to 16 kHz, the heartbeat thread copies the samples as bytes into an answer,
the heartbeat makes a response of it, the handler of the call takes the response from its queue
and sends it as a message to the client. This file follows the samples all the way: a client that
reads the bytes of its response as 16-bit integers, least significant byte first, hears what the
model has said for the text, the voice and the speed of its own request.

The arithmetic of the machine is a parameter, that of `float` freely and that of `double` up to
what its roundings do. The resampler is taken at rates whose ratio is not rounded up, where it
reads inside its input.
-/

namespace TtsServer

open Lib Heartbeat History AudioResampler

/-- `std::stoi`. -/
def stoi (s : Bytes) : Option ℤ :=
  (JwtVerifier.stoll s).filter fun n => decide (-2 ^ 31 ≤ n ∧ n < 2 ^ 31)

/-- The samples of a `SherpaOnnxGeneratedAudio`, whose number is an `int32_t`. -/
abbrev GeneratedAudio (α : Type) := { samples : List α // samples.length < 2 ^ 31 }

/-- The vector that the samples are copied into. -/
def GeneratedAudio.inSamples {α : Type} (audio : GeneratedAudio α) : FloatVector α :=
  ⟨audio.1, audio.2.trans (by norm_num)⟩

/-- `SherpaOnnxLocalTts` with a loaded model. -/
structure SherpaOnnxLocalTts (α : Type) where
  /-- The arithmetic of `float`. -/
  arith : FloatArith α
  /-- The arithmetic of `double`. -/
  double : DoubleArith
  /-- What the model yields for a text, a speaker and a speed, if it yields anything. -/
  generate : String → ℤ → F32 → Option (GeneratedAudio α)
  nativeSr : ℤ
  nativeSr_pos : 0 < nativeSr
  nativeSr_lt : nativeSr < 2 ^ 31
  /-- How long that takes. -/
  elapsedMs : String → ℤ → F32 → ℤ

/-- `tts.AudioMeta`. -/
structure Proto.AudioMeta where
  sampleRate : Int
  channels : Int
  format : Proto.AudioFormat
  audioLengthMs : Int
  audioSizeBytes : Int
  usageCharacters : Int

/-- `tts.SynthesizeResponse`. -/
structure Proto.SynthesizeResponse where
  audio : Bytes
  audioMeta : Proto.AudioMeta
  isFinal : Bool
  cumulativeBytes : Int
  statusCode : Int
  statusMsg : String
  traceId : String

/-- The format of a message. -/
def AudioFormat.toProto : AudioFormat → Proto.AudioFormat
  | .mp3 => .mp3
  | .pcm => .pcm
  | .flac => .flac
  | .wav => .wav
  | .unspecified => .unspecified

/-- `GrpcResponseWriter::to_proto`. -/
def WriteToClient.toProto (w : WriteToClient) : Proto.SynthesizeResponse where
  audio := w.audio
  audioMeta :=
    { sampleRate := w.sampleRate, channels := w.channels, format := w.format.toProto
      audioLengthMs := w.audioLengthMs, audioSizeBytes := w.audio.length
      usageCharacters := w.audioLengthMs }
  isFinal := w.isFinal
  cumulativeBytes := w.cumulativeBytes
  statusCode := w.statusCode
  statusMsg := w.statusMsg
  traceId := w.traceId

variable {α : Type}

namespace SherpaOnnxLocalTts

/-- The speaker that a voice stands for. -/
def speakerId (voiceId : String) : ℤ :=
  if voiceId = "" then 0 else (stoi (utf8Bytes voiceId)).getD 0

/-- `SherpaOnnxLocalTts::Synthesize`, configured for 16 kHz and one channel as `main` does. What
happens after a read outside the input of the resampler is left open by the language; the samples
are empty here. -/
def synthesize (e : SherpaOnnxLocalTts α) (text voiceId : String) (speed : F32) :
    LocalTtsResult :=
  let sid := speakerId voiceId
  let spd := if speed.isPos then speed else .one
  match e.generate text sid spd with
  | none => { statusCode := 1000, statusMsg := "local_generate_failed" }
  | some audio =>
    let samples := (e.double.to16kMonoInt16 e.arith 0 audio.inSamples e.nativeSr 1).getD []
    { samples := samples.map Int16.toBitVec
      statusMsg := "ok_local"
      usageMs := e.elapsedMs text sid spd
      durationMs := (Int32.ofInt (samples.length * 1000 / 16000)).toInt }

/-- The engine that the server is started with. -/
def engine (e : SherpaOnnxLocalTts α) : LocalTtsEngine where
  isReady := true
  synthesize := e.synthesize

end SherpaOnnxLocalTts

/-! ### The bytes of samples -/

/-- The samples that a client reads from the bytes of a response. -/
def pcmSamples : Bytes → List (BitVec 16)
  | low :: high :: rest => BitVec.ofNat 16 (low.toNat + 256 * high.toNat) :: pcmSamples rest
  | _ => []

/-- A client reads the samples that were written. -/
theorem pcmSamples_sampleBytes (samples : List (BitVec 16)) :
    pcmSamples (sampleBytes samples) = samples := by
  induction samples with
  | nil => rfl
  | cons s samples ih =>
    have hbytes : sampleBytes (s :: samples) =
        UInt8.ofNat (s.toNat % 256) :: UInt8.ofNat (s.toNat / 256) :: sampleBytes samples := rfl
    have hlow : (UInt8.ofNat (s.toNat % 256)).toNat = s.toNat % 256 := by
      rw [UInt8.toNat_ofNat']
      omega
    have hhigh : (UInt8.ofNat (s.toNat / 256)).toNat = s.toNat / 256 := by
      have hs := s.isLt
      rw [UInt8.toNat_ofNat']
      omega
    rw [hbytes, pcmSamples, ih, hlow, hhigh, Nat.mod_add_div, BitVec.ofNat_toNat,
      BitVec.setWidth_eq]

/-- A sample is two bytes. -/
theorem length_sampleBytes (samples : List (BitVec 16)) :
    (sampleBytes samples).length = 2 * samples.length := by
  induction samples with
  | nil => rfl
  | cons s samples ih =>
    rw [sampleBytes, List.flatMap_cons, List.length_append, List.length_cons]
    change 2 + (sampleBytes samples).length = 2 * (samples.length + 1)
    omega

/-! ### The samples of the engine -/

/-- The samples are those of the model, quantised. If the rate of the model is another one, they
are brought to 16 kHz: each lies within little more than one half of the line through the
quantised samples. -/
structure Converted (arith : FloatArith α) (audio : List α) (rate : ℤ) (out : List Int16) :
    Prop where
  length : (out.length : ℤ) = ⌈(audio.length : ℚ) * (16000 : ℤ) / rate⌉
  same : rate = 16000 → out = audio.map arith.toInt16
  near : rate ≠ 16000 → ∀ (i : ℕ) s, out[i]? = some s →
    |(s.toInt : ℚ) - DoubleArith.line (audio.map arith.toInt16) (i * rate / (16000 : ℤ))| ≤
      1 / 2 + audio.length / 2 ^ 33

/-- The number of samples that a model yields is no obstacle. -/
theorem GeneratedAudio.fits (audio : GeneratedAudio α) {rate : ℤ} (hpos : 0 < rate)
    (hlt : rate < 2 ^ 31) : DoubleArith.Fits audio.1.length rate 16000 where
  inputRate_pos := hpos
  inputRate_lt := hlt
  outputRate_pos := by norm_num
  outputRate_lt := by norm_num
  small := by
    have hlength := audio.2
    omega

/-- At a rate whose ratio is not rounded up, the conversion of the samples succeeds. -/
theorem exists_converted (arith : FloatArith α) {double : DoubleArith} (audio : GeneratedAudio α)
    {rate : ℤ} (hpos : 0 < rate) (hlt : rate < 2 ^ 31)
    (hdown : double.ratio rate 16000 ≤ (16000 : ℤ) / rate) :
    ∃ out, double.to16kMonoInt16 arith 0 audio.inSamples rate 1 = some out ∧
      Converted arith audio.1 rate out := by
  by_cases hempty : audio.1 = []
  · refine ⟨[], if_pos hempty, ?_, ?_, ?_⟩
    · simp [hempty]
    · simp [hempty]
    · simp
  have hto : double.to16kMonoInt16 arith 0 audio.inSamples rate 1 =
      if rate = 16000 then some (audio.1.map arith.toInt16)
      else double.resampleLinearInt16 (audio.1.map arith.toInt16) rate 16000 := by
    rw [DoubleArith.to16kMonoInt16]
    exact if_neg hempty
  rw [hto]
  by_cases hsame : rate = 16000
  · refine ⟨_, if_pos hsame, ?_, fun _ => rfl, fun hne => absurd hsame hne⟩
    rw [List.length_map, hsame, mul_div_cancel_right₀ _ (by norm_num), Int.ceil_natCast]
  · have hne : audio.1.map arith.toInt16 ≠ [] := by simpa using hempty
    have hfits : DoubleArith.Fits (audio.1.map arith.toInt16).length rate 16000 := by
      rw [List.length_map]
      exact audio.fits hpos hlt
    obtain ⟨out, hresample, hlength, hnear⟩ := DoubleArith.exists_resample hne hfits hsame hdown
    rw [List.length_map] at hlength hnear
    exact ⟨out, by rw [if_neg hsame, hresample], hlength, fun h => absurd h hsame, fun _ => hnear⟩

/-! ### The whole way -/

/-- What the model says for a request. -/
def SherpaOnnxLocalTts.speech (e : SherpaOnnxLocalTts α) (req : TtsRequestMsg) :
    Option (GeneratedAudio α) :=
  e.generate req.text (speakerId req.voice.voiceId)
    (if req.voice.speed.isPos then req.voice.speed else .one)

/-- The message carries what the model says for the request, or reports that it says nothing. -/
structure Carries (e : SherpaOnnxLocalTts α) (req : TtsRequestMsg)
    (r : Proto.SynthesizeResponse) : Prop where
  isFinal : r.isFinal = true
  silence : e.speech req = none → r.statusCode = 1000 ∧ r.audio = []
  speech : ∀ audio, e.speech req = some audio → r.statusCode = 0 ∧
    ∃ out, Converted e.arith audio.1 e.nativeSr out ∧
      pcmSamples r.audio = out.map Int16.toBitVec ∧
      r.audioMeta =
        { sampleRate := 16000, channels := 1, format := .pcm
          audioLengthMs := (Int32.ofInt (out.length * 1000 / 16000)).toInt
          audioSizeBytes := 2 * out.length
          usageCharacters := (Int32.ofInt (out.length * 1000 / 16000)).toInt } ∧
      r.cumulativeBytes = 2 * out.length

/-- The speed is looked at by the heartbeat and again by the engine, with the same outcome. -/
theorem generate_localJob (e : SherpaOnnxLocalTts α) (req : TtsRequestMsg) :
    e.generate (localJob req).text (SherpaOnnxLocalTts.speakerId (localJob req).voiceId)
        (if (localJob req).speed.isPos then (localJob req).speed else .one) = e.speech req := by
  have hspeed : (if (localJob req).speed.isPos then (localJob req).speed else .one) =
      (localJob req).speed := by
    unfold localJob
    cases hpos : req.voice.speed.isPos with
    | true => simp [hpos]
    | false => simp
  rw [hspeed]
  rfl

/-- The message for a request carries what the model says for it. -/
theorem carries_writeFor (e : SherpaOnnxLocalTts α)
    (hdown : e.double.ratio e.nativeSr 16000 ≤ (16000 : ℤ) / e.nativeSr) (req : TtsRequestMsg) :
    Carries e req (MainLoop.writeFor e.engine req).toProto := by
  have hgenerate := generate_localJob e req
  cases hspeech : e.speech req with
  | none =>
    rw [hspeech] at hgenerate
    have hresult : e.engine.synthesize (localJob req).text (localJob req).voiceId
        (localJob req).speed =
          { statusCode := 1000, statusMsg := "local_generate_failed" } := by
      simp only [SherpaOnnxLocalTts.engine, SherpaOnnxLocalTts.synthesize, hgenerate]
    have hwrite : MainLoop.writeFor e.engine req = failedWrite
        { requestId := req.requestId, statusCode := 1000
          statusMsg := "local_generate_failed" } := by
      rw [MainLoop.writeFor, jobWrite, hresult]
      rfl
    rw [hwrite]
    exact ⟨rfl, fun _ => ⟨rfl, rfl⟩, fun audio haudio => by simp [hspeech] at haudio⟩
  | some audio =>
    rw [hspeech] at hgenerate
    obtain ⟨out, hout, hconverted⟩ :=
      exists_converted e.arith audio e.nativeSr_pos e.nativeSr_lt hdown
    have hresult : e.engine.synthesize (localJob req).text (localJob req).voiceId
        (localJob req).speed =
          { samples := out.map Int16.toBitVec
            statusMsg := "ok_local"
            usageMs := e.elapsedMs (localJob req).text
              (SherpaOnnxLocalTts.speakerId (localJob req).voiceId)
              (if (localJob req).speed.isPos then (localJob req).speed else .one)
            durationMs := (Int32.ofInt (out.length * 1000 / 16000)).toInt } := by
      simp only [SherpaOnnxLocalTts.engine, SherpaOnnxLocalTts.synthesize, hgenerate, hout,
        Option.getD_some]
    have hwrite : MainLoop.writeFor e.engine req = completeWrite
        { requestId := req.requestId, audio := sampleBytes (out.map Int16.toBitVec)
          sampleRate := 16000, channels := 1, format := .pcm
          usageMs := (Int32.ofInt (out.length * 1000 / 16000)).toInt
          statusCode := 0, statusMsg := "ok_local" } := by
      rw [MainLoop.writeFor, jobWrite, hresult]
      rfl
    have hbytes : (sampleBytes (out.map Int16.toBitVec)).length = 2 * out.length := by
      rw [length_sampleBytes, List.length_map]
    rw [hwrite]
    refine ⟨rfl, fun hnone => by simp [hspeech] at hnone, fun audio' haudio' => ?_⟩
    obtain rfl := Option.some.inj (hspeech.symm.trans haudio')
    refine ⟨rfl, out, hconverted, pcmSamples_sampleBytes _, ?_, ?_⟩
    · simp [WriteToClient.toProto, completeWrite, AudioFormat.toProto, hbytes]
    · simp [WriteToClient.toProto, completeWrite, hbytes]

namespace Server

/-- **A client hears what the model says for its request.** In any interleaving of any number of
calls, chunks, upstream events and moves of the heartbeat thread, a stream call for the local
engine has received nothing, or one message. If the model yields nothing for the text, the voice
and the speed of the call's own request, the message reports the failure. Otherwise the bytes of
the message are the samples of the model, quantised and brought from its rate to 16 kHz by
interpolation in `double` arithmetic, and the message states their number and duration. -/
theorem stream_hears_model (e : SherpaOnnxLocalTts α)
    (hdown : e.double.ratio e.nativeSr 16000 ≤ (16000 : ℤ) / e.nativeSr) (env : Env)
    (hengine : env.localEngine = some e.engine) (maxSize : Nat)
    (idleTimeout maxLifetime : Duration) (events : List ServerEvent) {rid : String}
    {call : StreamCall}
    (hcall : (run env { hb := start maxSize idleTimeout maxLifetime } events).streams.lookup rid =
      some call) (hlocal : shouldUseLocal env call.request = true) :
    call.written = [] ∨
      ∃ w, call.written = [w] ∧ Carries e call.request w.toProto := by
  obtain ⟨k, rfl, hanswering⟩ :=
    answering_of_lookup hengine maxSize idleTimeout maxLifetime events hcall hlocal
  rcases hanswering.written_eq hcall with hnothing | hanswer
  · exact Or.inl hnothing
  · exact Or.inr ⟨_, hanswer, carries_writeFor e hdown call.request⟩

/-- A model that yields two samples at 22.05 kHz for every text. -/
def toneModel : SherpaOnnxLocalTts ℚ where
  arith := exact
  double := .binary64
  generate := fun _ _ _ => some ⟨[1 / 2, -1], by simp⟩
  nativeSr := 22050
  nativeSr_pos := by decide
  nativeSr_lt := by decide
  elapsedMs := fun _ _ _ => 1

/-- A call is answered with the two samples of the tone model. -/
theorem stream_hears_model_toneModel :
    ∃ call, (run { sampleEnv with localEngine := some toneModel.engine }
        { hb := start 16 (seconds 60) (seconds 3600) }
        (promptRun ++ [.drain "strm-1" 1])).streams.lookup "strm-1" = some call ∧
      call.written.length = 1 ∧
      (call.written = [] ∨
        ∃ w, call.written = [w] ∧ Carries toneModel call.request w.toProto) := by
  have hstate : ((run { sampleEnv with localEngine := some toneModel.engine }
      { hb := start 16 (seconds 60) (seconds 3600) }
      (promptRun ++ [.drain "strm-1" 1])).streams.lookup "strm-1").map (fun call =>
        (shouldUseLocal { sampleEnv with localEngine := some toneModel.engine } call.request,
          call.written.length)) = some (true, 1) := by
    decide +kernel
  obtain ⟨call, hcall, hfields⟩ := Option.map_eq_some_iff.mp hstate
  obtain ⟨hlocal, hlength⟩ := Prod.mk.inj hfields
  exact ⟨call, hcall, hlength, stream_hears_model toneModel (by decide +kernel) _ rfl 16
    (seconds 60) (seconds 3600) _ hcall hlocal⟩

end Server

end TtsServer
