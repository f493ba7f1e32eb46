import Mathlib.Data.List.Basic

/-!
# Messages between the stages

The values that cross thread boundaries: requests parsed by the gRPC entry,
events reported by the upstream connection, answers of the local engine, and the
change set in which one heartbeat returns its side effects. Field defaults are
those of the C++ structures. Audio and hexadecimal text are byte strings;
identifiers are compared for equality only.
-/

namespace TtsServer

/-- Nanoseconds since the epoch of the steady clock. -/
abbrev TimePoint := Int

/-- A difference of time points. -/
abbrev Duration := Int

/-- A duration given in seconds. -/
def seconds (n : Int) : Duration := n * 1000000000

/-- A byte string. -/
abbrev Bytes := List UInt8

/-- The bytes of an ASCII text. -/
def ascii (s : String) : Bytes := s.toList.map fun c => UInt8.ofNat c.toNat

/-- An IEEE binary32 number, held as its bit pattern: the program only compares
speeds with zero and forwards them. -/
structure F32 where
  /-- Sign, exponent and fraction. -/
  bits : BitVec 32
  deriving DecidableEq, Repr

/-- The number `1.0f`. -/
def F32.one : F32 := ⟨0x3F800000⟩

/-- The comparison `x > 0`: the sign is clear and the magnitude is neither zero nor
above infinity, where the NaN patterns lie. -/
def F32.isPos (x : F32) : Bool := 0 < x.bits.toNat && x.bits.toNat ≤ 0x7F800000

/-- The speech models. -/
inductive Model where
  | unspecified | speech28Hd | speech28Turbo | speech26Hd | speech26Turbo
  | speech02Hd | speech02Turbo | speech01Hd | speech01Turbo
  deriving DecidableEq, Repr

/-- `to_string(Model)`. -/
def Model.toString : Model → String
  | .speech28Hd => "speech-2.8-hd"
  | .speech28Turbo => "speech-2.8-turbo"
  | .speech26Hd => "speech-2.6-hd"
  | .speech26Turbo => "speech-2.6-turbo"
  | .speech02Hd => "speech-02-hd"
  | .speech02Turbo => "speech-02-turbo"
  | .speech01Hd => "speech-01-hd"
  | .speech01Turbo => "speech-01-turbo"
  | .unspecified => ""

/-- The audio containers. -/
inductive AudioFormat where
  | unspecified | mp3 | pcm | flac | wav
  deriving DecidableEq, Repr

/-- `to_string(AudioFormat)`. -/
def AudioFormat.toString : AudioFormat → String
  | .mp3 => "mp3"
  | .pcm => "pcm"
  | .flac => "flac"
  | .wav => "wav"
  | .unspecified => ""

/-- The part of a stream a request message stands for. -/
inductive RequestKind where
  | openStream | streamChunk | finishStream
  deriving DecidableEq, Repr

/-- The backend a client asks for. -/
inductive Backend where
  | auto | localEngine | upstream
  deriving DecidableEq, Repr

/-- Voice settings of a request. -/
structure VoiceSettings where
  voiceId : String := "male-qn-qingse"
  speed : F32 := .one
  vol : F32 := .one
  pitch : Int := 0
  emotion : Option String := none
  englishNormalization : Bool := false
  deriving DecidableEq, Repr

/-- Audio settings of a request. -/
structure AudioSettings where
  sampleRate : Int := 16000
  bitrate : Int := 128000
  format : AudioFormat := .mp3
  channel : Int := 1
  deriving DecidableEq, Repr

/-- A synthesis request, as the entry hands it to the heartbeat. -/
structure TtsRequestMsg where
  requestId : String
  kind : RequestKind := .streamChunk
  text : String := ""
  model : Model := .speech28Turbo
  voice : VoiceSettings := {}
  audio : AudioSettings := {}
  backend : Backend := .auto
  deriving DecidableEq, Repr

/-- The kinds of events an upstream connection reports. -/
inductive WsEventKind where
  | connected | taskStarted | audioChunk | taskFinished | taskFailed | disconnected
  deriving DecidableEq, Repr

/-- An event of an upstream session. -/
structure TtsResponseMsg where
  sessionId : String
  requestId : String := ""
  kind : WsEventKind := .audioChunk
  audioHex : Bytes := []
  isFinal : Bool := false
  sampleRate : Int := 0
  channels : Int := 0
  usageCharacters : Int := 0
  statusCode : Int := 0
  statusMsg : String := ""
  traceId : String := ""
  deriving DecidableEq, Repr

/-- A client gives up its request. -/
structure CancelRequestMsg where
  requestId : String
  reason : String := ""
  deriving DecidableEq, Repr

/-- The local engine has synthesised a request. -/
structure LocalSynthCompleteMsg where
  requestId : String
  sessionId : String := ""
  audio : Bytes := []
  sampleRate : Int := 16000
  channels : Int := 1
  format : AudioFormat := .pcm
  usageMs : Int := 0
  statusCode : Int := 0
  statusMsg : String := ""
  deriving DecidableEq, Repr

/-- The local engine could not synthesise a request. -/
structure LocalSynthFailedMsg where
  requestId : String
  sessionId : String := ""
  statusCode : Int := 0
  statusMsg : String := ""
  deriving DecidableEq, Repr

/-- The variant carried by the request channel and the upstream event channel. -/
inductive Message where
  | request (req : TtsRequestMsg)
  | response (rsp : TtsResponseMsg)
  | cancel (msg : CancelRequestMsg)
  | localComplete (msg : LocalSynthCompleteMsg)
  | localFailed (msg : LocalSynthFailedMsg)
  deriving DecidableEq, Repr

/-- The identifier a message admits for synthesis. -/
def Message.requestId? : Message → Option String
  | .request req => some req.requestId
  | _ => none

/-- The identifier of the local job a message answers. -/
def Message.answerId? : Message → Option String
  | .localComplete msg => some msg.requestId
  | .localFailed msg => some msg.requestId
  | _ => none

/-- The identifier a message cancels. -/
def Message.cancelId? : Message → Option String
  | .cancel msg => some msg.requestId
  | _ => none

/-- Only requests admit an identifier. -/
theorem Message.requestId?_eq_some {m : Message} {id : String} :
    m.requestId? = some id ↔ ∃ req, m = .request req ∧ req.requestId = id := by
  cases m <;> simp [Message.requestId?]

/-- Only cancellations cancel an identifier. -/
theorem Message.cancelId?_eq_some {m : Message} {id : String} :
    m.cancelId? = some id ↔ ∃ msg, m = .cancel msg ∧ msg.requestId = id := by
  cases m <;> simp [Message.cancelId?]

/-- The operations on an upstream session. -/
inductive OutWsOp where
  | taskStart | taskContinue | taskFinish
  deriving DecidableEq, Repr

/-- A frame to send on an upstream session. -/
structure OutWsFrame where
  sessionId : String
  op : OutWsOp := .taskContinue
  payloadJson : String
  deriving DecidableEq, Repr

/-- A response to write to the client of a request. -/
structure WriteToClient where
  requestId : String
  audio : Bytes := []
  sampleRate : Int := 16000
  channels : Int := 1
  format : AudioFormat := .mp3
  isFinal : Bool := false
  cumulativeBytes : Int := 0
  audioLengthMs : Int := 0
  statusCode : Int := 0
  statusMsg : String := ""
  traceId : String := ""
  deriving DecidableEq, Repr

/-- An order to close an upstream session. -/
structure CloseSession where
  sessionId : String
  reason : String
  deriving DecidableEq, Repr

/-- A job for the local engine. -/
structure LocalSynthJob where
  requestId : String
  text : String
  voiceId : String
  speed : F32 := .one
  deriving DecidableEq, Repr

/-- The side effects collected by one heartbeat. -/
structure ChangeSet where
  wsFrames : List OutWsFrame := []
  clientWrites : List WriteToClient := []
  closeSessions : List CloseSession := []
  emitMessages : List Message := []
  localJobs : List LocalSynthJob := []
  deriving DecidableEq, Repr

/-- The number of side effects in a change set. -/
def ChangeSet.total (cs : ChangeSet) : Nat :=
  cs.wsFrames.length + cs.clientWrites.length + cs.closeSessions.length +
    cs.emitMessages.length + cs.localJobs.length

end TtsServer
