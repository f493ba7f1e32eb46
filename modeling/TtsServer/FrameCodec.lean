import TtsServer.Messages

/-!
# Frames of the upstream protocol

The codec builds JSON documents and serialises them with the JSON library. The
documents are modelled; their serialisation is a parameter of the model.
-/

namespace TtsServer

/-- The JSON values the codec builds. Members are listed in the order in which the
codec assigns them. -/
inductive Json where
  | str (s : String)
  | int (n : Int)
  | float (x : F32)
  | bool (b : Bool)
  | obj (members : List (String × Json))

/-- The document of `encode_task_start`. -/
def encodeTaskStart (model : String) (v : VoiceSettings) (a : AudioSettings) : Json :=
  .obj [
    ("event", .str "task_start"),
    ("model", .str model),
    ("voice_setting", .obj ([
      ("voice_id", .str v.voiceId),
      ("speed", .float v.speed),
      ("vol", .float v.vol),
      ("pitch", .int v.pitch)] ++
      (v.emotion.map fun e => ("emotion", Json.str e)).toList ++
      [("english_normalization", .bool v.englishNormalization)])),
    ("audio_setting", .obj [
      ("sample_rate", .int a.sampleRate),
      ("bitrate", .int a.bitrate),
      ("format", .str a.format.toString),
      ("channel", .int a.channel)])]

/-- The document of `encode_task_continue`. -/
def encodeTaskContinue (text : String) : Json :=
  .obj [("event", .str "task_continue"), ("text", .str text)]

end TtsServer
