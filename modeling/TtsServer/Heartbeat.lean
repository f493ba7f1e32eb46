import Mathlib.Data.List.Sort
import TtsServer.Evolution
import TtsServer.FrameCodec
import TtsServer.HexCodec

/-!
# The heartbeat

One heartbeat drains both channels, dispatches every message to its handler,
emits the completed requests, evolves the board and returns the collected change
set. What the heartbeat is constructed with, and the sources of time and chance
it draws on, form the environment: the steady clock and the random generator are
arbitrary sequences of which the state records how many values have been drawn.
-/

namespace TtsServer

/-- The result of a synthesis by the local engine. -/
structure LocalTtsResult where
  samples : List (BitVec 16) := []
  sampleRate : Int := 16000
  channels : Int := 1
  durationMs : Int := 0
  usageMs : Int := 0
  statusCode : Int := 0
  statusMsg : String := ""

/-- A local synthesis engine: whether it is ready, which is fixed when the engine is
constructed, and the result for a text, a voice and a speed. -/
structure LocalTtsEngine where
  isReady : Bool
  synthesize : String → String → F32 → LocalTtsResult

/-- What a heartbeat is constructed with. -/
structure Env where
  highWatermark : UInt64 := 1024
  lowWatermark : UInt64 := 512
  queueHighWatermark : UInt64 := 2048
  localEngine : Option LocalTtsEngine := none
  preferLocal : Bool := true
  /-- The serialisation of JSON documents. -/
  dump : Json → String
  /-- The readings of the steady clock inside the data board. -/
  steadyClock : Nat → TimePoint
  /-- The values of the random generator behind session identifiers. -/
  rng : Nat → UInt64

/-- The events published by the heartbeat. -/
inductive BusEvent where
  | wsFrameSendFailed (sessionId error : String)
  | heartbeatTick (durationUs batchSize changesetSize : Nat)
  deriving DecidableEq, Repr

/-- The state of the heartbeat: the board, the change set under construction, the
two sets of touched identifiers that `tick` keeps, the published events, and how
much of the environment has been consumed. -/
structure Heartbeat where
  board : DataBoard
  changeset : ChangeSet := {}
  changedSessions : List String := []
  changedRequests : List String := []
  published : List BusEvent := []
  steadyReads : Nat := 0
  rngDraws : Nat := 0
  count : UInt64 := 0
  lastDurationUs : UInt64 := 0

/-- Insertion into a `std::set<std::string>`, kept in increasing order. -/
def setInsert (x : String) (l : List String) : List String :=
  if x ∈ l then l else l.orderedInsert (· ≤ ·) x

/-- The elements of a set after an insertion. -/
@[simp] theorem mem_setInsert {x y : String} {l : List String} :
    y ∈ setInsert x l ↔ y = x ∨ y ∈ l := by
  unfold setInsert
  split
  · rename_i h
    constructor
    · exact Or.inr
    · rintro (rfl | hy)
      · exact h
      · exact hy
  · simp

namespace Heartbeat

variable (env : Env)

/-! ### Admission -/

/-- The decision of the backpressure controller. -/
structure Decision where
  admitted : Bool := true
  level : UInt64 := 0

/-- `BackpressureController::evaluate`. -/
def evaluate (metrics : MetricsSnapshot) : Decision × MetricsSnapshot :=
  let level := max metrics.inflight metrics.queued
  if metrics.inflight ≥ env.highWatermark ∨ metrics.queued ≥ env.queueHighWatermark then
    (⟨false, level⟩, metrics.setBackpressureLevel 2)
  else if metrics.inflight ≥ env.lowWatermark then
    (⟨true, level⟩, metrics.setBackpressureLevel 1)
  else (⟨true, level⟩, metrics.setBackpressureLevel 0)

/-- `should_use_local`. -/
def shouldUseLocal (req : TtsRequestMsg) : Bool :=
  if !(env.localEngine.any fun engine => engine.isReady) then false
  else if req.backend = .upstream then false
  else if req.backend = .localEngine then true
  else env.preferLocal

/-- `bus_->publish_async` and `bus_->publish_sync`. -/
def publish (hb : Heartbeat) (ev : BusEvent) : Heartbeat :=
  { hb with published := hb.published ++ [ev] }

/-- The value of a pending request that `handle_request` stores for the local engine. -/
def localPending (req : TtsRequestMsg) : PendingRequest :=
  { requestId := req.requestId, state := .streaming, sampleRate := req.audio.sampleRate,
    channels := req.audio.channel, format := .pcm }

/-- The job that `handle_request` hands to the local engine. -/
def localJob (req : TtsRequestMsg) : LocalSynthJob :=
  { requestId := req.requestId, text := req.text, voiceId := req.voice.voiceId,
    speed := if req.voice.speed.isPos then req.voice.speed else .one }

/-- The local branch of `handle_request`. -/
def admitLocal (req : TtsRequestMsg) (hb : Heartbeat) : Heartbeat :=
  let pending := match hb.board.pending.get req.requestId with
    | none => hb.board.pending.add (localPending req) (env.steadyClock hb.steadyReads)
    | some _ => hb.board.pending.update req.requestId fun p =>
        { p with sampleRate := req.audio.sampleRate, channels := req.audio.channel,
                 format := .pcm, state := .streaming }
  { hb with
    board.pending := pending
    board.metrics := hb.board.metrics.incInflight
    steadyReads := hb.steadyReads + 1
    changedRequests := setInsert req.requestId hb.changedRequests
    changeset.localJobs := hb.changeset.localJobs ++ [localJob req] }

/-! ### Sessions -/

/-- A session handed to a request. -/
structure SessionHandle where
  sessionId : String
  reused : Bool := false

/-- `generate_session_id`: the format `s-%016llx`. -/
def generateSessionId (word : UInt64) : String :=
  let digits := Nat.toDigits 16 word.toNat
  "s-" ++ String.ofList (List.replicate (16 - digits.length) '0' ++ digits)

/-- `acquire_or_create_session`: reuse the least recently used ready session, or
create one; the handle is empty when the pool is full. -/
def acquireOrCreateSession (hb : Heartbeat) : SessionHandle × Heartbeat :=
  match hb.board.sessionPool.findIdleLeastRecentlyUsed with
  | some idle =>
    (⟨idle.sessionId, true⟩, { hb with
      board.sessionPool :=
        hb.board.sessionPool.markActive idle.sessionId (env.steadyClock hb.steadyReads)
      steadyReads := hb.steadyReads + 1 })
  | none =>
    let sid := generateSessionId (env.rng hb.rngDraws)
    let added := hb.board.sessionPool.add { sessionId := sid, state := .connecting }
    (⟨if added.1 then sid else "", false⟩,
      { hb with board.sessionPool := added.2, rngDraws := hb.rngDraws + 1 })

/-- The value of a pending request that `bind_request` stores. -/
def boundPending (rid sid : String) (req : TtsRequestMsg) : PendingRequest :=
  { requestId := rid, sessionId := sid, state := .awaitingSession,
    sampleRate := req.audio.sampleRate, channels := req.audio.channel,
    format := req.audio.format }

/-- `bind_request`. -/
def bindRequest (rid : String) (h : SessionHandle) (req : TtsRequestMsg) (hb : Heartbeat) :
    Heartbeat :=
  { hb with
    board.pending := hb.board.pending.add (boundPending rid h.sessionId req)
      (env.steadyClock hb.steadyReads)
    board.metrics := hb.board.metrics.incInflight
    steadyReads := hb.steadyReads + 1 }

/-- The frames that start a session and hand it a text. -/
def taskFrames (h : SessionHandle) (req : TtsRequestMsg) : List OutWsFrame :=
  (if h.reused then [] else
    [{ sessionId := h.sessionId, op := .taskStart,
       payloadJson := env.dump (encodeTaskStart req.model.toString req.voice req.audio) }]) ++
  [{ sessionId := h.sessionId, op := .taskContinue,
     payloadJson := env.dump (encodeTaskContinue req.text) }]

/-- The upstream branch of `handle_request`. -/
def admitUpstream (req : TtsRequestMsg) (hb : Heartbeat) : Heartbeat :=
  let acquired := acquireOrCreateSession env hb
  let h := acquired.1
  if h.sessionId = "" then
    acquired.2.publish (.wsFrameSendFailed req.requestId "no_session_available")
  else
    let hb := bindRequest env req.requestId h req acquired.2
    { hb with
      changedSessions := setInsert h.sessionId hb.changedSessions
      changedRequests := setInsert req.requestId hb.changedRequests
      board.sessionPool := hb.board.sessionPool.setCurrentRequest h.sessionId req.requestId
      changeset.wsFrames := hb.changeset.wsFrames ++ taskFrames env h req }

/-- `handle_request`. -/
def handleRequest (req : TtsRequestMsg) (hb : Heartbeat) : Heartbeat :=
  let decision := evaluate env hb.board.metrics
  let hb := { hb with board.metrics := decision.2 }
  if !decision.1.admitted then
    hb.publish (.wsFrameSendFailed req.requestId "backpressure_admission_denied")
  else if shouldUseLocal env req then admitLocal env req hb
  else admitUpstream env req hb

/-! ### Answers of the local engine -/

/-- The response for a completed local synthesis. -/
def completeWrite (c : LocalSynthCompleteMsg) : WriteToClient :=
  { requestId := c.requestId, audio := c.audio, sampleRate := c.sampleRate,
    channels := c.channels, format := c.format, isFinal := true,
    cumulativeBytes := c.audio.length, audioLengthMs := c.usageMs,
    statusCode := c.statusCode, statusMsg := c.statusMsg }

/-- The response for a failed local synthesis. -/
def failedWrite (f : LocalSynthFailedMsg) : WriteToClient :=
  { requestId := f.requestId, isFinal := true, sampleRate := 16000, channels := 1,
    format := .pcm, statusCode := f.statusCode, statusMsg := f.statusMsg }

/-- `handle_local_complete`. -/
def handleLocalComplete (c : LocalSynthCompleteMsg) (hb : Heartbeat) : Heartbeat :=
  { hb with
    changeset.clientWrites := hb.changeset.clientWrites ++ [completeWrite c]
    board.metrics := (hb.board.metrics.addAudioBytes (UInt64.ofNat c.audio.length)).decInflight
    board.pending := hb.board.pending.remove c.requestId }

/-- `handle_local_failed`. -/
def handleLocalFailed (f : LocalSynthFailedMsg) (hb : Heartbeat) : Heartbeat :=
  { hb with
    changeset.clientWrites := hb.changeset.clientWrites ++ [failedWrite f]
    board.metrics := hb.board.metrics.incFailedRequests.decInflight
    board.pending := hb.board.pending.remove f.requestId
    changedRequests := setInsert f.requestId hb.changedRequests }

/-! ### Upstream events -/

/-- The body of the loop over the requests of a failed task. -/
def failTask (rsp : TtsResponseMsg) (hb : Heartbeat) (rid : String) : Heartbeat :=
  { hb with
    board.pending := (hb.board.pending.setState rid .failed).update rid fun p =>
      { p with statusCode := rsp.statusCode, statusMsg := rsp.statusMsg }
    board.metrics := hb.board.metrics.incFailedRequests
    changedRequests := setInsert rid hb.changedRequests }

/-- The body of the loop over the requests of a lost session. -/
def failLost (hb : Heartbeat) (rid : String) : Heartbeat :=
  { hb with
    board.pending := hb.board.pending.setState rid .failed
    changedRequests := setInsert rid hb.changedRequests }

/-- The request a session works for, empty when the session is unknown. -/
def currentOf (hb : Heartbeat) (sid : String) : String :=
  ((hb.board.sessionPool.get sid).map (·.currentRequestId)).getD ""

/-- The audio chunk case of `handle_response`. -/
def handleAudioChunk (rsp : TtsResponseMsg) (hb : Heartbeat) : Heartbeat :=
  let rid := hb.currentOf rsp.sessionId
  if rid = "" then hb
  else
    { hb with
      board.pending := (hb.board.pending.appendChunk rid (hexDecode rsp.audioHex) rsp.isFinal
        rsp.usageCharacters (env.steadyClock hb.steadyReads)).2
      steadyReads := hb.steadyReads + 1
      changedRequests := setInsert rid hb.changedRequests }

/-- `handle_response`. -/
def handleResponse (rsp : TtsResponseMsg) (hb : Heartbeat) : Heartbeat :=
  match rsp.kind with
  | .connected =>
    { hb with
      board.sessionPool :=
        hb.board.sessionPool.markReady rsp.sessionId (env.steadyClock hb.steadyReads)
      steadyReads := hb.steadyReads + 1
      changedSessions := setInsert rsp.sessionId hb.changedSessions
      board.metrics := hb.board.metrics.incUpstreamConnected }
  | .taskStarted => hb
  | .audioChunk => handleAudioChunk env rsp hb
  | .taskFinished =>
    { hb with changedSessions := setInsert rsp.sessionId hb.changedSessions }
  | .taskFailed =>
    let hb := (hb.board.pending.collectBySession rsp.sessionId).foldl (failTask rsp) hb
    { hb with
      board.sessionPool := hb.board.sessionPool.markErrored rsp.sessionId rsp.statusMsg
      changedSessions := setInsert rsp.sessionId hb.changedSessions }
  | .disconnected =>
    let hb := (hb.board.pending.collectBySession rsp.sessionId).foldl failLost hb
    { hb with
      board.sessionPool := hb.board.sessionPool.markClosed rsp.sessionId
      changedSessions := setInsert rsp.sessionId hb.changedSessions }

/-- `handle_cancel`. -/
def handleCancel (msg : CancelRequestMsg) (hb : Heartbeat) : Heartbeat :=
  { hb with
    board.pending := hb.board.pending.setState msg.requestId .cancelled
    changedRequests := setInsert msg.requestId hb.changedRequests }

/-! ### The tick -/

/-- The response for a completed upstream request. -/
def completedWrite (rid : String) (p : PendingRequest) : WriteToClient :=
  { requestId := rid, audio := p.accumulatedAudio, sampleRate := p.sampleRate,
    channels := p.channels, format := p.format, isFinal := p.finalReceived,
    cumulativeBytes := p.cumulativeBytes, audioLengthMs := p.usageCharacters,
    statusCode := p.statusCode, statusMsg := p.statusMsg }

/-- `emit_completed`. -/
def emitCompleted (hb : Heartbeat) (rid : String) : Heartbeat :=
  match hb.board.pending.get rid with
  | none => hb
  | some p =>
    { hb with
      changeset.clientWrites := hb.changeset.clientWrites ++ [completedWrite rid p]
      board.metrics :=
        (hb.board.metrics.addAudioBytes (UInt64.ofInt p.cumulativeBytes)).decInflight
      board.sessionPool := hb.board.sessionPool.markDraining p.sessionId
      board.pending := hb.board.pending.remove rid
      changedSessions := setInsert p.sessionId hb.changedSessions
      changedRequests := setInsert rid hb.changedRequests }

/-- The dispatch of one message of the batch. -/
def handleMessage (hb : Heartbeat) : Message → Heartbeat
  | .request req => handleRequest env req hb
  | .response rsp => handleResponse env rsp hb
  | .cancel msg => handleCancel msg hb
  | .localComplete msg => handleLocalComplete msg hb
  | .localFailed msg => handleLocalFailed msg hb

/-- The touched identifiers are local variables of `tick`, empty at its start. -/
def beginTick (hb : Heartbeat) : Heartbeat :=
  { hb with changedSessions := [], changedRequests := [] }

/-- The emission pass of `tick`. -/
def emitReady (hb : Heartbeat) : Heartbeat :=
  hb.board.pending.findReadyToEmit.foldl emitCompleted hb

/-- What a tick takes from outside: the contents of the two channels when they are
drained, and the three readings of the injected clock. -/
structure TickInput where
  requests : List Message := []
  events : List Message := []
  startedAt : TimePoint := 0
  now : TimePoint := 0
  endedAt : TimePoint := 0

/-- `drain_batch`: the request channel first, then the upstream events. -/
def TickInput.batch (inp : TickInput) : List Message := inp.requests ++ inp.events

/-- The part of `tick` after the messages: emission, evolution, collection of the
change set and bookkeeping. -/
def finishTick (inp : TickInput) (hb : Heartbeat) : ChangeSet × Heartbeat :=
  let hb := emitReady hb
  let evolved := evolve ⟨hb.changedSessions, hb.changedRequests⟩ inp.now hb.board
  let cs := { hb.changeset with closeSessions := hb.changeset.closeSessions ++ evolved.1 }
  let us := UInt64.ofInt ((inp.endedAt - inp.startedAt).tdiv 1000)
  (cs, { hb with
    board := { evolved.2 with
      metrics := evolved.2.metrics.incHeartbeat.recordHeartbeatLatencyUs us }
    changeset := {}
    lastDurationUs := us
    count := hb.count + 1
    published := hb.published ++ [.heartbeatTick us.toNat inp.batch.length cs.total] })

/-- `Heartbeat::tick`. -/
def tick (inp : TickInput) (hb : Heartbeat) : ChangeSet × Heartbeat :=
  finishTick inp (inp.batch.foldl (handleMessage env) hb.beginTick)

end Heartbeat

end TtsServer
