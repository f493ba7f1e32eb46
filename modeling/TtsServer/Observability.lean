import TtsServer.BusEvents
import TtsServer.HandlerEffects
import TtsServer.History
import TtsServer.LatencyPercentile

/-!
# What the metrics report

The heartbeat publishes a tick synchronously, which the admission gate hears, and a refused
request asynchronously, which the metrics collector hears on a worker of the bus. The heartbeat,
the workers of the bus and the calls of `start_workers` and `stop_workers` take their steps in any
order, and `GetMetrics` may be called between any two of them.

What becomes of the requests is read off the boards before and after each step and compared with
what `GetMetrics` reports. A request that a disconnection fails is never reported; one that a failed
task finds failed already is reported again; a failure of the local engine is reported once. A
refusal is never counted twice, and it is missing only while its event is on its way.
-/

namespace TtsServer

open Lib Heartbeat

/-- The event is published asynchronously: a request was refused. -/
def BusEvent.isRefusal : BusEvent → Bool
  | .wsFrameSendFailed _ _ => true
  | .heartbeatTick _ _ _ => false

/-- The requests that have failed and are still on the board. -/
def Heartbeat.failedRequests (hb : Heartbeat) : List String :=
  hb.board.pending.store.collect fun _ p => decide (p.state = .failed)

/-- The requests that have failed after a step and had not before it. -/
def Heartbeat.newlyFailed (before after : Heartbeat) : List String :=
  after.failedRequests.filter fun rid => decide (rid ∉ before.failedRequests)

/-- The requests of a session that have failed already. -/
def Heartbeat.failedOn (hb : Heartbeat) (sid : String) : List String :=
  (hb.board.pending.collectBySession sid).filter fun rid => decide (rid ∈ hb.failedRequests)

/-- The session that a step reports as failed or as lost, if it does. -/
def Step.sessionOf (kind : WsEventKind) : Step → Option String
  | .message (.response rsp) => if rsp.kind = kind then some rsp.sessionId else none
  | _ => none

/-- The step handles a failure of the local engine. -/
def Step.isLocalFailed : Step → Bool
  | .message (.localFailed _) => true
  | _ => false

/-- What has become of the requests, by comparison of the boards. -/
structure FailureRecord where
  /-- The requests that became failed. -/
  became : ℕ := 0
  /-- Those of them that became so at a disconnection. -/
  byDisconnect : ℕ := 0
  /-- The requests that a failed task of their session found failed already. -/
  again : ℕ := 0
  /-- The failures of the local engine. -/
  localFailed : ℕ := 0

/-- The failures that are reported, or would be if none were due to a disconnection. -/
def FailureRecord.all (r : FailureRecord) : ℕ := r.became + r.again + r.localFailed

/-- A step has led from one board to another. -/
def FailureRecord.note (r : FailureRecord) (l : Step) (before after : Heartbeat) :
    FailureRecord where
  became := r.became + (before.newlyFailed after).length
  byDisconnect := r.byDisconnect +
    if (l.sessionOf .disconnected).isSome then (before.newlyFailed after).length else 0
  again := r.again + ((l.sessionOf .taskFailed).elim 0 fun sid => (before.failedOn sid).length)
  localFailed := r.localFailed + if l.isLocalFailed then 1 else 0

/-- The message reports a connection. -/
def Message.isConnected : Message → Bool
  | .response rsp => rsp.kind = .connected
  | _ => false

/-- The server with its observers. -/
structure Observed where
  hist : History
  /-- The refusals that the heartbeat is about to push to the inbox of the bus. -/
  outbox : ℕ := 0
  log : BusLog := {}
  /-- `AdmissionGate::open_`. -/
  gate : Bool := true
  failures : FailureRecord := {}

/-- The steps of the heartbeat thread, its pushes, and the steps of the bus. -/
inductive ObservedStep where
  | heartbeat (l : Step)
  | push
  | bus (l : BusStep)

/-- What `GetMetrics` returns. -/
structure MetricsReport where
  inflightRequests : UInt64
  queuedMessages : UInt64
  heartbeatP99Us : UInt64
  upstreamConnected : UInt64
  upstreamDisconnectedTotal : UInt64
  audioBytesEmittedTotal : UInt64
  failedRequestsTotal : UInt64
  poolIdleSessions : UInt64
  poolActiveSessions : UInt64
  backpressureLevel : UInt64
  heartbeatCount : UInt64
  busWorkerPending : UInt64

namespace Observed

/-- The metrics on the board. -/
def metrics (o : Observed) : MetricsSnapshot := o.hist.hb.board.metrics

/-- The counters are changed by an observer. -/
def setMetrics (o : Observed) (metrics : MetricsSnapshot) : Observed :=
  { o with hist.hb.board.metrics := metrics }

/-- `GetMetrics`. -/
def getMetrics (o : Observed) : MetricsReport where
  inflightRequests := o.metrics.inflight
  queuedMessages := o.metrics.queued
  heartbeatP99Us := o.metrics.heartbeatP99Us
  upstreamConnected := o.metrics.upstreamConnected
  upstreamDisconnectedTotal := o.metrics.upstreamDisconnected
  audioBytesEmittedTotal := o.metrics.audioBytes
  failedRequestsTotal := o.metrics.failedRequests
  poolIdleSessions := o.metrics.poolIdle
  poolActiveSessions := o.metrics.poolActive
  backpressureLevel := o.metrics.backpressure
  heartbeatCount := o.metrics.heartbeatCount
  busWorkerPending := o.metrics.busPending

/-- The listener of the `AdmissionGate`. -/
def hearTick (o : Observed) (changesetSize : ℕ) : Observed :=
  if changesetSize > 512 then
    { o.setMetrics (o.metrics.setBackpressureLevel 2) with gate := false }
  else if changesetSize < 64 then { o with gate := true }
  else o

/-- A step of the heartbeat; what it has refused is pushed next. -/
def beat (env : Env) (o : Observed) (l : Step) : Observed :=
  let o' := { o with
    hist := o.hist.step env l
    outbox := ((o.hist.step env l).hb.published.drop o.hist.hb.published.length).countP
      BusEvent.isRefusal
    failures := o.failures.note l o.hist.hb (o.hist.step env l).hb }
  match l with
  | .finish inp => o'.hearTick (finishTick inp o.hist.hb).1.total
  | _ => o'

/-- One step. The heartbeat thread pushes a refusal before it goes on, which takes the lock of the
inbox; the event that a worker finishes has been heard by the `MetricsCollector`. -/
def step (env : Env) (o : Observed) : ObservedStep → Observed
  | .heartbeat l => if o.outbox = 0 then o.beat env l else o
  | .push =>
    if o.outbox ≠ 0 ∧ o.log.bus.lockFree = true then
      { o with log := o.log.step (.call .publish), outbox := o.outbox - 1 }
    else o
  | .bus l =>
    if l = .call .publish then o
    else if (o.log.bus.finishes l).isSome then
      { o.setMetrics o.metrics.incFailedRequests with log := o.log.step l }
    else { o with log := o.log.step l }

/-- The steps in turn, on a server that has just been started. -/
def run (env : Env) (hb : Heartbeat) (ls : List ObservedStep) : Observed :=
  ls.foldl (step env) { hist := { hb := hb } }

/-- The requests refused so far. -/
def refused (o : Observed) : ℕ := o.hist.hb.published.countP BusEvent.isRefusal

/-- The refusals whose event has not been run yet. -/
def undelivered (o : Observed) : ℕ :=
  o.outbox + o.log.bus.queue.length + o.log.bus.active.length

/-! ### What a step of the heartbeat does to the counters -/

variable {env : Env} {hb : Heartbeat} {o : Observed} {req : TtsRequestMsg} {rsp : TtsResponseMsg}

/-- What no step writes: the queue gauge, the gauges of the pool and of the bus, and the counter of
disconnections, whose event nobody publishes. -/
structure Unwritten where
  queued : UInt64 := 0
  disconnected : UInt64 := 0
  idle : UInt64 := 0
  active : UInt64 := 0
  pending : UInt64 := 0

/-- The counters that only grow, and what no step writes. -/
structure Tally where
  failed : UInt64
  connected : UInt64
  beats : UInt64
  unwritten : Unwritten

/-- The gauges and the counter that no step writes. -/
def unwritten (metrics : MetricsSnapshot) : Unwritten where
  queued := metrics.queued
  disconnected := metrics.upstreamDisconnected
  idle := metrics.poolIdle
  active := metrics.poolActive
  pending := metrics.busPending

/-- The tally of the metrics on a board. -/
def tally (metrics : MetricsSnapshot) : Tally where
  failed := metrics.failedRequests
  connected := metrics.upstreamConnected
  beats := metrics.heartbeatCount
  unwritten := unwritten metrics

/-- What a message adds to the counter of failed requests. -/
def increments (hb : Heartbeat) : Message → ℕ
  | .localFailed _ => 1
  | .response rsp =>
    if rsp.kind = .taskFailed then (hb.board.pending.collectBySession rsp.sessionId).length else 0
  | _ => 0

/-- A request is counted by nobody yet, and refused at most by an event. -/
theorem handleRequest_tally (env : Env) (req : TtsRequestMsg) (hb : Heartbeat) :
    tally (handleRequest env req hb).board.metrics = tally hb.board.metrics ∧
      hb.published <+: (handleRequest env req hb).published := by
  obtain ⟨level, hlevel⟩ := evaluate_metrics env hb.board.metrics
  simp only [handleRequest, hlevel]
  split
  · exact ⟨rfl, List.prefix_append _ _⟩
  · split
    · exact ⟨rfl, List.prefix_rfl⟩
    · obtain ⟨pool, reads, draws, hframe, -⟩ := acquire_frame env
        { hb with board.metrics := hb.board.metrics.setBackpressureLevel level }
      simp only [admitUpstream, hframe]
      split
      · exact ⟨rfl, List.prefix_append _ _⟩
      · exact ⟨rfl, List.prefix_rfl⟩

/-- An upstream event publishes nothing. -/
theorem handleResponse_published : (handleResponse env rsp hb).published = hb.published := by
  unfold handleResponse
  cases rsp.kind with
  | connected | taskStarted | taskFinished => rfl
  | audioChunk =>
    simp only [handleAudioChunk]
    split <;> rfl
  | taskFailed | disconnected => exact foldl_proj Heartbeat.published fun _ _ => rfl

/-- An upstream event counts the requests of a failed task, and a connection. -/
theorem handleResponse_tally :
    tally (handleResponse env rsp hb).board.metrics = { tally hb.board.metrics with
      failed := hb.board.metrics.failedRequests +
        UInt64.ofNat (increments hb (.response rsp))
      connected := hb.board.metrics.upstreamConnected +
        UInt64.ofNat ([Message.response rsp].countP Message.isConnected) } := by
  by_cases hkind : rsp.kind = .connected
  · simp [handleResponse, hkind, tally, unwritten, increments, Message.isConnected,
      MetricsSnapshot.incUpstreamConnected]
  · simp [handleResponse_metrics hkind, hkind, tally, unwritten, increments, Message.isConnected]

/-- What one message adds to the counters. -/
theorem handleMessage_tally (m : Message) :
    tally (handleMessage env hb m).board.metrics = { tally hb.board.metrics with
        failed := hb.board.metrics.failedRequests +
          UInt64.ofNat (increments hb m)
        connected := hb.board.metrics.upstreamConnected +
          UInt64.ofNat ([m].countP Message.isConnected) } ∧
      hb.published <+: (handleMessage env hb m).published := by
  cases m with
  | request req =>
    obtain ⟨htally, hpublished⟩ := handleRequest_tally env req hb
    refine ⟨?_, hpublished⟩
    rw [handleMessage, htally]
    simp [increments, Message.isConnected, tally]
  | response rsp => exact ⟨handleResponse_tally, handleResponse_published ▸ List.prefix_rfl⟩
  | cancel msg =>
    refine ⟨?_, List.prefix_rfl⟩
    simp [handleMessage, handleCancel, increments, Message.isConnected, tally]
  | localComplete msg =>
    refine ⟨?_, List.prefix_rfl⟩
    simp [handleMessage, handleLocalComplete, increments, Message.isConnected, tally, unwritten,
      MetricsSnapshot.addAudioBytes, MetricsSnapshot.decInflight]
  | localFailed msg =>
    refine ⟨?_, List.prefix_rfl⟩
    simp [handleMessage, handleLocalFailed, increments, Message.isConnected, tally, unwritten,
      MetricsSnapshot.incFailedRequests, MetricsSnapshot.decInflight]

/-- The emission pass counts audio only. -/
theorem emitReady_tally (hb : Heartbeat) :
    tally (emitReady hb).board.metrics = tally hb.board.metrics ∧
      (emitReady hb).published = hb.published := by
  have hstep (hb : Heartbeat) (rid : String) :
      (tally (emitCompleted hb rid).board.metrics, (emitCompleted hb rid).published) =
        (tally hb.board.metrics, hb.published) := by
    unfold emitCompleted
    split <;> rfl
  exact Prod.mk.inj
    (foldl_proj (fun hb : Heartbeat => (tally hb.board.metrics, hb.published)) hstep)

/-- The end of a tick counts the tick, and its event is not a refusal. -/
theorem finishTick_tally (inp : TickInput) (hb : Heartbeat) :
    tally (finishTick inp hb).2.board.metrics =
        { tally hb.board.metrics with beats := hb.board.metrics.heartbeatCount + 1 } ∧
      hb.published <+: (finishTick inp hb).2.published := by
  obtain ⟨htally, hpublished⟩ := emitReady_tally hb
  have hmetrics : ∃ us, (finishTick inp hb).2.board.metrics =
      (emitReady hb).board.metrics.incHeartbeat.recordHeartbeatLatencyUs us := ⟨_, rfl⟩
  have hevents : ∃ event, (finishTick inp hb).2.published =
      (emitReady hb).published ++ [event] := ⟨_, rfl⟩
  obtain ⟨us, hmetrics⟩ := hmetrics
  obtain ⟨event, hevents⟩ := hevents
  refine ⟨?_, ?_⟩
  · rw [hmetrics]
    simp only [tally, Tally.mk.injEq] at htally ⊢
    obtain ⟨hfailed, hconnected, hbeats, hunwritten⟩ := htally
    refine ⟨hfailed, hconnected, ?_, hunwritten⟩
    rw [← hbeats]
    rfl
  · rw [hevents, hpublished]
    exact List.prefix_append _ _

/-! ### What a step does to the requests -/

variable {hb' : Heartbeat} {rid : String}

/-- A request that has failed is on the board. -/
theorem mem_failedRequests : rid ∈ hb.failedRequests ↔
    ∃ p, hb.board.pending.get rid = some p ∧ p.state = .failed := by
  simp [Heartbeat.failedRequests, PendingRequestStore.get]

/-- No request becomes failed if all that have failed had so before. -/
theorem newlyFailed_eq_nil (h : ∀ {rid p}, hb'.board.pending.get rid = some p →
    p.state = .failed → ∃ p', hb.board.pending.get rid = some p' ∧ p'.state = .failed) :
    hb.newlyFailed hb' = [] := by
  refine List.filter_eq_nil_iff.mpr fun rid hrid => ?_
  obtain ⟨p, hp, hfailed⟩ := mem_failedRequests.mp hrid
  simpa using mem_failedRequests.mpr (h hp hfailed)

/-- A request that is admitted has not failed. -/
theorem handleRequest_newlyFailed : hb.newlyFailed (handleRequest env req hb) = [] := by
  refine newlyFailed_eq_nil fun {rid p} hp hfailed => ⟨p, ?_, hfailed⟩
  obtain ⟨level, hlevel⟩ := evaluate_metrics env hb.board.metrics
  simp only [handleRequest, hlevel] at hp
  split at hp
  · exact hp
  · split at hp
    · by_cases hrid : rid = req.requestId
      · subst hrid
        simp only [admitLocal] at hp
        split at hp
        · simp [localPending] at hp
          simp [← hp] at hfailed
        · simp at hp
          obtain ⟨old, -, rfl⟩ := hp
          cases hfailed
      · rw [admitLocal_others hrid] at hp
        exact hp
    · obtain ⟨pool, reads, draws, hframe, -⟩ := acquire_frame env
        { hb with board.metrics := hb.board.metrics.setBackpressureLevel level }
      simp only [admitUpstream, hframe] at hp
      split at hp
      · exact hp
      · simp only [bindRequest, boundPending, PendingRequestStore.get_add] at hp
        split at hp
        · rw [← Option.some.inj hp] at hfailed
          cases hfailed
        · exact hp

/-- A failed task or a disconnection fails the requests of its session. -/
theorem newlyFailed_perm (hkind : rsp.kind = .taskFailed ∨ rsp.kind = .disconnected) :
    (hb.newlyFailed (handleResponse env rsp hb)).Perm
      ((hb.board.pending.collectBySession rsp.sessionId).filter
        fun rid => decide (rid ∉ hb.failedRequests)) := by
  have hafter : (handleResponse env rsp hb).failedRequests.Nodup := Table.nodup_collect _ _
  have hsession : (hb.board.pending.collectBySession rsp.sessionId).Nodup :=
    Table.nodup_collect _ _
  refine (List.perm_ext_iff_of_nodup (hafter.filter _) (hsession.filter _)).mpr fun rid => ?_
  rw [List.mem_filter, List.mem_filter]
  refine and_congr_left fun hnot => ?_
  rw [mem_failedRequests, PendingRequestStore.mem_collectBySession]
  have hbefore {p : PendingRequest} (hp : hb.board.pending.get rid = some p) :
      p.state ≠ .failed := by
    intro hfailed
    exact of_decide_eq_true hnot (mem_failedRequests.mpr ⟨p, hp, hfailed⟩)
  have hget : (handleResponse env rsp hb).board.pending.get rid =
      (hb.board.pending.get rid).map fun p => if p.sessionId = rsp.sessionId then
        (if rsp.kind = .taskFailed then
          { p with state := .failed, statusCode := rsp.statusCode, statusMsg := rsp.statusMsg }
        else { p with state := .failed }) else p := by
    rw [handleResponse_get_pending]
    rcases hkind with hkind | hkind <;> simp [hkind]
  rw [hget]
  cases hp : hb.board.pending.get rid with
  | none => simp
  | some p =>
    have hnever := hbefore hp
    by_cases hsid : p.sessionId = rsp.sessionId
    · simp only [hsid, Option.map_some, Option.some.injEq, exists_eq_left', if_true, iff_true]
      split <;> rfl
    · simp [hsid, hnever]

/-- The requests of a session are those that become failed and those that had before. -/
theorem newlyFailed_add_failedOn (hkind : rsp.kind = .taskFailed ∨ rsp.kind = .disconnected) :
    (hb.newlyFailed (handleResponse env rsp hb)).length + (hb.failedOn rsp.sessionId).length =
      (hb.board.pending.collectBySession rsp.sessionId).length := by
  have hsplit := (hb.board.pending.collectBySession rsp.sessionId).length_eq_countP_add_countP
    fun rid => decide (rid ∈ hb.failedRequests)
  rw [(newlyFailed_perm hkind).length_eq, Heartbeat.failedOn, ← List.countP_eq_length_filter,
    ← List.countP_eq_length_filter, hsplit, Nat.add_comm]
  simp

/-- The other upstream events fail no request. -/
theorem handleResponse_newlyFailed (htask : rsp.kind ≠ .taskFailed)
    (hlost : rsp.kind ≠ .disconnected) : hb.newlyFailed (handleResponse env rsp hb) = [] := by
  refine newlyFailed_eq_nil fun {rid p} hp hfailed => ?_
  rw [handleResponse_get_pending] at hp
  split at hp
  · split at hp
    · obtain ⟨old, hold, rfl⟩ := Option.map_eq_some_iff.mp hp
      exact ⟨old, hold, hfailed⟩
    · exact ⟨p, hp, hfailed⟩
  · next hkind => exact absurd hkind htask
  · next hkind => exact absurd hkind hlost
  · exact ⟨p, hp, hfailed⟩

/-- A cancelled request has not failed. -/
theorem handleCancel_newlyFailed {msg : CancelRequestMsg} :
    hb.newlyFailed (handleCancel msg hb) = [] := by
  refine newlyFailed_eq_nil fun {rid p} hp hfailed => ?_
  rw [handleCancel_get_pending] at hp
  split at hp
  · obtain ⟨old, -, rfl⟩ := Option.map_eq_some_iff.mp hp
    cases hfailed
  · exact ⟨p, hp, hfailed⟩

/-- An answer of the local engine takes its request off the board. -/
theorem newlyFailed_of_remove {id : String}
    (hremove : hb'.board.pending = hb.board.pending.remove id) : hb.newlyFailed hb' = [] := by
  refine newlyFailed_eq_nil fun {rid p} hp hfailed => ⟨p, ?_, hfailed⟩
  rw [hremove, PendingRequestStore.get_remove] at hp
  split at hp
  · cases hp
  · exact hp

/-- The end of a tick only takes requests off the board. -/
theorem finishTick_newlyFailed (inp : TickInput) :
    hb.newlyFailed (finishTick inp hb).2 = [] :=
  newlyFailed_eq_nil fun hp hfailed => ⟨_, (finishTick_get_pending.mp hp).1, hfailed⟩

/-- A step that fails no request and reports none leaves the record alone. -/
theorem note_eq_self {l : Step} (r : FailureRecord) (hnone : hb.newlyFailed hb' = [])
    (htask : l.sessionOf .taskFailed = none) (hlocal : l.isLocalFailed = false) :
    r.note l hb hb' = r := by
  simp [FailureRecord.note, hnone, htask, hlocal]

/-- What a message adds to the counter, against what becomes of the requests: a disconnection fails
requests and adds nothing. -/
theorem increments_add (m : Message) (r : FailureRecord) :
    increments hb m + (r.note (.message m) hb (handleMessage env hb m)).byDisconnect + r.all =
      r.byDisconnect + (r.note (.message m) hb (handleMessage env hb m)).all := by
  cases m with
  | request req =>
    rw [handleMessage, note_eq_self r handleRequest_newlyFailed rfl rfl]
    exact congrArg (· + r.all) (Nat.zero_add _)
  | cancel msg =>
    rw [handleMessage, note_eq_self r handleCancel_newlyFailed rfl rfl]
    exact congrArg (· + r.all) (Nat.zero_add _)
  | localComplete msg =>
    rw [handleMessage, note_eq_self r (newlyFailed_of_remove rfl) rfl rfl]
    exact congrArg (· + r.all) (Nat.zero_add _)
  | localFailed msg =>
    have hnone : hb.newlyFailed (handleMessage env hb (.localFailed msg)) = [] :=
      newlyFailed_of_remove rfl
    simp only [FailureRecord.note, FailureRecord.all, hnone, increments, Step.sessionOf,
      Step.isLocalFailed]
    simp
    omega
  | response rsp =>
    by_cases htask : rsp.kind = .taskFailed
    · have hall := @newlyFailed_add_failedOn env hb rsp (.inl htask)
      simp only [FailureRecord.note, FailureRecord.all, handleMessage, increments, Step.sessionOf,
        Step.isLocalFailed, htask]
      simp
      omega
    · by_cases hlost : rsp.kind = .disconnected
      · simp only [FailureRecord.note, FailureRecord.all, handleMessage, increments,
          Step.sessionOf, Step.isLocalFailed, hlost]
        simp
        omega
      · rw [handleMessage, note_eq_self r (handleResponse_newlyFailed htask hlost)
          (by simp [Step.sessionOf, htask]) rfl, increments, if_neg htask, Nat.zero_add]

/-! ### Every run -/

/-- The order of two counts does not matter. -/
theorem add_swap (a b c : UInt64) : a + b + c = a + c + b := by ac_rfl

/-- The counters agree with the record of what has happened, and every refusal has been pushed
to the inbox or is about to be. -/
structure Accounted (o : Observed) : Prop where
  joined : o.log.bus.Joined
  kept : o.log.Kept
  pushed : o.log.bus.published + o.outbox = o.refused
  failed : o.metrics.failedRequests + UInt64.ofNat o.failures.byDisconnect =
    UInt64.ofNat (o.failures.all + o.log.finished.length)
  connected : o.metrics.upstreamConnected =
    UInt64.ofNat (o.hist.handled.countP Message.isConnected)
  beats : o.metrics.heartbeatCount = UInt64.ofNat o.hist.changeSets.length
  unwritten : Observed.unwritten o.metrics = {}

/-- The admission gate writes none of these counters. -/
theorem Accounted.hearTick (h : Accounted o) (changesetSize : ℕ) :
    Accounted (o.hearTick changesetSize) := by
  obtain ⟨hjoined, hkept, hpushed, hfailed, hconnected, hbeats, hunwritten⟩ := h
  unfold Observed.hearTick
  split
  · exact ⟨hjoined, hkept, hpushed, hfailed, hconnected, hbeats, hunwritten⟩
  · split <;> exact ⟨hjoined, hkept, hpushed, hfailed, hconnected, hbeats, hunwritten⟩

/-- The refusals of a step are those before it and those that it is about to push. -/
theorem countP_published {before after : List BusEvent} (hbefore : before <+: after) :
    before.countP BusEvent.isRefusal + (after.drop before.length).countP BusEvent.isRefusal =
      after.countP BusEvent.isRefusal := by
  obtain ⟨events, rfl⟩ := hbefore
  rw [List.drop_left, List.countP_append]

/-- A step of the heartbeat. -/
theorem Accounted.beat (h : Accounted o) (hempty : o.outbox = 0) (l : Step) :
    Accounted (o.beat env l) := by
  have hpushed := h.pushed
  rw [hempty, Nat.add_zero] at hpushed
  have hrefused {published : List BusEvent} (hbefore : o.hist.hb.published <+: published) :
      o.log.bus.published + (published.drop o.hist.hb.published.length).countP
        BusEvent.isRefusal = published.countP BusEvent.isRefusal := by
    rw [hpushed]
    exact countP_published hbefore
  cases l with
  | begin =>
    have hnone : o.hist.hb.newlyFailed o.hist.hb.beginTick = [] :=
      newlyFailed_eq_nil fun hp hfailed => ⟨_, hp, hfailed⟩
    have hrecord := note_eq_self (l := .begin) o.failures hnone rfl rfl
    refine ⟨h.joined, h.kept, hrefused List.prefix_rfl, ?_, h.connected, h.beats, h.unwritten⟩
    simp only [Observed.beat, History.step, hrecord]
    exact h.failed
  | message m =>
    obtain ⟨htally, hbefore⟩ := @handleMessage_tally env o.hist.hb m
    simp only [tally, Tally.mk.injEq] at htally
    obtain ⟨hfailed, hconnected, hbeats, hunwritten⟩ := htally
    refine ⟨h.joined, h.kept, hrefused hbefore, ?_, hconnected.trans ?_,
      hbeats.trans h.beats, hunwritten.trans h.unwritten⟩
    · have hbase : o.hist.hb.board.metrics.failedRequests + _ = _ := h.failed
      have hadd := @increments_add env o.hist.hb m o.failures
      have hcounter : (Observed.beat env o (.message m)).metrics.failedRequests =
          o.hist.hb.board.metrics.failedRequests + UInt64.ofNat (increments o.hist.hb m) := hfailed
      have hrecord : (Observed.beat env o (.message m)).failures =
          o.failures.note (.message m) o.hist.hb (handleMessage env o.hist.hb m) := rfl
      have hlog : (Observed.beat env o (.message m)).log = o.log := rfl
      rw [hcounter, hrecord, hlog]
      -- the old record, added on both sides, makes up for the requests lost before
      refine (UInt64.add_left_inj (UInt64.ofNat o.failures.all)).mp ?_
      rw [UInt64.add_assoc, UInt64.add_assoc, ← UInt64.ofNat_add, ← UInt64.ofNat_add,
        ← Nat.add_assoc, hadd, UInt64.ofNat_add, ← UInt64.add_assoc, hbase, ← UInt64.ofNat_add,
        ← UInt64.ofNat_add]
      exact congrArg UInt64.ofNat (by omega)
    · have hbase : o.hist.hb.board.metrics.upstreamConnected = _ := h.connected
      rw [hbase, ← UInt64.ofNat_add, ← List.countP_append]
      rfl
  | finish inp =>
    obtain ⟨htally, hbefore⟩ := finishTick_tally inp o.hist.hb
    simp only [tally, Tally.mk.injEq] at htally
    obtain ⟨hfailed, hconnected, hbeats, hunwritten⟩ := htally
    have hrecord := note_eq_self (l := .finish inp) o.failures
      (@finishTick_newlyFailed o.hist.hb inp) rfl rfl
    refine Accounted.hearTick ?_ _
    refine ⟨h.joined, h.kept, hrefused hbefore, ?_,
      hconnected.trans h.connected, hbeats.trans ?_, hunwritten.trans h.unwritten⟩
    · simp only [History.step, hrecord]
      rw [← h.failed]
      exact congrArg (· + _) hfailed
    · have hbase : o.hist.hb.board.metrics.heartbeatCount = _ := h.beats
      rw [hbase, ← UInt64.ofNat_one, ← UInt64.ofNat_add]
      simp [History.step]

/-- Only a publication adds to what has been published. -/
theorem published_step {s : BusWorkers} {l : BusStep} (hl : l ≠ .call .publish) :
    (s.step l).published = s.published := by
  have hchange := BusWorkers.change_step s l
  generalize s.step l = s' at hchange
  cases hchange with
  | publish hfree => exact absurd rfl hl
  | _ => rfl

/-- A push moves one refusal to the inbox. -/
theorem Accounted.push (h : Accounted o) (hsome : o.outbox ≠ 0)
    (hfree : o.log.bus.lockFree = true) :
    Accounted { o with log := o.log.step (.call .publish), outbox := o.outbox - 1 } := by
  have hpublished : (o.log.bus.step (.call .publish)).published = o.log.bus.published + 1 := by
    simp [BusWorkers.step, BusWorkers.call, hfree]
  have hfinished : (o.log.step (.call .publish)).finished = o.log.finished := List.append_nil _
  refine ⟨h.joined.change (BusWorkers.change_step o.log.bus (.call .publish)),
    h.kept.flow (BusLog.flow_step h.joined (.call .publish)), ?_, ?_, h.connected, h.beats,
    h.unwritten⟩
  · have hpushed := h.pushed
    change (o.log.bus.step (.call .publish)).published + (o.outbox - 1) = o.refused
    omega
  · rw [hfinished]
    exact h.failed

/-- A worker finishes at most one event at a step, and the collector counts it. -/
theorem Accounted.bus (h : Accounted o) {l : BusStep} (hl : l ≠ .call .publish) :
    Accounted (if (o.log.bus.finishes l).isSome then
      { o.setMetrics o.metrics.incFailedRequests with log := o.log.step l }
    else { o with log := o.log.step l }) := by
  have hjoined := h.joined.change (BusWorkers.change_step _ l)
  have hkept := h.kept.flow (BusLog.flow_step h.joined l)
  have hpushed : (o.log.step l).bus.published + o.outbox = o.refused := by
    rw [← h.pushed]
    exact congrArg (· + o.outbox) (published_step hl)
  cases hfinishes : o.log.bus.finishes l with
  | none =>
    refine ⟨hjoined, hkept, hpushed, h.failed.trans ?_, h.connected, h.beats, h.unwritten⟩
    simp [BusLog.step, hfinishes]
  | some task =>
    refine ⟨hjoined, hkept, hpushed, ?_, h.connected, h.beats, h.unwritten⟩
    have hcounted : o.metrics.failedRequests + 1 + UInt64.ofNat o.failures.byDisconnect =
        UInt64.ofNat (o.failures.all + (o.log.step l).finished.length) := by
      rw [add_swap, h.failed, ← UInt64.ofNat_one, ← UInt64.ofNat_add]
      simp [BusLog.step, hfinishes, Nat.add_assoc]
    exact hcounted

/-- Every step keeps the account. -/
theorem Accounted.step (h : Accounted o) (l : ObservedStep) : Accounted (o.step env l) := by
  cases l with
  | heartbeat l =>
    simp only [Observed.step]
    split
    · next hempty => exact h.beat hempty l
    · exact h
  | push =>
    simp only [Observed.step]
    split
    · next hpush => exact h.push hpush.1 hpush.2
    · exact h
  | bus l =>
    simp only [Observed.step]
    split
    · exact h
    · next hl => exact h.bus hl

/-- It holds in every run. -/
theorem run_accounted (maxSize : ℕ) (idleTimeout maxLifetime : Duration)
    (ls : List ObservedStep) :
    Accounted (run env (start maxSize idleTimeout maxLifetime) ls) := by
  refine ls.foldlRecOn _ (motive := Accounted) ?_ fun o h l _ => h.step l
  exact ⟨BusWorkers.joined_empty, ⟨rfl, List.Perm.refl _⟩, rfl, rfl, rfl, rfl, rfl⟩

/-- The refusals that have been run, with those that are on their way. -/
theorem Accounted.finished_add_undelivered (h : Accounted o) :
    o.log.finished.length + o.undelivered = o.refused := by
  have hstarted := congrArg List.length h.kept.started_eq
  have hfinished := h.kept.finished_perm.length_eq
  have hpushed := h.pushed
  rw [List.length_append, List.length_range] at hstarted
  rw [List.length_append] at hfinished
  unfold undelivered
  omega

/-- Two requests are admitted and a third one is refused; the session of the first is lost, that of
the second fails, and a worker of the bus runs the event of the refusal. -/
def threeFailures : List ObservedStep :=
  [.heartbeat (.message (.request { requestId := "r1", text := "t" })),
    .heartbeat (.message (.request { requestId := "r2", text := "t" })),
    .heartbeat (.message (.request { requestId := "r3", text := "t" })), .push,
    .heartbeat (.message (.response { sessionId := "s-0000000000000000", kind := .disconnected })),
    .heartbeat (.message (.response { sessionId := "s-0000000000000001", kind := .taskFailed })),
    .bus (.call (.start 1)), .bus .spawn] ++ List.replicate 3 (.bus (.worker 0))

/-- The gate is closed: a tick has had more than 512 outputs, and none since then has had fewer
than 64. -/
def Overloaded (changeSets : List ChangeSet) : Prop :=
  ∃ before cs after, changeSets = before ++ cs :: after ∧ 512 < cs.total ∧
    ∀ cs' ∈ after, 64 ≤ cs'.total

/-- What one more tick makes of it. -/
theorem overloaded_concat {changeSets : List ChangeSet} {cs : ChangeSet} :
    Overloaded (changeSets ++ [cs]) ↔
      512 < cs.total ∨ Overloaded changeSets ∧ 64 ≤ cs.total := by
  constructor
  · rintro ⟨before, cs', after, hsplit, hlarge, hsince⟩
    rcases List.eq_nil_or_concat after with rfl | ⟨after, last, rfl⟩
    · left
      obtain ⟨-, hlast⟩ := List.append_inj' hsplit rfl
      rwa [List.singleton_inj.mp hlast]
    · right
      rw [List.concat_eq_append] at hsplit hsince
      rw [← List.cons_append, ← List.append_assoc] at hsplit
      obtain ⟨rfl, hlast⟩ := List.append_inj' hsplit rfl
      rw [List.singleton_inj.mp hlast]
      exact ⟨⟨before, cs', after, rfl, hlarge, fun c hc => hsince c (by simp [hc])⟩,
        hsince last (by simp)⟩
  · rintro (hlarge | ⟨⟨before, cs', after, rfl, hlarge, hsince⟩, hcs⟩)
    · exact ⟨changeSets, cs, [], rfl, hlarge, nofun⟩
    · refine ⟨before, cs', after ++ [cs], by simp, hlarge, fun c hc => ?_⟩
      rcases List.mem_append.mp hc with hc | hc
      · exact hsince c hc
      · rwa [List.mem_singleton.mp hc]

/-- What the gate makes of a tick. -/
theorem hearTick_gate (o : Observed) (changesetSize : ℕ) :
    (o.hearTick changesetSize).gate = false ↔
      512 < changesetSize ∨ o.gate = false ∧ 64 ≤ changesetSize := by
  unfold hearTick
  split
  · next hlarge => simp [hlarge]
  · next hlarge =>
    split
    · next hsmall => simp [hlarge, hsmall]
    · next hsmall => simp [hlarge, Nat.not_lt.mp hsmall]

/-- The gate does not touch the change sets. -/
theorem hearTick_hist (o : Observed) (changesetSize : ℕ) :
    (o.hearTick changesetSize).hist.changeSets = o.hist.changeSets := by
  unfold hearTick
  split
  · rfl
  · split <;> rfl

/-- Every step keeps the gate in step with the ticks. -/
theorem gate_step (h : o.gate = false ↔ Overloaded o.hist.changeSets) (l : ObservedStep) :
    (o.step env l).gate = false ↔ Overloaded (o.step env l).hist.changeSets := by
  cases l with
  | heartbeat l =>
    simp only [step]
    split
    · cases l with
      | begin | message => exact h
      | finish inp =>
        simp only [beat]
        rw [hearTick_gate, hearTick_hist]
        refine Iff.trans ?_ overloaded_concat.symm
        rw [← h]
    · exact h
  | push =>
    simp only [step]
    split <;> exact h
  | bus l =>
    simp only [step]
    split
    · exact h
    · split <;> exact h

/-- The gate is closed exactly while the last tick out of the range between 64 and 512 outputs
was above it. -/
theorem gate_closed_iff_overloaded (env : Env) (hb : Heartbeat) (ls : List ObservedStep) :
    (run env hb ls).gate = false ↔ Overloaded (run env hb ls).hist.changeSets := by
  refine ls.foldlRecOn _
    (motive := fun o : Observed => o.gate = false ↔ Overloaded o.hist.changeSets) ?_
    fun o h l _ => gate_step h l
  simp [Overloaded]

end Observed

end TtsServer
