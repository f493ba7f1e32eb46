import TtsServer.PendingStore
import TtsServer.SessionPool

/-!
# The data board

The blackboard that only the heartbeat writes: the session pool, the pending
requests and the metrics. Counters are 64-bit words and wrap.
-/

namespace TtsServer

/-- The counters and gauges of the server. -/
structure MetricsSnapshot where
  inflight : UInt64 := 0
  queued : UInt64 := 0
  upstreamConnected : UInt64 := 0
  upstreamDisconnected : UInt64 := 0
  audioBytes : UInt64 := 0
  failedRequests : UInt64 := 0
  poolIdle : UInt64 := 0
  poolActive : UInt64 := 0
  backpressure : UInt64 := 0
  heartbeatCount : UInt64 := 0
  busPending : UInt64 := 0
  hbSamples : List UInt64 := []
  deriving DecidableEq, Repr

namespace MetricsSnapshot

variable (metrics : MetricsSnapshot)

/-- `inc_inflight`. -/
def incInflight : MetricsSnapshot := { metrics with inflight := metrics.inflight + 1 }

/-- `dec_inflight`: an unsigned subtraction. -/
def decInflight : MetricsSnapshot := { metrics with inflight := metrics.inflight - 1 }

/-- `inc_upstream_connected`. -/
def incUpstreamConnected : MetricsSnapshot :=
  { metrics with upstreamConnected := metrics.upstreamConnected + 1 }

/-- `add_audio_bytes`. -/
def addAudioBytes (v : UInt64) : MetricsSnapshot :=
  { metrics with audioBytes := metrics.audioBytes + v }

/-- `inc_failed_requests`. -/
def incFailedRequests : MetricsSnapshot :=
  { metrics with failedRequests := metrics.failedRequests + 1 }

/-- `set_backpressure_level`. -/
def setBackpressureLevel (v : UInt64) : MetricsSnapshot := { metrics with backpressure := v }

/-- `inc_heartbeat`. -/
def incHeartbeat : MetricsSnapshot :=
  { metrics with heartbeatCount := metrics.heartbeatCount + 1 }

/-- `record_heartbeat_latency_us`: the window keeps the last 256 samples. -/
def recordHeartbeatLatencyUs (us : UInt64) : MetricsSnapshot :=
  let samples := metrics.hbSamples ++ [us]
  { metrics with hbSamples := if samples.length > 256 then samples.tail else samples }

end MetricsSnapshot

/-- A counter below a bound does not wrap when it is incremented. -/
theorem toNat_add_one_of_lt {x y : UInt64} (h : x < y) : (x + 1).toNat = x.toNat + 1 := by
  have hx : x.toNat < y.toNat := UInt64.lt_iff_toNat_lt.mp h
  have hy := y.toNat_lt
  rw [UInt64.toNat_add, UInt64.toNat_one]
  omega

/-- A positive counter does not wrap when it is decremented. -/
theorem toNat_sub_one_of_pos {x : UInt64} (h : 0 < x.toNat) : (x - 1).toNat = x.toNat - 1 := by
  have hx := x.toNat_lt
  rw [UInt64.toNat_sub, UInt64.toNat_one]
  omega

/-- The word of a length that is held as a signed number. -/
theorem ofInt_natCast (n : Nat) : UInt64.ofInt n = UInt64.ofNat n := by
  have hmod : ((n : Int) % 2 ^ 64).toNat = n % 2 ^ 64 := by omega
  rw [UInt64.ofInt, hmod]
  exact UInt64.toNat.inj (by simp)

/-- The data board. -/
structure DataBoard where
  sessionPool : SessionPool
  pending : PendingRequestStore := {}
  metrics : MetricsSnapshot := {}

/-- The board of a newly started server. The server uses sixteen sessions, an idle
timeout of one minute and a lifetime of one hour; other bounds are allowed here. -/
def DataBoard.empty (maxSize : Nat := 16) (idleTimeout : Duration := seconds 60)
    (maxLifetime : Duration := seconds 3600) : DataBoard :=
  { sessionPool := { maxSize, idleTimeout, maxLifetime } }

end TtsServer
