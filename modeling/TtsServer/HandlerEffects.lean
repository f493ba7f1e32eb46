import TtsServer.Heartbeat
import TtsServer.Lib.Runs

/-!
# What each handler does

One statement for each handler and each part of the state it touches: the record
of a session, the record of a request, the inflight counter and the change set.
Later files reason with these statements and never unfold a handler.
-/

namespace TtsServer.Heartbeat

open Lib

variable {env : Env} {hb : Heartbeat} {rid sid : String}

/-! ### Upstream events -/

section Responses

variable {rsp : TtsResponseMsg}

/-- Failing requests does not touch the session pool. -/
private theorem foldl_failTask_sessionPool (ids : List String) :
    (ids.foldl (failTask rsp) hb).board.sessionPool = hb.board.sessionPool :=
  foldl_proj (fun hb : Heartbeat => hb.board.sessionPool) fun _ _ => rfl

/-- Losing requests does not touch the session pool. -/
private theorem foldl_failLost_sessionPool (ids : List String) :
    (ids.foldl failLost hb).board.sessionPool = hb.board.sessionPool :=
  foldl_proj (fun hb : Heartbeat => hb.board.sessionPool) fun _ _ => rfl

/-- The records of sessions after an upstream event. -/
theorem handleResponse_get_session :
    (handleResponse env rsp hb).board.sessionPool.get sid =
      match rsp.kind with
      | .connected =>
        if sid = rsp.sessionId then (hb.board.sessionPool.get sid).map fun s =>
          { s with state := .ready, lastActiveAt := env.steadyClock hb.steadyReads }
        else hb.board.sessionPool.get sid
      | .taskFailed =>
        if sid = rsp.sessionId then (hb.board.sessionPool.get sid).map fun s =>
          { s with state := .errored, lastError := rsp.statusMsg }
        else hb.board.sessionPool.get sid
      | .disconnected =>
        if sid = rsp.sessionId then none else hb.board.sessionPool.get sid
      | _ => hb.board.sessionPool.get sid := by
  unfold handleResponse
  cases rsp.kind with
  | connected => exact SessionPool.get_markAndPromote
  | taskStarted => rfl
  | audioChunk =>
    simp only [handleAudioChunk]
    split <;> rfl
  | taskFinished => rfl
  | taskFailed =>
    simp only [foldl_failTask_sessionPool]
    exact SessionPool.get_mark
  | disconnected =>
    simp only [foldl_failLost_sessionPool]
    exact SessionPool.get_markClosed

/-- The pool after an upstream event that does not report a connection. -/
theorem handleResponse_sessionPool (hkind : rsp.kind ≠ .connected) :
    (handleResponse env rsp hb).board.sessionPool =
      match rsp.kind with
      | .taskFailed => hb.board.sessionPool.markErrored rsp.sessionId rsp.statusMsg
      | .disconnected => hb.board.sessionPool.markClosed rsp.sessionId
      | _ => hb.board.sessionPool := by
  unfold handleResponse
  cases hcase : rsp.kind with
  | connected => exact absurd hcase hkind
  | taskStarted => rfl
  | audioChunk =>
    simp only [handleAudioChunk]
    split <;> rfl
  | taskFinished => rfl
  | taskFailed => simp only [foldl_failTask_sessionPool]
  | disconnected => simp only [foldl_failLost_sessionPool]

/-- The loop over the requests of a failed task counts each of them. -/
private theorem foldl_failTask_metrics (ids : List String) :
    (ids.foldl (failTask rsp) hb).board.metrics = { hb.board.metrics with
      failedRequests := hb.board.metrics.failedRequests + UInt64.ofNat ids.length } := by
  induction ids generalizing hb with
  | nil => simp
  | cons id ids ih =>
    rw [List.foldl_cons, ih, List.length_cons, Nat.add_comm, UInt64.ofNat_add]
    simp [failTask, MetricsSnapshot.incFailedRequests, UInt64.add_assoc]

/-- The metrics after an upstream event that does not report a connection: a failed task
counts the requests of its session, whatever their state. -/
theorem handleResponse_metrics (hkind : rsp.kind ≠ .connected) :
    (handleResponse env rsp hb).board.metrics = { hb.board.metrics with
      failedRequests := hb.board.metrics.failedRequests + UInt64.ofNat
        (if rsp.kind = .taskFailed then (hb.board.pending.collectBySession rsp.sessionId).length
          else 0) } := by
  unfold handleResponse
  cases hcase : rsp.kind with
  | connected => exact absurd hcase hkind
  | taskStarted => simp
  | audioChunk =>
    simp only [handleAudioChunk]
    split <;> simp
  | taskFinished => simp
  | taskFailed => simp [foldl_failTask_metrics]
  | disconnected =>
    have hlost (ids : List String) : (ids.foldl failLost hb).board.metrics = hb.board.metrics :=
      foldl_proj (fun hb : Heartbeat => hb.board.metrics) fun _ _ => rfl
    simp [hlost]

/-- An upstream event keeps the pool well keyed. -/
theorem handleResponse_wellKeyed (hpool : hb.board.sessionPool.WellKeyed) :
    (handleResponse env rsp hb).board.sessionPool.WellKeyed := by
  unfold handleResponse
  cases rsp.kind with
  | connected => exact hpool.markAndPromote fun _ => rfl
  | taskStarted => exact hpool
  | audioChunk =>
    simp only [handleAudioChunk]
    split <;> exact hpool
  | taskFinished => exact hpool
  | taskFailed =>
    simp only [foldl_failTask_sessionPool]
    exact hpool.mark fun _ => rfl
  | disconnected =>
    simp only [foldl_failLost_sessionPool]
    exact hpool.markClosed

/-- The sessions that a batch has touched, after an upstream event. -/
theorem handleResponse_changedSessions :
    sid ∈ (handleResponse env rsp hb).changedSessions ↔
      sid ∈ hb.changedSessions ∨
        (sid = rsp.sessionId ∧ rsp.kind ≠ .taskStarted ∧ rsp.kind ≠ .audioChunk) := by
  have hfail (ids : List String) :
      (ids.foldl (failTask rsp) hb).changedSessions = hb.changedSessions :=
    foldl_proj (fun hb : Heartbeat => hb.changedSessions) fun _ _ => rfl
  have hlost (ids : List String) :
      (ids.foldl failLost hb).changedSessions = hb.changedSessions :=
    foldl_proj (fun hb : Heartbeat => hb.changedSessions) fun _ _ => rfl
  unfold handleResponse
  cases rsp.kind with
  | connected => simp [or_comm]
  | taskStarted => simp
  | audioChunk =>
    simp only [handleAudioChunk]
    split <;> simp
  | taskFinished => simp [or_comm]
  | taskFailed => simp [hfail, or_comm]
  | disconnected => simp [hlost, or_comm]

/-- The records of requests after a loop that changes the record of each request in turn. -/
theorem foldl_amend_get_pending {amend : Heartbeat → String → Heartbeat}
    {f : PendingRequest → PendingRequest}
    (hamend : ∀ hb id rid, (amend hb id).board.pending.get rid =
      if rid = id then (hb.board.pending.get rid).map f else hb.board.pending.get rid)
    {ids : List String} (hids : ids.Nodup) :
    (ids.foldl amend hb).board.pending.get rid =
      if rid ∈ ids then (hb.board.pending.get rid).map f else hb.board.pending.get rid := by
  induction ids generalizing hb with
  | nil => simp
  | cons id ids ih =>
    obtain ⟨hnot, hids⟩ := List.nodup_cons.mp hids
    rw [List.foldl_cons, ih hids, hamend]
    by_cases h : rid = id
    · subst h
      simp [hnot]
    · simp [h]

/-- The records of requests after the loop over the requests of a failed task. -/
theorem foldl_failTask_get_pending {ids : List String} (hids : ids.Nodup) :
    (ids.foldl (failTask rsp) hb).board.pending.get rid =
      if rid ∈ ids then (hb.board.pending.get rid).map fun p =>
        { p with state := .failed, statusCode := rsp.statusCode, statusMsg := rsp.statusMsg }
      else hb.board.pending.get rid := by
  refine foldl_amend_get_pending (fun hb id rid => ?_) hids
  simp only [failTask, PendingRequestStore.get_update, PendingRequestStore.get_setState]
  by_cases h : rid = id
  · simp [h, Function.comp_def]
  · simp [h]

/-- The records of requests after the loop over the requests of a lost session. -/
theorem foldl_failLost_get_pending {ids : List String} (hids : ids.Nodup) :
    (ids.foldl failLost hb).board.pending.get rid =
      if rid ∈ ids then (hb.board.pending.get rid).map fun p => { p with state := .failed }
      else hb.board.pending.get rid := by
  refine foldl_amend_get_pending (fun hb id rid => ?_) hids
  simp only [failLost, PendingRequestStore.get_setState]

/-- Updating the requests bound to a session, seen from one request. -/
private theorem collectBySession_map {f : PendingRequest → PendingRequest} :
    (if rid ∈ hb.board.pending.collectBySession sid then (hb.board.pending.get rid).map f
      else hb.board.pending.get rid) =
      (hb.board.pending.get rid).map fun p => if p.sessionId = sid then f p else p := by
  cases hget : hb.board.pending.get rid with
  | none => simp
  | some p =>
    by_cases h : p.sessionId = sid
    · have hmem : rid ∈ hb.board.pending.collectBySession sid :=
        PendingRequestStore.mem_collectBySession.mpr ⟨p, hget, h⟩
      simp [h, hmem]
    · have hmem : rid ∉ hb.board.pending.collectBySession sid := by
        intro hmem
        obtain ⟨p', hp', h'⟩ := PendingRequestStore.mem_collectBySession.mp hmem
        obtain rfl := Option.some.inj (hget.symm.trans hp')
        exact h h'
      simp [h, hmem]

/-- The records of requests after an upstream event. -/
theorem handleResponse_get_pending :
    (handleResponse env rsp hb).board.pending.get rid =
      match rsp.kind with
      | .audioChunk =>
        if rid = hb.currentOf rsp.sessionId ∧ rid ≠ "" then
          (hb.board.pending.get rid).map fun p =>
            p.append (hexDecode rsp.audioHex) rsp.isFinal rsp.usageCharacters
              (env.steadyClock hb.steadyReads)
        else hb.board.pending.get rid
      | .taskFailed =>
        (hb.board.pending.get rid).map fun p =>
          if p.sessionId = rsp.sessionId then
            { p with state := .failed, statusCode := rsp.statusCode, statusMsg := rsp.statusMsg }
          else p
      | .disconnected =>
        (hb.board.pending.get rid).map fun p =>
          if p.sessionId = rsp.sessionId then { p with state := .failed } else p
      | _ => hb.board.pending.get rid := by
  unfold handleResponse
  cases rsp.kind with
  | connected => rfl
  | taskStarted => rfl
  | audioChunk =>
    simp only [handleAudioChunk]
    by_cases hempty : hb.currentOf rsp.sessionId = ""
    · rw [if_pos hempty, if_neg]
      rintro ⟨h, hne⟩
      exact hne (h.trans hempty)
    · rw [if_neg hempty]
      simp only [PendingRequestStore.appendChunk, PendingRequestStore.get_update]
      by_cases h : rid = hb.currentOf rsp.sessionId
      · subst h
        simp [hempty]
      · simp [h]
  | taskFinished => rfl
  | taskFailed =>
    exact (foldl_failTask_get_pending (Table.nodup_collect _ _)).trans collectBySession_map
  | disconnected =>
    exact (foldl_failLost_get_pending (Table.nodup_collect _ _)).trans collectBySession_map

/-- An upstream event neither adds nor removes a request, nor moves it to another session. -/
theorem handleResponse_pending_sessionId :
    ((handleResponse env rsp hb).board.pending.get rid).map (·.sessionId) =
      (hb.board.pending.get rid).map (·.sessionId) := by
  rw [handleResponse_get_pending]
  cases hb.board.pending.get rid with
  | none => split <;> simp
  | some p =>
    split
    · split <;> rfl
    · simp only [Option.map_some]
      split <;> rfl
    · simp only [Option.map_some]
      split <;> rfl
    · rfl

/-- So a session keeps the number of its requests. -/
theorem handleResponse_length_collectBySession :
    ((handleResponse env rsp hb).board.pending.collectBySession sid).length =
      (hb.board.pending.collectBySession sid).length := by
  have hmem (hb : Heartbeat) (rid : String) : rid ∈ hb.board.pending.collectBySession sid ↔
      (hb.board.pending.get rid).map (·.sessionId) = some sid := by
    rw [PendingRequestStore.mem_collectBySession, Option.map_eq_some_iff]
  have hsame (rid : String) :
      rid ∈ (handleResponse env rsp hb).board.pending.collectBySession sid ↔
        rid ∈ hb.board.pending.collectBySession sid := by
    rw [hmem, hmem, handleResponse_pending_sessionId]
  exact ((List.perm_ext_iff_of_nodup (Table.nodup_collect _ _)
    (Table.nodup_collect _ _)).mpr hsame).length_eq

/-- A step that produces no output and leaves the accounting alone: the change set, the
admission counters, the random generator and the size of the pool are as before. -/
structure Quiet (hb hb' : Heartbeat) : Prop where
  changeset : hb'.changeset = hb.changeset
  inflight : hb'.board.metrics.inflight = hb.board.metrics.inflight
  queued : hb'.board.metrics.queued = hb.board.metrics.queued
  rngDraws : hb'.rngDraws = hb.rngDraws
  maxSize : hb'.board.sessionPool.maxSize = hb.board.sessionPool.maxSize

/-- Promoting a session does not change the size of the pool. -/
private theorem markAndPromote_maxSize {pool : SessionPool} {f : SessionRecord → SessionRecord} :
    (pool.markAndPromote sid f).maxSize = pool.maxSize := by
  unfold SessionPool.markAndPromote
  split <;> rfl

/-- An upstream event by itself produces no output. -/
theorem handleResponse_quiet : Quiet hb (handleResponse env rsp hb) := by
  let view (hb : Heartbeat) := (hb.changeset, hb.board.metrics.inflight,
    hb.board.metrics.queued, hb.rngDraws, hb.board.sessionPool.maxSize)
  have hview : view (handleResponse env rsp hb) = view hb := by
    unfold handleResponse
    cases rsp.kind with
    | connected => simp [view, SessionPool.markReady, markAndPromote_maxSize,
        MetricsSnapshot.incUpstreamConnected]
    | taskStarted => rfl
    | audioChunk =>
      simp only [handleAudioChunk]
      split <;> rfl
    | taskFinished => rfl
    | taskFailed => exact foldl_proj view fun _ _ => rfl
    | disconnected => exact foldl_proj view fun _ _ => rfl
  simp only [view, Prod.mk.injEq] at hview
  obtain ⟨hchange, hinflight, hqueued, hdraws, hsize⟩ := hview
  exact ⟨hchange, hinflight, hqueued, hdraws, hsize⟩

end Responses

/-! ### Requests -/

section Requests

variable {req : TtsRequestMsg}

/-- What `handle_request` decides about a request, as a function of the state in which
it arrives. -/
inductive Admission where
  | refused
  | onLocal
  | noSession
  | onSession (h : SessionHandle)

/-- The decision of `handle_request`. -/
def admission (env : Env) (req : TtsRequestMsg) (hb : Heartbeat) : Admission :=
  if !(evaluate env hb.board.metrics).1.admitted then .refused
  else if shouldUseLocal env req then .onLocal
  else
    let h := (acquireOrCreateSession env hb).1
    if h.sessionId = "" then .noSession else .onSession h

/-- The controller admits exactly below both watermarks. -/
theorem evaluate_admitted {metrics : MetricsSnapshot} :
    (evaluate env metrics).1.admitted = true ↔
      metrics.inflight < env.highWatermark ∧ metrics.queued < env.queueHighWatermark := by
  unfold evaluate
  by_cases h : metrics.inflight ≥ env.highWatermark ∨ metrics.queued ≥ env.queueHighWatermark
  · simp only [h, if_true, Bool.false_eq_true, false_iff, not_and, UInt64.not_lt]
    intro hlt
    exact h.resolve_left (UInt64.not_le.mpr hlt)
  · simp only [h, if_false]
    obtain ⟨hinflight, hqueued⟩ := not_or.mp h
    split <;> simp [UInt64.not_le.mp hinflight, UInt64.not_le.mp hqueued]

/-- A request is bound to a session when the controller admits it, it is served upstream and
a session is to be had. -/
theorem admission_eq_onSession_iff {handle : SessionHandle} :
    admission env req hb = .onSession handle ↔
      (evaluate env hb.board.metrics).1.admitted = true ∧ shouldUseLocal env req = false ∧
        (acquireOrCreateSession env hb).1 = handle ∧ handle.sessionId ≠ "" := by
  unfold admission
  cases (evaluate env hb.board.metrics).1.admitted with
  | false => simp
  | true =>
    cases shouldUseLocal env req with
    | true => simp
    | false =>
      simp only [Bool.not_true, Bool.false_eq_true, if_false, true_and]
      split
      · rename_i hempty
        simp only [reduceCtorEq, false_iff]
        rintro ⟨rfl, hne⟩
        exact hne hempty
      · rename_i hne
        simp only [Admission.onSession.injEq]
        constructor
        · rintro rfl
          exact ⟨rfl, hne⟩
        · exact And.left

/-- The controller only writes the backpressure level. -/
theorem evaluate_metrics (env : Env) (metrics : MetricsSnapshot) :
    ∃ level, (evaluate env metrics).2 = metrics.setBackpressureLevel level := by
  unfold evaluate
  simp only
  split
  · exact ⟨2, rfl⟩
  · split
    · exact ⟨1, rfl⟩
    · exact ⟨0, rfl⟩

/-- A generated session identifier is never empty. -/
theorem generateSessionId_ne_empty (word : UInt64) : generateSessionId word ≠ "" := by
  intro h
  have hlist := congrArg String.toList h
  simp [generateSessionId] at hlist

/-- The record of the session named by a handle, right after its acquisition: a ready
session is now streaming, a new session is connecting. -/
def Acquired (env : Env) (hb : Heartbeat) (h : SessionHandle) (s : SessionRecord) : Prop :=
  (h.reused = true ∧ ∃ idle, hb.board.sessionPool.get h.sessionId = some idle ∧
    idle.state = .ready ∧
    s = { idle with state := .streaming, lastActiveAt := env.steadyClock hb.steadyReads }) ∨
  (h.reused = false ∧ h.sessionId = generateSessionId (env.rng hb.rngDraws) ∧
    s = { sessionId := h.sessionId, state := .connecting })

/-- A successful acquisition writes the record of one session. -/
theorem acquire_get_session (hpool : hb.board.sessionPool.WellKeyed) {h : SessionHandle}
    {hb' : Heartbeat} (heq : acquireOrCreateSession env hb = (h, hb')) (hne : h.sessionId ≠ "") :
    ∃ s, Acquired env hb h s ∧ ∀ sid, hb'.board.sessionPool.get sid =
      if sid = h.sessionId then some s else hb.board.sessionPool.get sid := by
  unfold acquireOrCreateSession at heq
  split at heq
  · rename_i idle hidle
    obtain ⟨rfl, rfl⟩ := Prod.mk.inj heq
    obtain ⟨id, hget, hready⟩ := SessionPool.findIdleLeastRecentlyUsed_some hidle
    obtain rfl := hpool.sessionId_eq hget
    refine ⟨_, Or.inl ⟨rfl, idle, hget, hready, rfl⟩, fun sid => ?_⟩
    refine SessionPool.get_markAndPromote.trans ?_
    by_cases h : sid = idle.sessionId
    · subst h
      simp [hget]
    · simp [h]
  · obtain ⟨rfl, rfl⟩ := Prod.mk.inj heq
    cases hadd : (hb.board.sessionPool.add
        { sessionId := generateSessionId (env.rng hb.rngDraws), state := .connecting }).1 with
    | false => exact absurd (by simp [hadd]) hne
    | true =>
      refine ⟨_, Or.inr ⟨rfl, by simp, rfl⟩, fun sid => ?_⟩
      simpa [hadd] using SessionPool.get_add hadd

/-- A failed acquisition finds no ready session in a full pool and changes no session. -/
theorem acquire_failed (hpool : hb.board.sessionPool.WellKeyed)
    (hnamed : ∀ {sid s}, hb.board.sessionPool.get sid = some s → sid ≠ "") {h : SessionHandle}
    {hb' : Heartbeat} (heq : acquireOrCreateSession env hb = (h, hb')) (hempty : h.sessionId = "") :
    hb'.board.sessionPool = hb.board.sessionPool ∧
      hb.board.sessionPool.findIdleLeastRecentlyUsed = none ∧
      hb.board.sessionPool.maxSize ≤ hb.board.sessionPool.size := by
  unfold acquireOrCreateSession at heq
  split at heq
  · rename_i idle hidle
    obtain ⟨rfl, rfl⟩ := Prod.mk.inj heq
    obtain ⟨id, hget, -⟩ := SessionPool.findIdleLeastRecentlyUsed_some hidle
    have hid : idle.sessionId = id := hpool.sessionId_eq hget
    exact absurd (hid.symm.trans hempty) (hnamed hget)
  · rename_i hidle
    obtain ⟨rfl, rfl⟩ := Prod.mk.inj heq
    cases hadd : (hb.board.sessionPool.add
        { sessionId := generateSessionId (env.rng hb.rngDraws), state := .connecting }).1 with
    | true =>
      rw [hadd] at hempty
      exact absurd hempty (generateSessionId_ne_empty _)
    | false =>
      refine ⟨SessionPool.add_refused hadd, hidle, ?_⟩
      unfold SessionPool.add at hadd
      split at hadd
      · assumption
      · cases hadd

/-- The session that an acquisition finds does not depend on the metrics. -/
theorem acquire_fst_metrics (metrics : MetricsSnapshot) :
    (acquireOrCreateSession env { hb with board.metrics := metrics }).1 =
      (acquireOrCreateSession env hb).1 := by
  unfold acquireOrCreateSession
  cases hb.board.sessionPool.findIdleLeastRecentlyUsed <;> rfl

/-- An acquisition only writes the session pool and consumes the environment. -/
theorem acquire_frame (env : Env) (hb : Heartbeat) :
    ∃ pool reads draws, (acquireOrCreateSession env hb).2 =
      { hb with board.sessionPool := pool, steadyReads := reads, rngDraws := draws } ∧
      pool.maxSize = hb.board.sessionPool.maxSize ∧
      (hb.board.sessionPool.WellKeyed → pool.WellKeyed) := by
  unfold acquireOrCreateSession
  split
  · refine ⟨_, _, hb.rngDraws, rfl, markAndPromote_maxSize, fun hpool => ?_⟩
    exact hpool.markAndPromote fun _ => rfl
  · refine ⟨_, hb.steadyReads, _, rfl, ?_, fun hpool => hpool.add⟩
    unfold SessionPool.add
    split <;> rfl

/-- What an acquisition does to the sessions: it marks a ready session active, or it inserts a
new one if there is room. -/
theorem acquire_sessions (hpool : hb.board.sessionPool.WellKeyed) :
    (∃ idle t, hb.board.sessionPool.get idle.sessionId = some idle ∧ idle.state = .ready ∧
      (acquireOrCreateSession env hb).1.sessionId = idle.sessionId ∧
      ∀ sid, (acquireOrCreateSession env hb).2.board.sessionPool.get sid =
        if sid = idle.sessionId then some { idle with state := .streaming, lastActiveAt := t }
        else hb.board.sessionPool.get sid) ∨
    ((acquireOrCreateSession env hb).2.rngDraws = hb.rngDraws + 1 ∧
      ((acquireOrCreateSession env hb).1.sessionId = "" ∨
        (acquireOrCreateSession env hb).1.sessionId = generateSessionId (env.rng hb.rngDraws)) ∧
      ∀ sid, (acquireOrCreateSession env hb).2.board.sessionPool.get sid =
          hb.board.sessionPool.get sid ∨
        (sid = generateSessionId (env.rng hb.rngDraws) ∧
          (acquireOrCreateSession env hb).2.board.sessionPool.get sid =
            some { sessionId := sid, state := .connecting })) := by
  unfold acquireOrCreateSession
  split
  · rename_i idle hidle
    obtain ⟨id, hget, hready⟩ := SessionPool.findIdleLeastRecentlyUsed_some hidle
    obtain rfl := hpool.sessionId_eq hget
    refine Or.inl ⟨idle, env.steadyClock hb.steadyReads, hget, hready, rfl, fun sid => ?_⟩
    refine SessionPool.get_markAndPromote.trans ?_
    by_cases h : sid = idle.sessionId
    · subst h
      simp [hget]
    · simp [h]
  · cases hadd : (hb.board.sessionPool.add
        { sessionId := generateSessionId (env.rng hb.rngDraws), state := .connecting }).1 with
    | false =>
      refine Or.inr ⟨rfl, Or.inl (by simp [hadd]), fun sid => Or.inl ?_⟩
      exact congrArg (SessionPool.get · sid) (SessionPool.add_refused hadd)
    | true =>
      refine Or.inr ⟨rfl, Or.inr (by simp [hadd]), fun sid => ?_⟩
      by_cases hsid : sid = generateSessionId (env.rng hb.rngDraws)
      · subst hsid
        exact Or.inr ⟨rfl, (SessionPool.get_add hadd).trans (if_pos rfl)⟩
      · exact Or.inl ((SessionPool.get_add hadd).trans (if_neg hsid))

/-- What no request does, whatever the pool holds: it leaves the other requests, the writes
and the sessions that are in use alone, and it names no session after another request. -/
structure RequestFrame (env : Env) (req : TtsRequestMsg) (hb hb' : Heartbeat) : Prop where
  others : ∀ {rid}, rid ≠ req.requestId →
    hb'.board.pending.get rid = hb.board.pending.get rid
  clientWrites : hb'.changeset.clientWrites = hb.changeset.clientWrites
  wellKeyed : hb'.board.sessionPool.WellKeyed
  busy : ∀ {sid s}, hb.board.sessionPool.get sid = some s → s.state ≠ .ready →
    (hb'.rngDraws ≠ hb.rngDraws → generateSessionId (env.rng hb.rngDraws) ≠ sid) →
    hb'.board.sessionPool.get sid = some s
  current : ∀ {sid s'}, hb'.board.sessionPool.get sid = some s' →
    s'.currentRequestId = req.requestId ∨ s'.currentRequestId = "" ∨
      ∃ s, hb.board.sessionPool.get sid = some s ∧ s'.currentRequestId = s.currentRequestId

/-- The effect of a request that is not admitted: a note on the bus, and otherwise nothing
that the heartbeat reads again. -/
structure Rejected (hb hb' : Heartbeat) : Prop where
  sessionPool : hb'.board.sessionPool = hb.board.sessionPool
  pending : hb'.board.pending = hb.board.pending
  changeset : hb'.changeset = hb.changeset
  changedSessions : hb'.changedSessions = hb.changedSessions
  inflight : hb'.board.metrics.inflight = hb.board.metrics.inflight
  queued : hb'.board.metrics.queued = hb.board.metrics.queued

/-- The effect of handing a request to the local engine. -/
structure OnLocal (env : Env) (req : TtsRequestMsg) (hb hb' : Heartbeat) : Prop where
  below : hb.board.metrics.inflight < env.highWatermark
  useLocal : shouldUseLocal env req = true
  sessionPool : hb'.board.sessionPool = hb.board.sessionPool
  record : ∃ p, hb'.board.pending.get req.requestId = some p ∧ p.state = .streaming ∧
    match hb.board.pending.get req.requestId with
    | none => p.sessionId = "" ∧ p.finalReceived = false
    | some old => p.sessionId = old.sessionId ∧ p.finalReceived = old.finalReceived
  others : ∀ {rid}, rid ≠ req.requestId →
    hb'.board.pending.get rid = hb.board.pending.get rid
  changeset : hb'.changeset =
    { hb.changeset with localJobs := hb.changeset.localJobs ++ [localJob req] }
  changedSessions : hb'.changedSessions = hb.changedSessions
  inflight : hb'.board.metrics.inflight = hb.board.metrics.inflight + 1
  queued : hb'.board.metrics.queued = hb.board.metrics.queued

/-- The effect of binding a request to the session named by a handle, whose record after
the acquisition is given. -/
structure OnSession (env : Env) (req : TtsRequestMsg) (h : SessionHandle) (s : SessionRecord)
    (hb hb' : Heartbeat) : Prop where
  below : hb.board.metrics.inflight < env.highWatermark
  useLocal : shouldUseLocal env req = false
  handle : (acquireOrCreateSession env hb).1 = h
  named : h.sessionId ≠ ""
  acquired : Acquired env hb h s
  session : ∀ {sid}, hb'.board.sessionPool.get sid =
    if sid = h.sessionId then some { s with currentRequestId := req.requestId }
    else hb.board.sessionPool.get sid
  wellKeyed : hb'.board.sessionPool.WellKeyed
  maxSize : hb'.board.sessionPool.maxSize = hb.board.sessionPool.maxSize
  record : ∃ t, hb'.board.pending.get req.requestId =
    some { boundPending req.requestId h.sessionId req with createdAt := t, lastChunkAt := t }
  others : ∀ {rid}, rid ≠ req.requestId →
    hb'.board.pending.get rid = hb.board.pending.get rid
  changeset : hb'.changeset =
    { hb.changeset with wsFrames := hb.changeset.wsFrames ++ taskFrames env h req }
  changedSessions : hb'.changedSessions = setInsert h.sessionId hb.changedSessions
  inflight : hb'.board.metrics.inflight = hb.board.metrics.inflight + 1
  queued : hb'.board.metrics.queued = hb.board.metrics.queued

/-- A local admission does not bring a final chunk. -/
theorem OnLocal.finalReceived {hb' : Heartbeat} (h : OnLocal env req hb hb')
    (hnone : ∀ {p}, hb.board.pending.get rid = some p → p.finalReceived = false)
    {p : PendingRequest} (hp : hb'.board.pending.get rid = some p) : p.finalReceived = false := by
  by_cases hrid : rid = req.requestId
  · subst hrid
    obtain ⟨p', hp', -, hrecord⟩ := h.record
    obtain rfl := Option.some.inj (hp'.symm.trans hp)
    cases hold : hb.board.pending.get req.requestId with
    | none =>
      rw [hold] at hrecord
      exact hrecord.2
    | some old =>
      rw [hold] at hrecord
      exact hrecord.2.trans (hnone hold)
  · rw [h.others hrid] at hp
    exact hnone hp

/-- A local admission writes one request. -/
theorem admitLocal_others (hrid : rid ≠ req.requestId) :
    (admitLocal env req hb).board.pending.get rid = hb.board.pending.get rid := by
  unfold admitLocal
  cases hb.board.pending.get req.requestId with
  | none => simp [localPending, hrid]
  | some old => simp [hrid]

/-- The local branch of `handle_request`. -/
theorem admitLocal_effect (hbelow : hb.board.metrics.inflight < env.highWatermark)
    (hlocal : shouldUseLocal env req = true) : OnLocal env req hb (admitLocal env req hb) where
  below := hbelow
  useLocal := hlocal
  sessionPool := rfl
  record := by
    unfold admitLocal
    cases hget : hb.board.pending.get req.requestId with
    | none =>
      refine ⟨{ localPending req with
        createdAt := env.steadyClock hb.steadyReads
        lastChunkAt := env.steadyClock hb.steadyReads }, ?_, rfl, rfl, rfl⟩
      simp [localPending]
    | some old =>
      refine ⟨{ old with
        sampleRate := req.audio.sampleRate
        channels := req.audio.channel
        format := .pcm
        state := .streaming }, ?_, rfl, rfl, rfl⟩
      simp [hget]
  others := admitLocal_others
  changeset := rfl
  changedSessions := rfl
  inflight := rfl
  queued := rfl

/-- The upstream branch of `handle_request` once a session has been acquired. -/
theorem admitUpstream_effect (hpool : hb.board.sessionPool.WellKeyed)
    (hbelow : hb.board.metrics.inflight < env.highWatermark)
    (hlocal : shouldUseLocal env req = false) {h : SessionHandle} {hb' : Heartbeat}
    (heq : acquireOrCreateSession env hb = (h, hb')) (hne : h.sessionId ≠ "") :
    ∃ s, OnSession env req h s hb (admitUpstream env req hb) := by
  obtain ⟨s, hacquired, hsession⟩ := acquire_get_session hpool heq hne
  obtain ⟨pool, reads, draws, hframe, hsize, hkeyed⟩ := acquire_frame env hb
  rw [heq] at hframe
  subst hframe
  refine ⟨s, ?_⟩
  simp only [admitUpstream, heq, hne, if_false, bindRequest]
  exact
    { below := hbelow
      useLocal := hlocal
      handle := by rw [heq]
      named := hne
      acquired := hacquired
      session := by
        intro sid
        refine SessionPool.get_mark.trans ?_
        rw [show pool.get sid = _ from hsession sid]
        by_cases h : sid = h.sessionId
        · simp [h]
        · simp [h]
      wellKeyed := (hkeyed hpool).mark fun _ => rfl
      maxSize := hsize
      record := ⟨env.steadyClock reads, by simp [boundPending]⟩
      others := by
        intro rid hrid
        simp [boundPending, hrid]
      changeset := rfl
      changedSessions := rfl
      inflight := rfl
      queued := rfl }

/-- The upstream branch of `handle_request` when there is no session to be had. -/
theorem admitUpstream_refused (hpool : hb.board.sessionPool.WellKeyed)
    (hnamed : ∀ {sid s}, hb.board.sessionPool.get sid = some s → sid ≠ "")
    {h : SessionHandle} {hb' : Heartbeat} (heq : acquireOrCreateSession env hb = (h, hb'))
    (hempty : h.sessionId = "") : Rejected hb (admitUpstream env req hb) := by
  have hsame := (acquire_failed hpool hnamed heq hempty).1
  obtain ⟨pool, reads, draws, hframe, -, -⟩ := acquire_frame env hb
  rw [heq] at hframe
  subst hframe
  simp only [admitUpstream, heq, hempty, if_true, publish]
  exact ⟨hsame, rfl, rfl, rfl, rfl, rfl⟩

/-- A request handed to the local engine. -/
theorem admitLocal_frame (hpool : hb.board.sessionPool.WellKeyed) :
    RequestFrame env req hb (admitLocal env req hb) where
  others := admitLocal_others
  clientWrites := rfl
  wellKeyed := hpool
  busy := fun hs _ _ => hs
  current := fun hs' => Or.inr (Or.inr ⟨_, hs', rfl⟩)

/-- An acquisition leaves a session that is in use alone, and does not hand it out. -/
theorem acquire_busy (hpool : hb.board.sessionPool.WellKeyed) {sid : String} {s : SessionRecord}
    (hs : hb.board.sessionPool.get sid = some s) (hready : s.state ≠ .ready)
    (hfresh : (acquireOrCreateSession env hb).2.rngDraws ≠ hb.rngDraws →
      generateSessionId (env.rng hb.rngDraws) ≠ sid) :
    (acquireOrCreateSession env hb).2.board.sessionPool.get sid = some s ∧
      ((acquireOrCreateSession env hb).1.sessionId ≠ "" →
        sid ≠ (acquireOrCreateSession env hb).1.sessionId) := by
  rcases @acquire_sessions env hb hpool with
    ⟨idle, t, hidle, hstate, hhandle, hget⟩ | ⟨hdraws, hhandle, hget⟩
  · have hother : sid ≠ idle.sessionId := by
      rintro rfl
      obtain rfl := Option.some.inj (hs.symm.trans hidle)
      exact hready hstate
    exact ⟨(hget sid).trans ((if_neg hother).trans hs), fun _ => hhandle ▸ hother⟩
  · have hnew := hfresh (by omega)
    constructor
    · rcases hget sid with hsame | ⟨hsid, -⟩
      · exact hsame.trans hs
      · exact absurd hsid.symm hnew
    · intro hne
      rw [hhandle.resolve_left hne]
      exact hnew.symm

/-- An acquisition gives no session a request. -/
theorem acquire_current (hpool : hb.board.sessionPool.WellKeyed) {sid : String}
    {s' : SessionRecord}
    (hs' : (acquireOrCreateSession env hb).2.board.sessionPool.get sid = some s') :
    s'.currentRequestId = "" ∨
      ∃ s, hb.board.sessionPool.get sid = some s ∧ s'.currentRequestId = s.currentRequestId := by
  rcases @acquire_sessions env hb hpool with ⟨idle, t, hidle, -, -, hget⟩ | ⟨-, -, hget⟩
  · rw [hget sid] at hs'
    split at hs'
    · rename_i hsid
      obtain rfl := Option.some.inj hs'
      exact Or.inr ⟨idle, hsid ▸ hidle, rfl⟩
    · exact Or.inr ⟨s', hs', rfl⟩
  · rcases hget sid with hsame | ⟨-, hnew⟩
    · exact Or.inr ⟨s', hsame.symm.trans hs', rfl⟩
    · obtain rfl := Option.some.inj (hnew.symm.trans hs')
      exact Or.inl rfl

/-- A request on its way upstream, whether or not it finds a session. -/
theorem admitUpstream_frame (hpool : hb.board.sessionPool.WellKeyed) :
    RequestFrame env req hb (admitUpstream env req hb) := by
  have hbusy := @acquire_busy env hb hpool
  have hcurrent := @acquire_current env hb hpool
  obtain ⟨pool, reads, draws, hframe, -, hkeyed⟩ := acquire_frame env hb
  rw [hframe] at hbusy hcurrent
  by_cases hempty : (acquireOrCreateSession env hb).1.sessionId = ""
  · simp only [admitUpstream, hempty, if_true, hframe, publish]
    exact
      { others := fun _ => rfl
        clientWrites := rfl
        wellKeyed := hkeyed hpool
        busy := fun hs hready hfresh => (hbusy hs hready hfresh).1
        current := fun hs' => Or.inr (hcurrent hs') }
  · simp only [admitUpstream, hempty, if_false, hframe, bindRequest]
    exact
      { others := fun hrid => by simp [boundPending, hrid]
        clientWrites := rfl
        wellKeyed := (hkeyed hpool).mark fun _ => rfl
        busy := by
          intro sid s hs hready hfresh
          obtain ⟨hsame, hother⟩ := hbusy hs hready hfresh
          exact SessionPool.get_mark.trans ((if_neg (hother hempty)).trans hsame)
        current := by
          intro sid s' hs'
          replace hs' := SessionPool.get_mark.symm.trans hs'
          split at hs'
          · obtain ⟨s, hs, rfl⟩ := Option.map_eq_some_iff.mp hs'
            exact Or.inl rfl
          · exact Or.inr (hcurrent hs') }

/-- What no request does, for `handle_request` as a whole. -/
theorem handleRequest_frame (hpool : hb.board.sessionPool.WellKeyed) :
    RequestFrame env req hb (handleRequest env req hb) := by
  obtain ⟨level, hlevel⟩ := evaluate_metrics env hb.board.metrics
  unfold handleRequest
  simp only [hlevel]
  generalize hleveled : { hb with board.metrics := hb.board.metrics.setBackpressureLevel level }
    = hb₀
  have hpool₀ : hb₀.board.sessionPool.WellKeyed := by
    rw [← hleveled]
    exact hpool
  have hframe : RequestFrame env req hb₀
      (if !(evaluate env hb.board.metrics).1.admitted then
        hb₀.publish (.wsFrameSendFailed req.requestId "backpressure_admission_denied")
      else if shouldUseLocal env req then admitLocal env req hb₀
      else admitUpstream env req hb₀) := by
    split
    · exact ⟨fun _ => rfl, rfl, hpool₀, fun hs _ _ => hs,
        fun hs' => Or.inr (Or.inr ⟨_, hs', rfl⟩)⟩
    · split
      · exact admitLocal_frame hpool₀
      · exact admitUpstream_frame hpool₀
  subst hleveled
  exact { hframe with }

/-- What `handle_request` does: nothing, one local admission, or one upstream admission. -/
theorem handleRequest_effect (hpool : hb.board.sessionPool.WellKeyed)
    (hnamed : ∀ {sid s}, hb.board.sessionPool.get sid = some s → sid ≠ "") :
    ((admission env req hb = .refused ∨ admission env req hb = .noSession) ∧
      Rejected hb (handleRequest env req hb)) ∨
    (admission env req hb = .onLocal ∧ OnLocal env req hb (handleRequest env req hb)) ∨
    ∃ h s, admission env req hb = .onSession h ∧
      OnSession env req h s hb (handleRequest env req hb) := by
  obtain ⟨level, hlevel⟩ := evaluate_metrics env hb.board.metrics
  unfold admission handleRequest
  simp only [hlevel]
  -- the controller has only written the backpressure level, which nothing below reads
  generalize hleveled : { hb with board.metrics := hb.board.metrics.setBackpressureLevel level }
    = hb₀
  have hpool₀ : hb₀.board.sessionPool.WellKeyed := by
    rw [← hleveled]
    exact hpool
  cases hadmitted : (evaluate env hb.board.metrics).1.admitted with
  | false =>
    left
    simp only [Bool.not_false, if_true]
    rw [← hleveled]
    exact ⟨Or.inl trivial, rfl, rfl, rfl, rfl, rfl, rfl⟩
  | true =>
    have hbelow : hb₀.board.metrics.inflight < env.highWatermark := by
      rw [← hleveled]
      exact (evaluate_admitted.mp hadmitted).1
    simp only [Bool.not_true, Bool.false_eq_true, if_false]
    cases hlocal : shouldUseLocal env req with
    | true =>
      simp only [if_true]
      have heffect := admitLocal_effect hbelow hlocal
      subst hleveled
      exact Or.inr (Or.inl ⟨trivial, { heffect with }⟩)
    | false =>
      simp only [Bool.false_eq_true, if_false]
      have hhandle : (acquireOrCreateSession env hb₀).1 = (acquireOrCreateSession env hb).1 := by
        rw [← hleveled]
        exact acquire_fst_metrics _
      rw [← hhandle]
      by_cases hempty : (acquireOrCreateSession env hb₀).1.sessionId = ""
      · have hnamed₀ : ∀ {sid s}, hb₀.board.sessionPool.get sid = some s → sid ≠ "" := by
          rw [← hleveled]
          exact hnamed
        have heffect : Rejected hb₀ (admitUpstream env req hb₀) :=
          admitUpstream_refused hpool₀ hnamed₀ (Prod.eta _).symm hempty
        simp only [hempty, if_true]
        subst hleveled
        exact Or.inl ⟨Or.inr trivial, { heffect with }⟩
      · obtain ⟨s, heffect⟩ := admitUpstream_effect hpool₀ hbelow hlocal (Prod.eta _).symm hempty
        simp only [hempty, if_false]
        refine Or.inr (Or.inr ⟨_, s, rfl, ?_⟩)
        subst hleveled
        exact { heffect with handle := hhandle.symm }

end Requests

/-! ### Answers and cancellations -/

/-- The effect of an answer of the local engine, whether or not it is still awaited. -/
structure Answered (id : String) (w : WriteToClient) (hb hb' : Heartbeat) : Prop where
  write : w.requestId = id ∧ w.isFinal = true
  sessionPool : hb'.board.sessionPool = hb.board.sessionPool
  pending : hb'.board.pending = hb.board.pending.remove id
  changeset : hb'.changeset =
    { hb.changeset with clientWrites := hb.changeset.clientWrites ++ [w] }
  changedSessions : hb'.changedSessions = hb.changedSessions
  inflight : hb'.board.metrics.inflight = hb.board.metrics.inflight - 1
  queued : hb'.board.metrics.queued = hb.board.metrics.queued

/-- The write with which a message answers a local job. -/
def answerWrite : Message → Option WriteToClient
  | .localComplete c => some (completeWrite c)
  | .localFailed f => some (failedWrite f)
  | _ => none

/-- Both kinds of answer write to the client, give back a slot and drop the request. -/
theorem answer_effect {m : Message} {w : WriteToClient} (hw : answerWrite m = some w) :
    m.answerId? = some w.requestId ∧ Answered w.requestId w hb (handleMessage env hb m) := by
  cases m with
  | request req => cases hw
  | response rsp => cases hw
  | cancel msg => cases hw
  | localComplete c =>
    obtain rfl := Option.some.inj hw
    exact ⟨rfl, ⟨rfl, rfl⟩, rfl, rfl, rfl, rfl, rfl, rfl⟩
  | localFailed f =>
    obtain rfl := Option.some.inj hw
    exact ⟨rfl, ⟨rfl, rfl⟩, rfl, rfl, rfl, rfl, rfl, rfl⟩

/-- A message that answers a job has a final write for it. -/
theorem exists_answerWrite {m : Message} (hm : m.answerId? = some rid) :
    ∃ w, answerWrite m = some w ∧ w.requestId = rid ∧ w.isFinal = true := by
  cases m with
  | localComplete c => exact ⟨_, rfl, Option.some.inj hm, rfl⟩
  | localFailed f => exact ⟨_, rfl, Option.some.inj hm, rfl⟩
  | request req => cases hm
  | response rsp => cases hm
  | cancel msg => cases hm

/-- The records of requests after a cancellation. -/
theorem handleCancel_get_pending {msg : CancelRequestMsg} :
    (handleCancel msg hb).board.pending.get rid =
      if rid = msg.requestId then
        (hb.board.pending.get rid).map fun p => { p with state := .cancelled }
      else hb.board.pending.get rid :=
  PendingRequestStore.get_setState

/-! ### Any message -/

section Messages

/-- No message changes the maximal lifetime. -/
theorem handleMessage_maxLifetime (m : Message) :
    (handleMessage env hb m).board.sessionPool.maxLifetime = hb.board.sessionPool.maxLifetime := by
  have hpromote (pool : SessionPool) (id : String) (f : SessionRecord → SessionRecord) :
      (pool.markAndPromote id f).maxLifetime = pool.maxLifetime := by
    unfold SessionPool.markAndPromote
    split <;> rfl
  cases m with
  | request req =>
    simp only [handleMessage, handleRequest]
    split
    · rfl
    · split
      · rfl
      · have hacquire (hb : Heartbeat) :
            (acquireOrCreateSession env hb).2.board.sessionPool.maxLifetime =
            hb.board.sessionPool.maxLifetime := by
          unfold acquireOrCreateSession
          split
          · exact hpromote _ _ _
          · simp only [SessionPool.add]
            split <;> rfl
        simp only [admitUpstream]
        split <;> exact hacquire _
  | response rsp =>
    simp only [handleMessage, handleResponse]
    split
    · exact hpromote _ _ _
    · rfl
    · simp only [handleAudioChunk]
      split <;> rfl
    · rfl
    · exact foldl_proj (fun hb : Heartbeat => hb.board.sessionPool.maxLifetime) fun _ _ => rfl
    · exact foldl_proj (fun hb : Heartbeat => hb.board.sessionPool.maxLifetime) fun _ _ => rfl
  | cancel msg => rfl
  | localComplete c => rfl
  | localFailed f => rfl

/-- Only answers of the local engine make a handler write to a client. -/
theorem handleMessage_clientWrites (m : Message) :
    (handleMessage env hb m).changeset.clientWrites =
      hb.changeset.clientWrites ++ (answerWrite m).toList := by
  cases m with
  | request req =>
    obtain ⟨pool, reads, draws, hframe, -, -⟩ :=
      acquire_frame env { hb with board.metrics := (evaluate env hb.board.metrics).2 }
    have hrequest : (handleRequest env req hb).changeset.clientWrites =
        hb.changeset.clientWrites := by
      simp only [handleRequest]
      split
      · rfl
      · split
        · rfl
        · simp only [admitUpstream, hframe]
          split <;> rfl
    exact hrequest.trans (List.append_nil _).symm
  | response rsp =>
    refine (congrArg ChangeSet.clientWrites handleResponse_quiet.changeset).trans ?_
    exact (List.append_nil _).symm
  | cancel msg => exact (List.append_nil _).symm
  | localComplete c => rfl
  | localFailed f => rfl

/-- The writes of a batch are the answers of the local engine, in order. -/
theorem foldl_handleMessage_clientWrites (ms : List Message) :
    (ms.foldl (handleMessage env) hb).changeset.clientWrites =
      hb.changeset.clientWrites ++ ms.filterMap answerWrite := by
  rw [@foldl_log _ _ (handleMessage env) hb ms _ (fun hb => hb.changeset.clientWrites) _
    fun hb m => handleMessage_clientWrites m, List.filterMap_eq_flatMap_toList]

end Messages

/-! ### Emission -/

section Emission

variable {p : PendingRequest}

/-- The requests of a list that are pending, with their records. -/
def recordsOf (hb : Heartbeat) (ids : List String) : List (String × PendingRequest) :=
  ids.filterMap fun rid => (hb.board.pending.get rid).map fun p => (rid, p)

/-- The requests that the emission pass finds, with their records. -/
def emissions (hb : Heartbeat) : List (String × PendingRequest) :=
  recordsOf hb hb.board.pending.findReadyToEmit

/-- The requests that the emission pass finds. -/
theorem mem_emissions :
    (rid, p) ∈ emissions hb ↔ hb.board.pending.get rid = some p ∧ p.readyToEmit = true := by
  simp only [emissions, recordsOf, List.mem_filterMap, Option.map_eq_some_iff, Prod.mk.injEq,
    PendingRequestStore.mem_findReadyToEmit]
  constructor
  · rintro ⟨rid', ⟨p', hget', hready⟩, p'', hget, rfl, rfl⟩
    obtain rfl := Option.some.inj (hget.symm.trans hget')
    exact ⟨hget, hready⟩
  · rintro ⟨hget, hready⟩
    exact ⟨rid, ⟨p, hget, hready⟩, p, hget, rfl, rfl⟩

/-- A pending request is found at most once. -/
theorem filter_emissions (hget : hb.board.pending.get rid = some p) :
    (emissions hb).filter (fun e => e.1 = rid) =
      if p.readyToEmit = true then [(rid, p)] else [] := by
  have hrecords : ∀ ids : List String, (recordsOf hb ids).filter (fun e => e.1 = rid) =
      List.replicate (ids.count rid) (rid, p) := by
    intro ids
    induction ids with
    | nil => rfl
    | cons id ids ih =>
      by_cases hid : id = rid
      · subst hid
        simpa [recordsOf, hget, List.replicate_succ] using ih
      · cases hother : hb.board.pending.get id with
        | none => simpa [recordsOf, hother, hid] using ih
        | some q => simpa [recordsOf, hother, hid] using ih
  have hnodup : hb.board.pending.findReadyToEmit.Nodup := Table.nodup_collect _ _
  rw [emissions, hrecords]
  split
  · rename_i hready
    have hmem := PendingRequestStore.mem_findReadyToEmit.mpr ⟨p, hget, hready⟩
    rw [List.count_eq_one_of_mem hnodup hmem]
    rfl
  · rename_i hready
    rw [List.count_eq_zero_of_not_mem]
    · rfl
    · intro hmem
      obtain ⟨q, hq, hqready⟩ := PendingRequestStore.mem_findReadyToEmit.mp hmem
      obtain rfl := Option.some.inj (hget.symm.trans hq)
      exact hready hqready

/-- The records of requests after emitting one. -/
theorem emitCompleted_get_pending {id : String} :
    (emitCompleted hb id).board.pending.get rid =
      if rid = id then none else hb.board.pending.get rid := by
  unfold emitCompleted
  cases hget : hb.board.pending.get id with
  | none =>
    by_cases h : rid = id
    · simp [h, hget]
    · simp [h]
  | some p => exact PendingRequestStore.get_remove

/-- The records of requests after emitting a list of requests. -/
theorem foldl_emitCompleted_get_pending {ids : List String} :
    (ids.foldl emitCompleted hb).board.pending.get rid =
      if rid ∈ ids then none else hb.board.pending.get rid := by
  induction ids generalizing hb with
  | nil => simp
  | cons id ids ih =>
    rw [List.foldl_cons, ih, emitCompleted_get_pending]
    by_cases h : rid = id
    · simp [h]
    · simp [h]

/-- The effect of emitting requests, given with their records, on everything but the
pending requests. -/
structure Emitted (es : List (String × PendingRequest)) (hb hb' : Heartbeat) : Prop where
  changeset : hb'.changeset = { hb.changeset with
    clientWrites := hb.changeset.clientWrites ++ es.map fun e => completedWrite e.1 e.2 }
  session : ∀ {sid}, hb'.board.sessionPool.get sid = (hb.board.sessionPool.get sid).map fun s =>
    if sid ∈ es.map (fun e => e.2.sessionId) then { s with state := .draining } else s
  changedSessions : ∀ {sid}, sid ∈ hb'.changedSessions ↔
    sid ∈ es.map (fun e => e.2.sessionId) ∨ sid ∈ hb.changedSessions
  inflight : hb'.board.metrics.inflight = hb.board.metrics.inflight - UInt64.ofNat es.length
  queued : hb'.board.metrics.queued = hb.board.metrics.queued
  wellKeyed : hb.board.sessionPool.WellKeyed → hb'.board.sessionPool.WellKeyed
  bounds : hb'.board.sessionPool.maxSize = hb.board.sessionPool.maxSize ∧
    hb'.board.sessionPool.idleTimeout = hb.board.sessionPool.idleTimeout ∧
    hb'.board.sessionPool.maxLifetime = hb.board.sessionPool.maxLifetime

/-- Emitting nothing changes nothing. -/
theorem Emitted.refl (hb : Heartbeat) : Emitted [] hb hb where
  changeset := by simp
  session := by simp
  changedSessions := by simp
  inflight := by simp
  queued := rfl
  wellKeyed := id
  bounds := ⟨rfl, rfl, rfl⟩

/-- Emissions compose. -/
theorem Emitted.trans {es es' : List (String × PendingRequest)} {hb₁ hb₂ hb₃ : Heartbeat}
    (h : Emitted es hb₁ hb₂) (h' : Emitted es' hb₂ hb₃) : Emitted (es ++ es') hb₁ hb₃ where
  changeset := by simp [h'.changeset, h.changeset]
  session := by
    intro sid
    rw [h'.session, h.session, Option.map_map]
    congr 1
    funext s
    by_cases hmem : sid ∈ es.map fun e => e.2.sessionId
    · by_cases hmem' : sid ∈ es'.map fun e => e.2.sessionId
      · simp only [Function.comp_apply, List.map_append, List.mem_append, hmem, hmem', if_true,
          or_self]
      · simp only [Function.comp_apply, List.map_append, List.mem_append, hmem, hmem', if_true,
          if_false, or_false]
    · simp only [Function.comp_apply, List.map_append, List.mem_append, hmem, if_false, false_or]
  changedSessions := by
    intro sid
    rw [h'.changedSessions, h.changedSessions, List.map_append, List.mem_append]
    tauto
  inflight := by
    rw [h'.inflight, h.inflight, List.length_append, UInt64.ofNat_add]
    grind
  queued := h'.queued.trans h.queued
  wellKeyed := h'.wellKeyed ∘ h.wellKeyed
  bounds := ⟨h'.bounds.1.trans h.bounds.1, h'.bounds.2.1.trans h.bounds.2.1,
    h'.bounds.2.2.trans h.bounds.2.2⟩

/-- Emitting one pending request. -/
theorem emitCompleted_emitted (hget : hb.board.pending.get rid = some p) :
    Emitted [(rid, p)] hb (emitCompleted hb rid) := by
  unfold emitCompleted
  rw [hget]
  refine
    { changeset := rfl, session := fun {sid} => ?_, changedSessions := by simp, inflight := rfl,
      queued := rfl, wellKeyed := fun h => h.mark fun _ => rfl, bounds := ⟨rfl, rfl, rfl⟩ }
  refine SessionPool.get_mark.trans ?_
  by_cases h : sid = p.sessionId
  · simp [h]
  · simp [h]

/-- Emitting one request leaves the records of the others. -/
theorem recordsOf_emitCompleted {id : String} {ids : List String} (hnot : id ∉ ids) :
    recordsOf (emitCompleted hb id) ids = recordsOf hb ids := by
  refine List.filterMap_congr fun rid hrid => ?_
  have hne : rid ≠ id := fun h => hnot (h ▸ hrid)
  rw [emitCompleted_get_pending, if_neg hne]

/-- Emitting several requests. -/
theorem foldl_emitCompleted_emitted {ids : List String} (hids : ids.Nodup) :
    Emitted (recordsOf hb ids) hb (ids.foldl emitCompleted hb) := by
  induction ids generalizing hb with
  | nil => exact Emitted.refl hb
  | cons id ids ih =>
    obtain ⟨hnot, hids⟩ := List.nodup_cons.mp hids
    have htail := @ih (emitCompleted hb id) hids
    rw [recordsOf_emitCompleted hnot] at htail
    cases hget : hb.board.pending.get id with
    | none =>
      have hskip : emitCompleted hb id = hb := by simp [emitCompleted, hget]
      rw [hskip] at htail
      simpa [recordsOf, hget, hskip] using htail
    | some p => simpa [recordsOf, hget] using (emitCompleted_emitted hget).trans htail

/-- The emission pass. -/
theorem emitReady_emitted : Emitted (emissions hb) hb (emitReady hb) :=
  foldl_emitCompleted_emitted (Table.nodup_collect _ _)

/-- Emission does not change which sessions are beyond their lifetime. -/
theorem emitReady_lifetimeExpired :
    (emitReady hb).board.sessionPool.lifetimeExpired = hb.board.sessionPool.lifetimeExpired := by
  funext now s
  rw [SessionPool.lifetimeExpired, SessionPool.lifetimeExpired, emitReady_emitted.bounds.2.2]

/-- Emission does not change which records have been idle for the timeout. -/
theorem emitReady_idleExpired :
    (emitReady hb).board.sessionPool.idleExpired = hb.board.sessionPool.idleExpired := by
  funext now s
  rw [SessionPool.idleExpired, SessionPool.idleExpired, emitReady_emitted.bounds.2.1]

/-- Emission removes exactly the requests that are ready. -/
theorem emitReady_get_pending :
    (emitReady hb).board.pending.get rid = some p ↔
      hb.board.pending.get rid = some p ∧ p.readyToEmit = false := by
  unfold emitReady
  rw [foldl_emitCompleted_get_pending]
  constructor
  · intro h
    split at h
    · cases h
    · rename_i hmem
      refine ⟨h, ?_⟩
      rw [← Bool.not_eq_true]
      intro hready
      exact hmem (PendingRequestStore.mem_findReadyToEmit.mpr ⟨p, h, hready⟩)
  · rintro ⟨hget, hready⟩
    rw [if_neg, hget]
    intro hmem
    obtain ⟨p', hget', hready'⟩ := PendingRequestStore.mem_findReadyToEmit.mp hmem
    obtain rfl := Option.some.inj (hget.symm.trans hget')
    rw [hready] at hready'
    cases hready'

end Emission

/-! ### The end of a tick -/

section Finish

variable {inp : TickInput} {p : PendingRequest} {s : SessionRecord}

/-- The evolution of the board at the end of a tick. -/
def evolved (inp : TickInput) (hb : Heartbeat) : List CloseSession × DataBoard :=
  evolve ⟨(emitReady hb).changedSessions, (emitReady hb).changedRequests⟩ inp.now
    (emitReady hb).board

/-- What a tick leaves of the board, besides the metrics of the heartbeat itself. -/
theorem finishTick_board :
    (finishTick inp hb).2.board.pending = (evolved inp hb).2.pending ∧
      (finishTick inp hb).2.board.sessionPool = (evolved inp hb).2.sessionPool ∧
      (finishTick inp hb).2.board.metrics.inflight = (evolved inp hb).2.metrics.inflight ∧
      (finishTick inp hb).2.board.metrics.queued = (evolved inp hb).2.metrics.queued := by
  have hboard : ∃ us, (finishTick inp hb).2.board = { (evolved inp hb).2 with
      metrics := (evolved inp hb).2.metrics.incHeartbeat.recordHeartbeatLatencyUs us } := ⟨_, rfl⟩
  obtain ⟨us, hboard⟩ := hboard
  rw [hboard]
  -- the equations hold for any board, and `rfl` is slow on this one
  generalize (evolved inp hb).2 = board
  exact ⟨rfl, rfl, rfl, rfl⟩

/-- The change set of a tick. -/
theorem finishTick_collects :
    (finishTick inp hb).1 = { (emitReady hb).changeset with
      closeSessions := (emitReady hb).changeset.closeSessions ++ (evolved inp hb).1 } :=
  rfl

/-- The end of a tick removes exactly the requests that are emitted or swept. -/
theorem finishTick_get_pending :
    (finishTick inp hb).2.board.pending.get rid = some p ↔
      hb.board.pending.get rid = some p ∧ p.readyToEmit = false ∧ p.state.terminal = false := by
  rw [finishTick_board.1, evolved, evolve_get_pending, emitReady_get_pending, and_assoc]

/-- The sessions after a tick: those of the emission pass that `evolve` does not close. -/
theorem finishTick_get_session (hpool : hb.board.sessionPool.WellKeyed) :
    (finishTick inp hb).2.board.sessionPool.get sid = some s ↔
      (emitReady hb).board.sessionPool.get sid = some s ∧
        ¬(emitReady hb).board.sessionPool.closes
          ⟨(emitReady hb).changedSessions, (emitReady hb).changedRequests⟩ inp.now s := by
  rw [finishTick_board.2.1, evolved, evolve_get_session (emitReady_emitted.wellKeyed hpool)]

/-- The end of a tick keeps the pool well keyed. -/
theorem finishTick_wellKeyed (hpool : hb.board.sessionPool.WellKeyed) :
    (finishTick inp hb).2.board.sessionPool.WellKeyed := by
  rw [finishTick_board.2.1, evolved]
  exact evolve_wellKeyed (emitReady_emitted.wellKeyed hpool)

/-- The size of the pool is fixed. -/
theorem finishTick_maxSize :
    (finishTick inp hb).2.board.sessionPool.maxSize = hb.board.sessionPool.maxSize := by
  rw [finishTick_board.2.1, evolved, evolve_maxSize, emitReady_emitted.bounds.1]

/-- The writes of a tick: those of the handlers, then the emissions. -/
theorem finishTick_clientWrites :
    (finishTick inp hb).1.clientWrites =
      hb.changeset.clientWrites ++ (emissions hb).map fun e => completedWrite e.1 e.2 := by
  rw [finishTick_collects, emitReady_emitted.changeset]

/-- The local jobs of a tick are those of the handlers. -/
theorem finishTick_localJobs : (finishTick inp hb).1.localJobs = hb.changeset.localJobs := by
  rw [finishTick_collects, emitReady_emitted.changeset]

/-- Each emission gives back one slot. -/
theorem finishTick_inflight :
    (finishTick inp hb).2.board.metrics.inflight =
      hb.board.metrics.inflight - UInt64.ofNat (emissions hb).length := by
  rw [finishTick_board.2.2.1, evolved, evolve_metrics, emitReady_emitted.inflight]

/-- The end of a tick does not touch the queue gauge. -/
theorem finishTick_queued :
    (finishTick inp hb).2.board.metrics.queued = hb.board.metrics.queued := by
  rw [finishTick_board.2.2.2, evolved, evolve_metrics, emitReady_emitted.queued]

/-- The collector is empty after a tick. -/
@[simp] theorem finishTick_changeset : (finishTick inp hb).2.changeset = {} := rfl

end Finish

end TtsServer.Heartbeat
