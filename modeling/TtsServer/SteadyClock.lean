import TtsServer.History
import TtsServer.SingleLayer

/-!
# The clock inside the data board

The server injects its clock into the heartbeat, but the data board stamps its
records with readings of the steady clock of its own. Erasing these stamps from the
state commutes with the handling of messages, with emission and with every pass of
`evolve` but one: the third pass compares the time of last activity of a ready
session with the injected clock. So two runs that differ only in the readings inside
the board agree exactly as long as this comparison has the same outcome in both.
-/

namespace TtsServer

open Lib

/-- The record without the time of its last activity. -/
def SessionRecord.timeless (s : SessionRecord) : SessionRecord := { s with lastActiveAt := 0 }

/-- The record without the times of its creation and of its last chunk. -/
def PendingRequest.timeless (p : PendingRequest) : PendingRequest :=
  { p with createdAt := 0, lastChunkAt := 0 }

/-! ### The session pool -/

namespace SessionPool

/-- The pool without the stamps of its records. -/
def timeless (pool : SessionPool) : SessionPool :=
  { pool with sessions := pool.sessions.mapValues SessionRecord.timeless }

variable {pool : SessionPool} {id reason : String} {s : SessionRecord} {t now : TimePoint}
  {f g : SessionRecord → SessionRecord}

/-- The records of the pool without stamps. -/
@[simp] theorem get_timeless : pool.timeless.get id = (pool.get id).map SessionRecord.timeless :=
  Table.lookup_mapValues

/-- Erasing stamps keeps the size. -/
@[simp] theorem size_timeless : pool.timeless.size = pool.size := by
  simp [size, timeless]

/-- Updating one session. -/
theorem mark_timeless (hfg : ∀ s, (f s).timeless = g s.timeless) :
    (pool.mark id f).timeless = pool.timeless.mark id g := by
  simp only [mark, timeless, Table.mapValues_modify hfg]

/-- Updating and promoting one session. -/
theorem markAndPromote_timeless (hfg : ∀ s, (f s).timeless = g s.timeless) :
    (pool.markAndPromote id f).timeless = pool.timeless.markAndPromote id g := by
  unfold markAndPromote
  rw [get_timeless]
  cases pool.get id with
  | none => rfl
  | some s =>
    simp only [Option.map_some]
    rw [← mark_timeless hfg]
    rfl

/-- Marking a session as active. -/
@[simp] theorem markActive_timeless :
    (pool.markActive id t).timeless = pool.timeless.markActive id 0 :=
  markAndPromote_timeless fun _ => rfl

/-- Marking a session as ready. -/
@[simp] theorem markReady_timeless :
    (pool.markReady id t).timeless = pool.timeless.markReady id 0 :=
  markAndPromote_timeless fun _ => rfl

/-- Draining a session. -/
@[simp] theorem markDraining_timeless :
    (pool.markDraining id).timeless = pool.timeless.markDraining id :=
  mark_timeless fun _ => rfl

/-- Marking a session as failed. -/
@[simp] theorem markErrored_timeless :
    (pool.markErrored id reason).timeless = pool.timeless.markErrored id reason :=
  mark_timeless fun _ => rfl

/-- Assigning a request to a session. -/
@[simp] theorem setCurrentRequest_timeless {rid : String} :
    (pool.setCurrentRequest id rid).timeless = pool.timeless.setCurrentRequest id rid :=
  mark_timeless fun _ => rfl

/-- Closing one session. -/
@[simp] theorem markClosed_timeless :
    (pool.markClosed id).timeless = pool.timeless.markClosed id := by
  simp only [markClosed, timeless, Table.mapValues_erase]

/-- Inserting a session. -/
theorem add_timeless (hs : s.timeless = s) :
    pool.timeless.add s = ((pool.add s).1, (pool.add s).2.timeless) := by
  have hsize : pool.timeless.maxSize = pool.maxSize := rfl
  unfold add
  rw [size_timeless, hsize]
  by_cases hfull : pool.size ≥ pool.maxSize
  · simp only [if_pos hfull]
  · simp only [if_neg hfull, timeless, Table.mapValues_insert, hs]

/-- The idle session that is found. -/
@[simp] theorem findIdleLeastRecentlyUsed_timeless :
    pool.timeless.findIdleLeastRecentlyUsed =
      pool.findIdleLeastRecentlyUsed.map SessionRecord.timeless := by
  have hfound : ∀ ids : List String,
      (ids.findSome? fun id => (pool.timeless.get id).filter fun s => s.state = .ready) =
        (ids.findSome? fun id => (pool.get id).filter fun s => s.state = .ready).map
          SessionRecord.timeless := by
    intro ids
    induction ids with
    | nil => rfl
    | cons id ids ih =>
      have hone : (pool.timeless.get id).filter (fun s => s.state = .ready) =
          ((pool.get id).filter fun s => s.state = .ready).map SessionRecord.timeless := by
        rw [get_timeless, Option.filter_map]
        rfl
      rw [List.findSome?_cons, List.findSome?_cons, hone, ih]
      cases (pool.get id).filter fun s => s.state = .ready <;> rfl
  exact hfound pool.lru.reverse

/-- The sessions beyond their lifetime. -/
@[simp] theorem collectLifetimeExpired_timeless :
    pool.timeless.collectLifetimeExpired now = pool.collectLifetimeExpired now :=
  Table.collect_mapValues _

end SessionPool

/-! ### The pending requests -/

namespace PendingRequestStore

/-- The store without the stamps of its records. -/
def timeless (pending : PendingRequestStore) : PendingRequestStore :=
  ⟨pending.store.mapValues PendingRequest.timeless⟩

variable {pending : PendingRequestStore} {id : String} {p : PendingRequest} {t : TimePoint}
  {f g : PendingRequest → PendingRequest}

/-- The records of the store without stamps. -/
@[simp] theorem get_timeless :
    pending.timeless.get id = (pending.get id).map PendingRequest.timeless :=
  Table.lookup_mapValues

/-- Storing a request. -/
@[simp] theorem add_timeless : (pending.add p t).timeless = pending.timeless.add p 0 := by
  simp only [add, timeless, Table.mapValues_insert]
  rfl

/-- Dropping a request. -/
@[simp] theorem remove_timeless : (pending.remove id).timeless = pending.timeless.remove id := by
  simp only [remove, timeless, Table.mapValues_erase]

/-- Updating a request. -/
theorem update_timeless (hfg : ∀ p, (f p).timeless = g p.timeless) :
    (pending.update id f).timeless = pending.timeless.update id g := by
  simp only [update, timeless, Table.mapValues_modify hfg]

/-- Setting the state of a request. -/
@[simp] theorem setState_timeless {s : PendingState} :
    (pending.setState id s).timeless = pending.timeless.setState id s :=
  update_timeless fun _ => rfl

/-- Appending a chunk. -/
@[simp] theorem appendChunk_timeless {data : Bytes} {isFinal : Bool} {usage : Int} :
    (pending.appendChunk id data isFinal usage t).2.timeless =
      (pending.timeless.appendChunk id data isFinal usage 0).2 :=
  update_timeless fun _ => rfl

/-- The requests ready to be emitted. -/
@[simp] theorem findReadyToEmit_timeless :
    pending.timeless.findReadyToEmit = pending.findReadyToEmit :=
  Table.collect_mapValues _

/-- The requests bound to a session. -/
@[simp] theorem collectBySession_timeless :
    pending.timeless.collectBySession id = pending.collectBySession id :=
  Table.collect_mapValues _

/-- The requests to be swept. -/
@[simp] theorem collectTerminal_timeless :
    pending.timeless.collectTerminal = pending.collectTerminal :=
  Table.collect_mapValues _

end PendingRequestStore

/-! ### The handlers -/

/-- The board without stamps. -/
def DataBoard.timeless (board : DataBoard) : DataBoard :=
  { board with sessionPool := board.sessionPool.timeless, pending := board.pending.timeless }

/-- The environment whose steady clock stands still. -/
def Env.timeless (env : Env) : Env := { env with steadyClock := fun _ => 0 }

namespace Heartbeat

/-- The state without stamps. -/
def timeless (hb : Heartbeat) : Heartbeat := { hb with board := hb.board.timeless }

variable {env : Env} {hb : Heartbeat} {m : Message} {rid : String}

/-- Handing a request to the local engine. -/
theorem admitLocal_timeless {req : TtsRequestMsg} :
    (admitLocal env req hb).timeless = admitLocal env.timeless req hb.timeless := by
  have hget : hb.timeless.board.pending.get req.requestId =
      (hb.board.pending.get req.requestId).map PendingRequest.timeless :=
    PendingRequestStore.get_timeless
  have hupdate : (hb.board.pending.update req.requestId fun p =>
      { p with sampleRate := req.audio.sampleRate, channels := req.audio.channel,
               format := .pcm, state := .streaming }).timeless =
      hb.board.pending.timeless.update req.requestId fun p =>
      { p with sampleRate := req.audio.sampleRate, channels := req.audio.channel,
               format := .pcm, state := .streaming } :=
    PendingRequestStore.update_timeless fun _ => rfl
  unfold admitLocal
  rw [hget]
  cases hb.board.pending.get req.requestId with
  | none =>
    simp only [Option.map_none, timeless, DataBoard.timeless, PendingRequestStore.add_timeless]
    rfl
  | some p => simp only [Option.map_some, timeless, DataBoard.timeless, hupdate]

/-- Acquiring a session. -/
theorem acquireOrCreateSession_timeless :
    acquireOrCreateSession env.timeless hb.timeless =
      ((acquireOrCreateSession env hb).1, (acquireOrCreateSession env hb).2.timeless) := by
  have hidle : hb.timeless.board.sessionPool.findIdleLeastRecentlyUsed =
      hb.board.sessionPool.findIdleLeastRecentlyUsed.map SessionRecord.timeless :=
    SessionPool.findIdleLeastRecentlyUsed_timeless
  have hadd := @SessionPool.add_timeless hb.board.sessionPool
    { sessionId := generateSessionId (env.rng hb.rngDraws), state := .connecting } rfl
  unfold acquireOrCreateSession
  rw [hidle]
  cases hb.board.sessionPool.findIdleLeastRecentlyUsed with
  | none =>
    have hadd' : hb.timeless.board.sessionPool.add
      { sessionId := generateSessionId (env.timeless.rng hb.timeless.rngDraws),
        state := .connecting } = _ := hadd
    simp only [Option.map_none, hadd']
    rfl
  | some idle =>
    simp only [Option.map_some, timeless, DataBoard.timeless, SessionPool.markActive_timeless]
    rfl

/-- Handing a request to an upstream session. -/
theorem admitUpstream_timeless {req : TtsRequestMsg} :
    (admitUpstream env req hb).timeless = admitUpstream env.timeless req hb.timeless := by
  unfold admitUpstream
  rw [acquireOrCreateSession_timeless]
  by_cases hempty : (acquireOrCreateSession env hb).1.sessionId = ""
  · simp only [hempty, if_true]
    rfl
  · simp only [hempty, if_false, bindRequest, timeless, DataBoard.timeless,
      PendingRequestStore.add_timeless, SessionPool.setCurrentRequest_timeless]
    rfl

/-- Handling a request. -/
theorem handleRequest_timeless {req : TtsRequestMsg} :
    (handleRequest env req hb).timeless = handleRequest env.timeless req hb.timeless := by
  have hlevel : evaluate env.timeless hb.timeless.board.metrics = evaluate env hb.board.metrics :=
    rfl
  have hlocal : shouldUseLocal env.timeless req = shouldUseLocal env req := rfl
  unfold handleRequest
  rw [hlevel, hlocal]
  simp only []
  split
  · rfl
  · split
    · exact admitLocal_timeless
    · exact admitUpstream_timeless

/-- The request that a session works for. -/
@[simp] theorem currentOf_timeless {sid : String} :
    hb.timeless.currentOf sid = hb.currentOf sid := by
  have hget : hb.timeless.board.sessionPool.get sid = _ := SessionPool.get_timeless
  rw [currentOf, currentOf, hget, Option.map_map]
  rfl

/-- Failing a request of a failed task. -/
theorem failTask_timeless {rsp : TtsResponseMsg} :
    failTask rsp hb.timeless rid = (failTask rsp hb rid).timeless := by
  have hupdate (pending : PendingRequestStore) : (pending.update rid fun p =>
      { p with statusCode := rsp.statusCode, statusMsg := rsp.statusMsg }).timeless =
      pending.timeless.update rid fun p =>
        { p with statusCode := rsp.statusCode, statusMsg := rsp.statusMsg } :=
    PendingRequestStore.update_timeless fun _ => rfl
  simp only [failTask, timeless, DataBoard.timeless, hupdate, PendingRequestStore.setState_timeless]

/-- Failing a request of a lost session. -/
theorem failLost_timeless : failLost hb.timeless rid = (failLost hb rid).timeless := by
  simp only [failLost, timeless, DataBoard.timeless, PendingRequestStore.setState_timeless]

/-- Appending an audio chunk. -/
theorem handleAudioChunk_timeless {rsp : TtsResponseMsg} :
    (handleAudioChunk env rsp hb).timeless = handleAudioChunk env.timeless rsp hb.timeless := by
  unfold handleAudioChunk
  simp only [currentOf_timeless]
  split
  · rfl
  · simp only [timeless, DataBoard.timeless, PendingRequestStore.appendChunk_timeless]
    rfl

/-- Handling an upstream event. -/
theorem handleResponse_timeless {rsp : TtsResponseMsg} :
    (handleResponse env rsp hb).timeless = handleResponse env.timeless rsp hb.timeless := by
  have hbound : hb.timeless.board.pending.collectBySession rsp.sessionId =
      hb.board.pending.collectBySession rsp.sessionId :=
    PendingRequestStore.collectBySession_timeless
  unfold handleResponse
  cases rsp.kind with
  | connected =>
    simp only [timeless, DataBoard.timeless, SessionPool.markReady_timeless]
    rfl
  | taskStarted => rfl
  | audioChunk => exact handleAudioChunk_timeless
  | taskFinished => rfl
  | taskFailed =>
    simp only [hbound, List.foldl_hom timeless fun _ _ => failTask_timeless]
    simp only [timeless, DataBoard.timeless, SessionPool.markErrored_timeless]
  | disconnected =>
    simp only [hbound, List.foldl_hom timeless fun _ _ => failLost_timeless]
    simp only [timeless, DataBoard.timeless, SessionPool.markClosed_timeless]

/-- Handling a message. -/
theorem handleMessage_timeless :
    (handleMessage env hb m).timeless = handleMessage env.timeless hb.timeless m := by
  cases m with
  | request req => exact handleRequest_timeless
  | response rsp => exact handleResponse_timeless
  | cancel msg =>
    simp only [handleMessage, handleCancel, timeless, DataBoard.timeless,
      PendingRequestStore.setState_timeless]
  | localComplete c =>
    simp only [handleMessage, handleLocalComplete, timeless, DataBoard.timeless,
      PendingRequestStore.remove_timeless]
  | localFailed f =>
    simp only [handleMessage, handleLocalFailed, timeless, DataBoard.timeless,
      PendingRequestStore.remove_timeless]

/-! ### The end of a tick -/

/-- Emitting a request. -/
theorem emitCompleted_timeless :
    emitCompleted hb.timeless rid = (emitCompleted hb rid).timeless := by
  have hget : hb.timeless.board.pending.get rid =
      (hb.board.pending.get rid).map PendingRequest.timeless :=
    PendingRequestStore.get_timeless
  unfold emitCompleted
  rw [hget]
  cases hb.board.pending.get rid with
  | none => rfl
  | some p =>
    simp only [Option.map_some, timeless, DataBoard.timeless, PendingRequestStore.remove_timeless,
      SessionPool.markDraining_timeless]
    rfl

/-- The emission pass. -/
theorem emitReady_timeless : (emitReady hb).timeless = emitReady hb.timeless := by
  have hready : hb.timeless.board.pending.findReadyToEmit = hb.board.pending.findReadyToEmit :=
    PendingRequestStore.findReadyToEmit_timeless
  rw [emitReady, emitReady, hready, List.foldl_hom timeless fun _ _ => emitCompleted_timeless]

end Heartbeat

/-! ### Evolution -/

section Evolution

variable {inputs : EvolveInputs} {now : TimePoint} {board : DataBoard} {pool : SessionPool}
  {acc : List CloseSession × SessionPool} {idle ids : List String} {reason : String}

/-- The first two passes of `evolve`. -/
def agedOut (inputs : EvolveInputs) (now : TimePoint) (pool : SessionPool) :
    List CloseSession × SessionPool :=
  let failed := inputs.changedSessions.foldl closeIfFailed ([], pool)
  closeAll "lifetime_exceeded" (failed.2.collectLifetimeExpired now) failed

/-- `evolve` when the sessions that the third pass finds are given. -/
def evolveClosing (inputs : EvolveInputs) (now : TimePoint) (idle : List String)
    (board : DataBoard) : List CloseSession × DataBoard :=
  let closed := closeAll "idle_timeout" idle (agedOut inputs now board.sessionPool)
  let swept := board.pending.collectTerminal.foldl sweepTerminal (closed.1, board.pending)
  (swept.1, { board with sessionPool := closed.2, pending := swept.2 })

/-- `evolve` closes the idle sessions of the pool that the first two passes leave. -/
theorem evolve_eq_evolveClosing :
    evolve inputs now board = evolveClosing inputs now
      ((agedOut inputs now board.sessionPool).2.collectIdleExpired now) board :=
  rfl

/-- A pool next to reports, without stamps. -/
def timelessPool (acc : List CloseSession × SessionPool) : List CloseSession × SessionPool :=
  (acc.1, acc.2.timeless)

/-- The first pass. -/
theorem closeIfFailed_timeless {sid : String} :
    closeIfFailed (timelessPool acc) sid = timelessPool (closeIfFailed acc sid) := by
  unfold closeIfFailed timelessPool
  rw [SessionPool.get_timeless]
  cases acc.2.get sid with
  | none => rfl
  | some s =>
    have hfailed : s.timeless.failedOrClosed = s.failedOrClosed := rfl
    simp only [Option.map_some, hfailed]
    split
    · rw [SessionPool.markClosed_timeless]
    · rfl

/-- Closing a list of sessions. -/
theorem closeAll_timeless :
    closeAll reason ids (timelessPool acc) = timelessPool (closeAll reason ids acc) := by
  unfold closeAll
  refine List.foldl_hom timelessPool fun acc sid => ?_
  simp only [timelessPool, SessionPool.markClosed_timeless]

/-- The first two passes. -/
theorem agedOut_timeless :
    agedOut inputs now pool.timeless = timelessPool (agedOut inputs now pool) := by
  have hfailed : inputs.changedSessions.foldl closeIfFailed (timelessPool ([], pool)) =
      timelessPool (inputs.changedSessions.foldl closeIfFailed ([], pool)) :=
    List.foldl_hom timelessPool fun _ _ => closeIfFailed_timeless
  have hpool : ([], pool.timeless) = timelessPool ([], pool) := rfl
  unfold agedOut
  simp only [hpool, hfailed]
  rw [← closeAll_timeless]
  simp only [timelessPool, SessionPool.collectLifetimeExpired_timeless]

/-- A store next to reports, without stamps. -/
def timelessStore (acc : List CloseSession × PendingRequestStore) :
    List CloseSession × PendingRequestStore :=
  (acc.1, acc.2.timeless)

/-- The terminal sweep. -/
theorem foldl_sweepTerminal_timeless {acc : List CloseSession × PendingRequestStore} :
    ids.foldl sweepTerminal (timelessStore acc) = timelessStore (ids.foldl sweepTerminal acc) := by
  refine List.foldl_hom timelessStore fun acc rid => ?_
  unfold sweepTerminal timelessStore
  rw [PendingRequestStore.get_timeless]
  cases acc.2.get rid with
  | none => rfl
  | some p =>
    simp only [Option.map_some, PendingRequestStore.remove_timeless]
    rfl

/-- `evolve`, for given idle sessions. -/
theorem evolveClosing_timeless :
    evolveClosing inputs now idle board.timeless =
      ((evolveClosing inputs now idle board).1,
        (evolveClosing inputs now idle board).2.timeless) := by
  have hclosed : closeAll "idle_timeout" idle (agedOut inputs now board.timeless.sessionPool) =
      timelessPool (closeAll "idle_timeout" idle (agedOut inputs now board.sessionPool)) := by
    rw [← closeAll_timeless, ← agedOut_timeless]
    rfl
  have hterminal : board.timeless.pending.collectTerminal = board.pending.collectTerminal :=
    PendingRequestStore.collectTerminal_timeless
  have hswept (reports : List CloseSession) :
      board.pending.collectTerminal.foldl sweepTerminal (reports, board.timeless.pending) =
        timelessStore
          (board.pending.collectTerminal.foldl sweepTerminal (reports, board.pending)) :=
    @foldl_sweepTerminal_timeless _ (reports, board.pending)
  unfold evolveClosing
  simp only [hclosed, hterminal, hswept, timelessPool]
  rfl

/-- The reports of `evolve` show which idle sessions were found. -/
theorem evolveClosing_fst_inj {idle' : List String} :
    (evolveClosing inputs now idle board).1 = (evolveClosing inputs now idle' board).1 ↔
      idle = idle' := by
  have hreports (idle : List String) : (evolveClosing inputs now idle board).1 =
      (agedOut inputs now board.sessionPool).1 ++ idle.map (⟨·, "idle_timeout"⟩) ++
        board.pending.collectTerminal.filterMap board.pending.sweptClose := by
    have hnodup : board.pending.collectTerminal.Nodup := Table.nodup_collect _ _
    refine (congrArg Prod.fst (foldl_sweepTerminal_eq hnodup)).trans ?_
    rw [closeAll_fst]
  have hinj : Function.Injective fun sid : String => (⟨sid, "idle_timeout"⟩ : CloseSession) :=
    fun _ _ heq => congrArg CloseSession.sessionId heq
  rw [hreports, hreports, List.append_left_inj, List.append_right_inj]
  exact hinj.list_map.eq_iff

/-- The sessions that the first two passes leave. -/
theorem agedOut_get {id : String} {s : SessionRecord} :
    (agedOut inputs now pool).2.get id = some s ↔ pool.get id = some s ∧
      ¬(id ∈ inputs.changedSessions ∧ s.failedOrClosed = true) ∧
      pool.lifetimeExpired now s = false := by
  have hlife : (inputs.changedSessions.foldl closeIfFailed ([], pool)).2.maxLifetime =
      pool.maxLifetime := foldl_closeIfFailed_bounds.2.2
  have hleft : (inputs.changedSessions.foldl closeIfFailed ([], pool)).2.get id = some s ↔
      pool.get id = some s ∧ ¬(id ∈ inputs.changedSessions ∧ s.failedOrClosed = true) :=
    foldl_closeIfFailed_get
  unfold agedOut
  rw [closeAll_get, ← and_assoc]
  constructor
  · rintro ⟨hs, hyoung⟩
    refine ⟨hleft.mp hs, ?_⟩
    rw [← Bool.not_eq_true]
    intro hexpired
    refine hyoung (Table.mem_collect.mpr ⟨s, hs, ?_⟩)
    rwa [SessionPool.lifetimeExpired, hlife]
  · rintro ⟨hs, hyoung⟩
    have hs' := hleft.mpr hs
    refine ⟨hs', fun hmem => ?_⟩
    obtain ⟨s', hs'', hexpired⟩ := Table.mem_collect.mp hmem
    obtain rfl := Option.some.inj (hs'.symm.trans hs'')
    rw [SessionPool.lifetimeExpired, hlife] at hexpired
    rw [SessionPool.lifetimeExpired, hexpired] at hyoung
    cases hyoung

/-- The idle sessions that the third pass finds, on the pool before `evolve`. -/
theorem agedOut_collectIdleExpired :
    (agedOut inputs now pool).2.collectIdleExpired now =
      pool.lru.reverse.filter fun id => (pool.get id).any fun s =>
        !pool.lifetimeExpired now s && pool.idleExpired now s := by
  have hidle : (agedOut inputs now pool).2.idleTimeout = pool.idleTimeout :=
    closeAll_bounds.2.1.trans foldl_closeIfFailed_bounds.2.1
  have hexpired : (agedOut inputs now pool).2.idleExpired now = pool.idleExpired now := by
    funext s
    rw [SessionPool.idleExpired, SessionPool.idleExpired, hidle]
  have hlru : (agedOut inputs now pool).2.lru = _ := closeAll_lru
  rw [foldl_closeIfFailed_lru, List.filter_filter] at hlru
  rw [SessionPool.collectIdleExpired, hlru, ← List.filter_reverse, List.filter_filter, hexpired]
  refine List.filter_congr fun id _ => ?_
  -- the passes drop from the recency list only what they close
  cases haged : (agedOut inputs now pool).2.get id with
  | some s =>
    obtain ⟨hget, hsound, hyoung⟩ := agedOut_get.mp haged
    have hkept := (closeAll_get.mp haged).2
    have hunfailed : (decide (id ∈ inputs.changedSessions) && s.failedOrClosed) = false := by
      simpa using hsound
    simp [hget, hyoung, hkept, hunfailed]
  | none =>
    cases hget : pool.get id with
    | none => rfl
    | some s =>
      have hgone : ¬(¬(id ∈ inputs.changedSessions ∧ s.failedOrClosed = true) ∧
          pool.lifetimeExpired now s = false) := by
        intro hstays
        rw [agedOut_get.mpr ⟨hget, hstays⟩] at haged
        cases haged
      cases hyoung : pool.lifetimeExpired now s with
      | true => simp [hyoung]
      | false =>
        have hfailed : s.failedOrClosed = true := by
          by_contra hsound
          exact hgone ⟨fun h => hsound h.2, hyoung⟩
        have hbusy : s.state ≠ .ready := by
          intro hready
          simp [SessionRecord.failedOrClosed, hready] at hfailed
        simp [SessionPool.idleExpired, hbusy]

/-- The tests of the third pass on two pools: a ready session that is listed and not beyond its
lifetime has been idle for the timeout in both or in neither. -/
def SameVerdicts (now : TimePoint) (pool₁ pool₂ : SessionPool) : Prop :=
  ∀ id ∈ pool₁.lru, ∀ s₁ s₂, pool₁.get id = some s₁ → pool₂.get id = some s₂ →
    s₁.state = .ready → pool₁.lifetimeExpired now s₁ = false →
    (now - s₁.lastActiveAt ≥ pool₁.idleTimeout ↔ now - s₂.lastActiveAt ≥ pool₂.idleTimeout)

/-- Filters of one list are equal exactly if the tests agree on its elements. -/
private theorem filter_eq_filter_iff {A : Type*} {l : List A} {p q : A → Bool} :
    l.filter p = l.filter q ↔ ∀ a ∈ l, p a = q a := by
  refine ⟨fun heq a ha => ?_, List.filter_congr⟩
  rw [Bool.eq_iff_iff]
  have hmem := congrArg (a ∈ ·) heq
  simpa [ha] using hmem

/-- Pools that differ only in stamps: the third pass finds the same sessions exactly if its
tests have the same outcome. -/
theorem collectIdleExpired_eq_iff {pool₁ pool₂ : SessionPool}
    (hsame : pool₁.timeless = pool₂.timeless) :
    (agedOut inputs now pool₁).2.collectIdleExpired now =
        (agedOut inputs now pool₂).2.collectIdleExpired now ↔
      SameVerdicts now pool₁ pool₂ := by
  have hlru : pool₂.lru = pool₁.lru := (congrArg SessionPool.lru hsame).symm
  have hmax : pool₂.maxLifetime = pool₁.maxLifetime :=
    (congrArg SessionPool.maxLifetime hsame).symm
  rw [agedOut_collectIdleExpired, agedOut_collectIdleExpired, hlru, filter_eq_filter_iff]
  simp only [List.mem_reverse, SameVerdicts]
  refine forall₂_congr fun id _ => ?_
  have hget : (pool₁.get id).map SessionRecord.timeless =
      (pool₂.get id).map SessionRecord.timeless := by
    rw [← SessionPool.get_timeless, ← SessionPool.get_timeless, hsame]
  cases hs₁ : pool₁.get id with
  | none =>
    rw [hs₁, Option.map_none, eq_comm, Option.map_eq_none_iff] at hget
    simp [hget]
  | some s₁ =>
    rw [hs₁, Option.map_some, eq_comm, Option.map_eq_some_iff] at hget
    obtain ⟨s₂, hs₂, heq⟩ := hget
    have hstate : s₂.state = s₁.state := by
      change s₂.timeless.state = s₁.timeless.state
      rw [heq]
    have hyoung : pool₂.lifetimeExpired now s₂ = pool₁.lifetimeExpired now s₁ := by
      change decide (now - s₂.timeless.createdAt ≥ _) = decide (now - s₁.timeless.createdAt ≥ _)
      rw [heq, hmax]
    simp only [hs₂, Option.any_some, hyoung, SessionPool.idleExpired, hstate]
    constructor
    · rintro htests _ _ ⟨⟩ ⟨⟩ hready halive
      simpa [hready, halive] using htests
    · intro hverdict
      by_cases hready : s₁.state = .ready
      · cases halive : pool₁.lifetimeExpired now s₁ with
        | true => rfl
        | false => simpa [hready] using hverdict s₁ s₂ rfl rfl hready halive
      · simp [hready]

end Evolution

/-! ### Two runs -/

namespace Heartbeat

variable {env env₁ env₂ : Env} {hb hb₁ hb₂ : Heartbeat} {inp : TickInput}
  {inputs : List TickInput}

/-- The idle sessions that `evolve` finds after the emission pass. -/
def idleFound (inp : TickInput) (hb : Heartbeat) : List String :=
  (agedOut ⟨hb.changedSessions, hb.changedRequests⟩ inp.now
    hb.board.sessionPool).2.collectIdleExpired inp.now

/-- The end of a tick after the emission pass, when the idle sessions are given. -/
def finishClosing (inp : TickInput) (idle : List String) (hb : Heartbeat) : ChangeSet × Heartbeat :=
  let evolved := evolveClosing ⟨hb.changedSessions, hb.changedRequests⟩ inp.now idle hb.board
  let cs := { hb.changeset with closeSessions := hb.changeset.closeSessions ++ evolved.1 }
  let us := UInt64.ofInt ((inp.endedAt - inp.startedAt).tdiv 1000)
  (cs, { hb with
    board := { evolved.2 with
      metrics := evolved.2.metrics.incHeartbeat.recordHeartbeatLatencyUs us }
    changeset := {}
    lastDurationUs := us
    count := hb.count + 1
    published := hb.published ++ [.heartbeatTick us.toNat inp.batch.length cs.total] })

/-- The end of a tick. -/
theorem finishTick_eq_finishClosing :
    finishTick inp hb = finishClosing inp (idleFound inp (emitReady hb)) (emitReady hb) := by
  unfold finishTick
  simp only [evolve_eq_evolveClosing]
  rfl

/-- The end of a tick for given idle sessions does not read the stamps. -/
theorem finishClosing_timeless {idle : List String} :
    finishClosing inp idle hb.timeless =
      ((finishClosing inp idle hb).1, (finishClosing inp idle hb).2.timeless) := by
  have hevolved : evolveClosing ⟨hb.timeless.changedSessions, hb.timeless.changedRequests⟩ inp.now
      idle hb.timeless.board = _ := evolveClosing_timeless
  unfold finishClosing
  simp only [hevolved]
  rfl

/-- The change set shows which idle sessions were found. -/
theorem finishClosing_fst_inj {idle idle' : List String} :
    (finishClosing inp idle hb).1 = (finishClosing inp idle' hb).1 ↔ idle = idle' := by
  refine ⟨fun heq => ?_, fun heq => by rw [heq]⟩
  have hcloses := congrArg ChangeSet.closeSessions heq
  exact evolveClosing_fst_inj.mp (List.append_cancel_left hcloses)

/-- The state of a tick when its messages have been handled, without stamps. -/
theorem midTick_timeless {ms : List Message} :
    (midTick env hb ms).timeless = midTick env.timeless hb.timeless ms :=
  (List.foldl_hom timeless fun _ _ => handleMessage_timeless.symm).symm

/-- The pools of two runs when `evolve` looks for idle sessions. -/
def SameIdle (env₁ env₂ : Env) (hbs : Heartbeat × Heartbeat) (inp : TickInput) : Prop :=
  SameVerdicts inp.now (emitReady (midTick env₁ hbs.1 inp.batch)).board.sessionPool
    (emitReady (midTick env₂ hbs.2 inp.batch)).board.sessionPool

/-- One tick of two runs. -/
def tickBoth (env₁ env₂ : Env) (hbs : Heartbeat × Heartbeat) (inp : TickInput) :
    Heartbeat × Heartbeat :=
  ((tick env₁ inp hbs.1).2, (tick env₂ inp hbs.2).2)

/-- A tick of two states that differ only in stamps: the change sets are equal exactly if the
tests of the third pass agree, and then the new states differ only in stamps. -/
theorem tick_timeless (henv : env₁.timeless = env₂.timeless) (hhb : hb₁.timeless = hb₂.timeless) :
    ((tick env₁ inp hb₁).1 = (tick env₂ inp hb₂).1 ↔ SameIdle env₁ env₂ (hb₁, hb₂) inp) ∧
      (SameIdle env₁ env₂ (hb₁, hb₂) inp →
        (tick env₁ inp hb₁).2.timeless = (tick env₂ inp hb₂).2.timeless) := by
  have hmid : (emitReady (midTick env₁ hb₁ inp.batch)).timeless =
      (emitReady (midTick env₂ hb₂ inp.batch)).timeless := by
    rw [emitReady_timeless, emitReady_timeless, midTick_timeless, midTick_timeless, henv, hhb]
  have htick (env : Env) (hb : Heartbeat) : tick env inp hb =
      finishClosing inp (idleFound inp (emitReady (midTick env hb inp.batch)))
        (emitReady (midTick env hb inp.batch)) := finishTick_eq_finishClosing
  rw [htick, htick, SameIdle]
  generalize emitReady (midTick env₁ hb₁ inp.batch) = mid₁ at hmid ⊢
  generalize emitReady (midTick env₂ hb₂ inp.batch) = mid₂ at hmid ⊢
  have hpools : mid₁.board.sessionPool.timeless = mid₂.board.sessionPool.timeless :=
    congrArg (fun hb : Heartbeat => hb.board.sessionPool) hmid
  have hfound : idleFound inp mid₁ = idleFound inp mid₂ ↔
      SameVerdicts inp.now mid₁.board.sessionPool mid₂.board.sessionPool := by
    have hsessions : mid₁.changedSessions = mid₂.changedSessions := by
      change mid₁.timeless.changedSessions = mid₂.timeless.changedSessions
      rw [hmid]
    have hrequests : mid₁.changedRequests = mid₂.changedRequests := by
      change mid₁.timeless.changedRequests = mid₂.timeless.changedRequests
      rw [hmid]
    rw [idleFound, idleFound, hsessions, hrequests]
    exact collectIdleExpired_eq_iff hpools
  -- for the same idle sessions, the two ends of the tick differ only in stamps
  have hclosing (idle : List String) :
      (finishClosing inp idle mid₁).1 = (finishClosing inp idle mid₂).1 ∧
        (finishClosing inp idle mid₁).2.timeless = (finishClosing inp idle mid₂).2.timeless := by
    have h₁ := @finishClosing_timeless mid₁ inp idle
    have h₂ := @finishClosing_timeless mid₂ inp idle
    rw [hmid, h₂] at h₁
    exact ⟨(congrArg Prod.fst h₁).symm, (congrArg Prod.snd h₁).symm⟩
  refine ⟨?_, fun hverdicts => ?_⟩
  · rw [(hclosing _).1, finishClosing_fst_inj]
    exact hfound
  · rw [hfound.mpr hverdicts]
    exact (hclosing _).2

/-- Two runs from states that differ only in stamps. -/
theorem run_timeless_iff (henv : env₁.timeless = env₂.timeless)
    (hhb : hb₁.timeless = hb₂.timeless) :
    (run env₁ hb₁ inputs).1 = (run env₂ hb₂ inputs).1 ↔
      Along (tickBoth env₁ env₂) (SameIdle env₁ env₂) (hb₁, hb₂) inputs := by
  induction inputs generalizing hb₁ hb₂ with
  | nil => exact ⟨fun _ => trivial, fun _ => rfl⟩
  | cons inp inputs ih =>
    obtain ⟨hsets, hnext⟩ := @tick_timeless env₁ env₂ hb₁ hb₂ inp henv hhb
    rw [run_cons, run_cons]
    simp only [List.cons.injEq, Along, hsets]
    exact and_congr_right fun hverdicts => ih (hnext hverdicts)

/-- Only the injected clock matters, as long as the stamps do not decide which sessions have
been idle for too long. -/
theorem steady_clock_irrelevant_iff (env : Env) (clock₁ clock₂ : ℕ → TimePoint) (hb : Heartbeat)
    (inputs : List TickInput) :
    (run { env with steadyClock := clock₁ } hb inputs).1 =
        (run { env with steadyClock := clock₂ } hb inputs).1 ↔
      Along (tickBoth { env with steadyClock := clock₁ } { env with steadyClock := clock₂ })
        (SameIdle { env with steadyClock := clock₁ } { env with steadyClock := clock₂ })
        (hb, hb) inputs :=
  run_timeless_iff rfl rfl

/-- A request, the connection of its session, and a tick two minutes later. -/
def quietSession : List TickInput :=
  [{ requests := [.request { requestId := "a" }] },
   { events := [.response { sessionId := "s-0000000000000000", kind := .connected }] },
   { now := seconds 120 }]

/-- The session is closed or not, depending on the clock inside the board. -/
theorem quietSession_clocks_differ :
    (run { sampleEnv with steadyClock := fun _ => 0 } (start 16 (seconds 60) (seconds 3600))
      quietSession).1 ≠
    (run { sampleEnv with steadyClock := fun _ => seconds 100 }
      (start 16 (seconds 60) (seconds 3600)) quietSession).1 := by
  intro heq
  have hcloses := congrArg (List.map fun cs => cs.closeSessions.length) heq
  exact absurd hcloses (by decide)

end Heartbeat

end TtsServer
