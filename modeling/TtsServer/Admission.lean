import TtsServer.PoolRefinement
import TtsServer.SessionFrames

/-!
# Admission of a request

`handle_request` decides in several steps, spread over four classes, and some of them may
fail. It nevertheless does one of three things as a whole: it hands the request to the
local engine, or binds it to a session and sends the session its frames, or leaves the
board and the change set as they were. The empty identifier stands for "no session"
throughout, so the pool must not hold a session of that name.
-/

namespace TtsServer.Heartbeat

variable {env : Env} {req : TtsRequestMsg} {hb hb' : Heartbeat} {sid : String}

/-- The request is handed to the local engine, and nothing else happens. -/
structure GoesLocal (req : TtsRequestMsg) (hb hb' : Heartbeat) : Prop where
  sessionPool : hb'.board.sessionPool = hb.board.sessionPool
  record : ∃ p, hb'.board.pending.get req.requestId = some p ∧ p.state = .streaming
  otherRequests : ∀ rid, rid ≠ req.requestId →
    hb'.board.pending.get rid = hb.board.pending.get rid
  inflight : hb'.board.metrics.inflight.toNat = hb.board.metrics.inflight.toNat + 1
  changeset : hb'.changeset =
    { hb.changeset with localJobs := hb.changeset.localJobs ++ [localJob req] }

/-- Some session of the pool is ready. -/
def SomeReady (hb : Heartbeat) : Prop :=
  ∃ id s, hb.board.sessionPool.get id = some s ∧ s.state = .ready

/-- The request is bound to a session, which is reused if some session is ready and created
otherwise; nothing else happens. -/
structure GoesUpstream (env : Env) (req : TtsRequestMsg) (sid : String) (hb hb' : Heartbeat) :
    Prop where
  record : ∃ p, hb'.board.pending.get req.requestId = some p ∧ p.sessionId = sid
  session : ∃ s, hb'.board.sessionPool.get sid = some s ∧ s.currentRequestId = req.requestId
  otherRequests : ∀ rid, rid ≠ req.requestId →
    hb'.board.pending.get rid = hb.board.pending.get rid
  otherSessions : ∀ id, id ≠ sid →
    hb'.board.sessionPool.get id = hb.board.sessionPool.get id
  inflight : hb'.board.metrics.inflight.toNat = hb.board.metrics.inflight.toNat + 1
  reused : (∃ s, hb.board.sessionPool.get sid = some s ∧ s.state = .ready) ↔ SomeReady hb
  created : hb.board.sessionPool.get sid = none ↔ ¬SomeReady hb
  changeset : hb'.changeset = { hb.changeset with
    wsFrames := hb.changeset.wsFrames ++
      (if (hb.board.sessionPool.get sid).isNone then [startFrame env sid req] else []) ++
      [continueFrame env sid req] }

/-- The request is turned away, and nothing at all happens to the board or the change set. -/
structure TurnedAway (hb hb' : Heartbeat) : Prop where
  sessionPool : hb'.board.sessionPool = hb.board.sessionPool
  pending : hb'.board.pending = hb.board.pending
  inflight : hb'.board.metrics.inflight = hb.board.metrics.inflight
  changeset : hb'.changeset = hb.changeset

/-- Exactly one of the three outcomes. -/
def AllOrNothing (env : Env) (req : TtsRequestMsg) (hb hb' : Heartbeat) : Prop :=
  (GoesLocal req hb hb' ∧ ¬(∃ sid, GoesUpstream env req sid hb hb') ∧ ¬TurnedAway hb hb') ∨
  ((∃ sid, GoesUpstream env req sid hb hb') ∧ ¬GoesLocal req hb hb' ∧ ¬TurnedAway hb hb') ∨
  (TurnedAway hb hb' ∧ ¬GoesLocal req hb hb' ∧ ¬∃ sid, GoesUpstream env req sid hb hb')

/-- The two kinds of admission differ in the change set. -/
theorem GoesLocal.not_goesUpstream (hlocal : GoesLocal req hb hb') :
    ¬∃ sid, GoesUpstream env req sid hb hb' := by
  rintro ⟨sid, hupstream⟩
  have hframes := congrArg ChangeSet.wsFrames (hlocal.changeset.symm.trans hupstream.changeset)
  simp at hframes

/-- An admission takes a slot. -/
theorem GoesLocal.not_turnedAway (hlocal : GoesLocal req hb hb') : ¬TurnedAway hb hb' := by
  intro haway
  have hslot := hlocal.inflight
  rw [haway.inflight] at hslot
  omega

/-- An admission takes a slot. -/
theorem GoesUpstream.not_turnedAway (hupstream : GoesUpstream env req sid hb hb') :
    ¬TurnedAway hb hb' := by
  intro haway
  have hslot := hupstream.inflight
  rw [haway.inflight] at hslot
  omega

/-- The search finds a session exactly when some session is ready. -/
theorem someReady_iff (hpool : hb.board.sessionPool.WellFormed) :
    SomeReady hb ↔ ∃ idle, hb.board.sessionPool.findIdleLeastRecentlyUsed = some idle := by
  constructor
  · rintro ⟨id, s, hs, hready⟩
    cases hfind : hb.board.sessionPool.findIdleLeastRecentlyUsed with
    | none =>
      have hnot := SessionPool.findIdleLeastRecentlyUsed_none hfind (hpool.listed hs) hs
      exact absurd hready hnot
    | some idle => exact ⟨idle, rfl⟩
  · rintro ⟨idle, hidle⟩
    exact SessionPool.findIdleLeastRecentlyUsed_some hidle |>.imp fun id h => ⟨idle, h⟩

/-- The acquisition reuses a session exactly when it finds one. -/
theorem acquire_reused_iff :
    (acquireOrCreateSession env hb).1.reused = true ↔
      ∃ idle, hb.board.sessionPool.findIdleLeastRecentlyUsed = some idle := by
  unfold acquireOrCreateSession
  cases hb.board.sessionPool.findIdleLeastRecentlyUsed <;> simp

/-- What binding a request to a session amounts to, if identifiers are generated afresh. -/
theorem OnSession.goesUpstream {handle : SessionHandle} {s : SessionRecord}
    (hpool : hb.board.sessionPool.WellFormed)
    (hfresh : hb.board.sessionPool.get (generateSessionId (env.rng hb.rngDraws)) = none)
    (heffect : OnSession env req handle s hb hb') :
    GoesUpstream env req handle.sessionId hb hb' := by
  have hready : SomeReady hb ↔ handle.reused = true := by
    rw [someReady_iff hpool, ← @acquire_reused_iff env, heffect.handle]
  have hsession : hb'.board.sessionPool.get handle.sessionId =
      some { s with currentRequestId := req.requestId } := by rw [heffect.session, if_pos rfl]
  obtain ⟨t, hrecord⟩ := heffect.record
  have hslot : hb'.board.metrics.inflight.toNat = hb.board.metrics.inflight.toNat + 1 := by
    rw [heffect.inflight]
    exact toNat_add_one_of_lt heffect.below
  have hcases : (handle.reused = true ∧
        ∃ idle, hb.board.sessionPool.get handle.sessionId = some idle ∧ idle.state = .ready) ∨
      (handle.reused = false ∧ hb.board.sessionPool.get handle.sessionId = none) := by
    rcases heffect.acquired with ⟨hreused, idle, hidle, hstate, -⟩ | ⟨hnew, hid, -⟩
    · exact Or.inl ⟨hreused, idle, hidle, hstate⟩
    · exact Or.inr ⟨hnew, hid ▸ hfresh⟩
  exact
    { record := ⟨_, hrecord, rfl⟩
      session := ⟨_, hsession, rfl⟩
      otherRequests := fun rid hne => heffect.others hne
      otherSessions := fun id hne => by rw [heffect.session, if_neg hne]
      inflight := hslot
      reused := by
        rw [hready]
        rcases hcases with ⟨hreused, hidle⟩ | ⟨hnew, hnone⟩
        · exact iff_of_true hidle hreused
        · simp [hnew, hnone]
      created := by
        rw [hready]
        rcases hcases with ⟨hreused, idle, hidle, -⟩ | ⟨hnew, hnone⟩
        · simp [hreused, hidle]
        · simp [hnew, hnone]
      changeset := by
        rw [heffect.changeset]
        rcases hcases with ⟨hreused, idle, hidle, -⟩ | ⟨hnew, hnone⟩
        · simp [taskFrames_reused hreused, hidle]
        · simp [taskFrames_new hnew, hnone] }

/-- Admission is all-or-nothing. -/
theorem handleRequest_all_or_nothing (env : Env) (req : TtsRequestMsg) (hb : Heartbeat)
    (hpool : hb.board.sessionPool.WellFormed)
    (hfresh : hb.board.sessionPool.get (generateSessionId (env.rng hb.rngDraws)) = none)
    (hnamed : hb.board.sessionPool.get "" = none) :
    AllOrNothing env req hb (handleRequest env req hb) := by
  have hnames : ∀ {sid s}, hb.board.sessionPool.get sid = some s → sid ≠ "" := by
    rintro sid s hs rfl
    simp [hnamed] at hs
  rcases @handleRequest_effect env hb req hpool.toWellKeyed hnames with
    ⟨-, heffect⟩ | ⟨-, heffect⟩ | ⟨handle, s, -, heffect⟩
  · have haway : TurnedAway hb (handleRequest env req hb) :=
      ⟨heffect.sessionPool, heffect.pending, heffect.inflight, heffect.changeset⟩
    refine Or.inr (Or.inr ⟨haway, fun hlocal => hlocal.not_turnedAway haway, ?_⟩)
    rintro ⟨sid, hupstream⟩
    exact hupstream.not_turnedAway haway
  · obtain ⟨p, hp, hstate, -⟩ := heffect.record
    have hlocal : GoesLocal req hb (handleRequest env req hb) :=
      { sessionPool := heffect.sessionPool
        record := ⟨p, hp, hstate⟩
        otherRequests := fun rid hne => heffect.others hne
        inflight := by
          rw [heffect.inflight]
          exact toNat_add_one_of_lt heffect.below
        changeset := heffect.changeset }
    exact Or.inl ⟨hlocal, hlocal.not_goesUpstream, hlocal.not_turnedAway⟩
  · have hupstream := heffect.goesUpstream hpool hfresh
    refine Or.inr (Or.inl ⟨⟨handle.sessionId, hupstream⟩, fun hlocal => ?_,
      hupstream.not_turnedAway⟩)
    exact hlocal.not_goesUpstream ⟨handle.sessionId, hupstream⟩

/-- A heartbeat whose pool was built by the given operations. -/
def ofOps (ops : List PoolOp) : Heartbeat :=
  { board.sessionPool := ops.foldl SessionPool.apply (.empty 16 (seconds 60) (seconds 3600)) }

/-- Such a pool is well formed. -/
theorem ofOps_wellFormed {ops : List PoolOp}
    (hnew : Lib.Along SessionPool.apply SessionPool.NewIfAdded
      (.empty 16 (seconds 60) (seconds 3600)) ops) :
    (ofOps ops).board.sessionPool.WellFormed :=
  ((SessionPool.Refines.empty 16 (seconds 60) (seconds 3600)).foldl hnew).wellFormed

/-- A request that finds a ready session and a busy one. -/
theorem handleRequest_all_or_nothing_reusing :
    AllOrNothing sampleEnv { requestId := "r" }
      (ofOps [.add { sessionId := "a", state := .streaming },
        .add { sessionId := "b", state := .ready }])
      (handleRequest sampleEnv { requestId := "r" }
        (ofOps [.add { sessionId := "a", state := .streaming },
          .add { sessionId := "b", state := .ready }])) :=
  handleRequest_all_or_nothing sampleEnv { requestId := "r" } _ (ofOps_wellFormed (by decide))
    (by decide) (by decide)

/-- A ready session with the empty identifier: the request is turned away, but the session has
been marked active. -/
theorem unnamedSession_half_admitted :
    let hb := ofOps [.add { sessionId := "", state := .ready }]
    hb.board.sessionPool.WellFormed ∧
      hb.board.sessionPool.get (generateSessionId (sampleEnv.rng hb.rngDraws)) = none ∧
      ¬AllOrNothing sampleEnv { requestId := "r" } hb
        (handleRequest sampleEnv { requestId := "r" } hb) := by
  intro hb
  refine ⟨ofOps_wellFormed (by decide), by decide, ?_⟩
  have hslot : (handleRequest sampleEnv { requestId := "r" } hb).board.metrics.inflight = 0 := by
    decide
  rintro (⟨hlocal, -⟩ | ⟨⟨sid, hupstream⟩, -⟩ | ⟨haway, -⟩)
  · have := hlocal.inflight
    rw [hslot] at this
    cases this
  · have := hupstream.inflight
    rw [hslot] at this
    cases this
  · have hpool := congrArg (fun pool => (pool.get "").map (·.state)) haway.sessionPool
    exact absurd hpool (by decide)

end TtsServer.Heartbeat
