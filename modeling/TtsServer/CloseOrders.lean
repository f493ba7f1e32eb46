import TtsServer.Expiry
import TtsServer.SingleLayer

/-!
# The close orders of a tick

A tick orders sessions closed for two causes: because of the session itself, as
`evolve` finds it in the pool, and because of a request that has failed or been
cancelled, as the request names its session. The orders of the first kind are always
well formed: every session is named once, whatever identifiers the random generator
draws. The two kinds do not know of each other, and a request may name no session, a
session of another request, or a session that has long left the pool. This file says
when the orders of a tick are well formed in spite of that.
-/

namespace TtsServer

open Lib

/-! ### Ready sessions in the recency list -/

namespace SessionPool

variable {pool pool' : SessionPool} {id : String} {s : SessionRecord}
  {f : SessionRecord → SessionRecord} {gone : String → Bool}

/-- A pool with fewer entries in its recency list and fewer ready sessions. -/
theorem ReadyOnce.sublist (h : pool.ReadyOnce) (hlru : pool'.lru.Sublist pool.lru)
    (hready : ∀ id, pool'.isReady id = true → pool.isReady id = true) : pool'.ReadyOnce := by
  have hfewer : (pool'.lru.filter pool'.isReady).Sublist (pool'.lru.filter pool.isReady) :=
    List.monotone_filter_right _ hready
  exact (hfewer.trans (hlru.filter _)).nodup h

/-- Changing a record without making it ready. -/
theorem ReadyOnce.mark (h : pool.ReadyOnce) (hf : ∀ s, (f s).state = .ready → s.state = .ready) :
    (pool.mark id f).ReadyOnce := by
  refine h.sublist (List.Sublist.refl _) fun id' hready => ?_
  rw [isReady, get_mark] at hready
  rw [isReady]
  split at hready
  · cases hs : pool.get id' with
    | none => simp [hs] at hready
    | some s => simpa using hf s (by simpa [hs] using hready)
  · exact hready

/-- Removing sessions. -/
theorem ReadyOnce.without (h : pool.ReadyOnce) : (pool.without gone).ReadyOnce := by
  refine h.sublist List.filter_sublist fun id' hready => ?_
  rw [isReady, get_without] at hready
  split at hready
  · cases hready
  · exact hready

/-- Changing a record and promoting the session: it stands in the list once. -/
theorem ReadyOnce.markAndPromote (h : pool.ReadyOnce) : (pool.markAndPromote id f).ReadyOnce := by
  cases hs : pool.get id with
  | none => simpa [SessionPool.markAndPromote, hs] using h
  | some s =>
    have hothers : ∀ id' ∈ pool.lru.filter (fun x => x ≠ id),
        (pool.markAndPromote id f).isReady id' = pool.isReady id' := by
      intro id' hid'
      have hne : id' ≠ id := by simpa using (List.mem_filter.mp hid').2
      rw [isReady, isReady, get_markAndPromote, if_neg hne]
    have hlru : (pool.markAndPromote id f).lru = id :: pool.lru.filter fun x => x ≠ id := by
      simp [SessionPool.markAndPromote, hs, moveToFrontLocked, SessionPool.mark]
    have hrest : ((pool.lru.filter fun x => x ≠ id).filter
        (pool.markAndPromote id f).isReady).Nodup := by
      rw [List.filter_congr hothers]
      exact (List.filter_sublist.filter _).nodup h
    rw [ReadyOnce, hlru]
    by_cases hready : (pool.markAndPromote id f).isReady id = true
    · rw [List.filter_cons_of_pos hready]
      refine List.nodup_cons.mpr ⟨fun hmem => ?_, hrest⟩
      simp at hmem
    · rw [List.filter_cons_of_neg hready]
      exact hrest

/-- Inserting a session that is not ready, also under an identifier of the pool. -/
theorem ReadyOnce.add (h : pool.ReadyOnce) (hs : s.state ≠ .ready) : (pool.add s).2.ReadyOnce := by
  cases hadd : (pool.add s).1 with
  | false => rwa [add_refused hadd]
  | true =>
    have hlru : (pool.add s).2.lru = s.sessionId :: pool.lru := by
      unfold SessionPool.add at hadd ⊢
      split at hadd
      · cases hadd
      · rename_i hroom
        simp [hroom]
    have hnot : ¬(pool.add s).2.isReady s.sessionId = true := by
      rw [isReady, get_add hadd, if_pos rfl]
      simpa using hs
    have hothers : (pool.lru.filter (pool.add s).2.isReady).Sublist
        (pool.lru.filter pool.isReady) := by
      refine List.monotone_filter_right _ fun id' hready => ?_
      have hne : id' ≠ s.sessionId := fun heq => hnot (heq ▸ hready)
      rwa [isReady, get_add hadd, if_neg hne] at hready
    rw [ReadyOnce, hlru, List.filter_cons_of_neg hnot]
    exact hothers.nodup h

end SessionPool

/-- Insertion keeps a set a set. -/
theorem nodup_setInsert {x : String} {l : List String} (h : l.Nodup) : (setInsert x l).Nodup := by
  unfold setInsert
  split
  · exact h
  · rename_i hnot
    exact (List.perm_orderedInsert _ x l).nodup_iff.mpr (List.nodup_cons.mpr ⟨hnot, h⟩)

namespace Heartbeat

/-- What a tick keeps while it runs: every ready session stands in the recency list once, and
the touched sessions are a set. -/
structure Tracked (hb : Heartbeat) : Prop where
  readyOnce : hb.board.sessionPool.ReadyOnce
  touched : hb.changedSessions.Nodup

variable {env : Env} {hb : Heartbeat} {inp : TickInput}

/-- An acquisition promotes a session or inserts one that is connecting. -/
theorem acquire_readyOnce (h : hb.board.sessionPool.ReadyOnce) :
    (acquireOrCreateSession env hb).2.board.sessionPool.ReadyOnce := by
  unfold acquireOrCreateSession
  split
  · exact h.markAndPromote
  · exact h.add (by simp)

/-- A request keeps track of the sessions. -/
theorem Tracked.request (h : Tracked hb) (req : TtsRequestMsg) :
    Tracked (handleRequest env req hb) := by
  unfold handleRequest
  simp only
  split
  · exact ⟨h.readyOnce, h.touched⟩
  · split
    · exact ⟨h.readyOnce, h.touched⟩
    · -- the controller has only written the backpressure level
      generalize hleveled : { hb with board.metrics := (evaluate env hb.board.metrics).2 } = hb₀
      have hready : (acquireOrCreateSession env hb₀).2.board.sessionPool.ReadyOnce := by
        refine acquire_readyOnce ?_
        rw [← hleveled]
        exact h.readyOnce
      have htouched : (acquireOrCreateSession env hb₀).2.changedSessions.Nodup := by
        obtain ⟨pool, reads, draws, hframe, -⟩ := acquire_frame env hb₀
        rw [hframe, ← hleveled]
        exact h.touched
      unfold admitUpstream
      simp only
      split
      · exact ⟨hready, htouched⟩
      · exact ⟨hready.mark fun _ hs => hs, nodup_setInsert htouched⟩

/-- An upstream event keeps track of the sessions. -/
theorem Tracked.response (h : Tracked hb) (e : TtsResponseMsg) :
    Tracked (handleResponse env e hb) := by
  have hfail (ids : List String) : Tracked (ids.foldl (failTask e) hb) :=
    List.foldlRecOn ids _ h fun hb' hhb' _ _ => ⟨hhb'.readyOnce, hhb'.touched⟩
  have hlost (ids : List String) : Tracked (ids.foldl failLost hb) :=
    List.foldlRecOn ids _ h fun hb' hhb' _ _ => ⟨hhb'.readyOnce, hhb'.touched⟩
  unfold handleResponse
  cases e.kind with
  | connected => exact ⟨h.readyOnce.markAndPromote, nodup_setInsert h.touched⟩
  | taskStarted => exact h
  | audioChunk =>
    simp only [handleAudioChunk]
    split
    · exact h
    · exact ⟨h.readyOnce, h.touched⟩
  | taskFinished => exact ⟨h.readyOnce, nodup_setInsert h.touched⟩
  | taskFailed =>
    have hfailed := hfail (hb.board.pending.collectBySession e.sessionId)
    exact ⟨hfailed.readyOnce.mark (by simp), nodup_setInsert hfailed.touched⟩
  | disconnected =>
    have hended := hlost (hb.board.pending.collectBySession e.sessionId)
    refine ⟨?_, nodup_setInsert hended.touched⟩
    simp only [SessionPool.markClosed_eq_without]
    exact hended.readyOnce.without

/-- Every message keeps track of the sessions. -/
theorem Tracked.message (h : Tracked hb) (m : Message) : Tracked (handleMessage env hb m) := by
  cases m with
  | request req => exact h.request req
  | response e => exact h.response e
  | cancel msg => exact ⟨h.readyOnce, h.touched⟩
  | localComplete c => exact ⟨h.readyOnce, h.touched⟩
  | localFailed f => exact ⟨h.readyOnce, h.touched⟩

/-- The emission pass keeps track of the sessions. -/
theorem Tracked.emitReady (h : Tracked hb) : Tracked hb.emitReady := by
  refine List.foldlRecOn _ _ h fun hb' hhb' rid _ => ?_
  unfold emitCompleted
  split
  · exact hhb'
  · exact ⟨hhb'.readyOnce.mark (by simp), nodup_setInsert hhb'.touched⟩

/-- When the board evolves, the sessions have been tracked. -/
theorem tracked_beforeEvolve (h : hb.board.sessionPool.ReadyOnce) :
    Tracked (beforeEvolve env inp hb) := by
  have hbegin : Tracked hb.beginTick := ⟨h, List.nodup_nil⟩
  exact (List.foldlRecOn inp.batch _ hbegin fun hb' hhb' m _ => hhb'.message m).emitReady

/-- What holds between the ticks of every run. -/
structure Orderly (hb : Heartbeat) : Prop where
  between : History.BetweenTicks hb
  readyOnce : hb.board.sessionPool.ReadyOnce

/-- The pool is well keyed when the board evolves. -/
theorem Orderly.wellKeyed (h : Orderly hb) :
    (beforeEvolve env inp hb).board.sessionPool.WellKeyed :=
  emitReady_emitted.wellKeyed
    (History.foldl_handleMessage_poolWf h.between.poolWf.beginTick inp.batch).wellKeyed

/-- A tick keeps the order. -/
theorem Orderly.tick (h : Orderly hb) : Orderly (tick env inp hb).2 := by
  refine ⟨h.between.tick inp, ?_⟩
  have htracked := @tracked_beforeEvolve env _ inp h.readyOnce
  have hpool : (Heartbeat.tick env inp hb).2.board.sessionPool =
      (evolve ⟨(beforeEvolve env inp hb).changedSessions,
        (beforeEvolve env inp hb).changedRequests⟩ inp.now
        (beforeEvolve env inp hb).board).2.sessionPool :=
    (@finishTick_board (midTick env hb inp.batch) inp).2.1
  rw [hpool, evolve_eq_evolveOnce h.wellKeyed htracked.touched]
  exact htracked.readyOnce.without

/-- Every run from an empty board is in order between its ticks. -/
theorem orderly_run (maxSize : Nat) (idleTimeout maxLifetime : Duration)
    (inputs : List TickInput) :
    Orderly (run env (start maxSize idleTimeout maxLifetime) inputs).2 := by
  induction inputs using List.reverseRecOn with
  | nil =>
    exact ⟨History.start_betweenTicks maxSize idleTimeout maxLifetime, List.nodup_nil⟩
  | append_singleton inputs inp ih =>
    rw [run_concat]
    exact ih.tick

/-! ### The sessions of a tick -/

/-- A session was in the pool at some moment of a tick. From the last message on, a tick adds
no session. -/
def InPoolDuring (env : Env) (inp : TickInput) (hb : Heartbeat) (sid : String) : Prop :=
  ∃ ms, ms <+: inp.batch ∧ ((midTick env hb ms).board.sessionPool.get sid).isSome = true

variable {sid rid : String} {ms ms' : List Message}

/-- The sessions that two parts of a batch create. -/
theorem createdIn_append : createdIn env hb (ms ++ ms') =
    createdIn env hb ms ++ createdIn env (ms.foldl (handleMessage env) hb) ms' := by
  induction ms generalizing hb with
  | nil => rfl
  | cons m ms ih => simp [createdIn, ih]

/-- A session that a message creates is in the pool then. -/
theorem isSome_get_of_createdBy (hwf : hb.PoolWf) {m : Message} (hsid : sid ∈ createdBy env hb m) :
    ((handleMessage env hb m).board.sessionPool.get sid).isSome = true := by
  cases m with
  | request req =>
    rcases @handleRequest_effect env hb req hwf.wellKeyed hwf.named with
      ⟨hdecision | hdecision, -⟩ | ⟨hdecision, -⟩ | ⟨handle, s, hdecision, heffect⟩
    · simp [createdBy, hdecision] at hsid
    · simp [createdBy, hdecision] at hsid
    · simp [createdBy, hdecision] at hsid
    · obtain rfl : sid = handle.sessionId := by
        simp only [createdBy, hdecision] at hsid
        split at hsid
        · cases hsid
        · exact List.mem_singleton.mp hsid
      rw [handleMessage, heffect.session, if_pos rfl]
      rfl
  | _ => cases hsid

/-- A session that a batch creates is in the pool after some beginning of the batch. -/
theorem exists_prefix_of_createdIn (hwf : hb.PoolWf) (hsid : sid ∈ createdIn env hb ms) :
    ∃ ms', ms' <+: ms ∧
      ((ms'.foldl (handleMessage env) hb).board.sessionPool.get sid).isSome = true := by
  induction ms generalizing hb with
  | nil => cases hsid
  | cons m ms ih =>
    rcases List.mem_append.mp hsid with hsid | hsid
    · exact ⟨[m], List.prefix_append [m] ms, isSome_get_of_createdBy hwf hsid⟩
    · obtain ⟨ms', hms', hget⟩ := ih (History.handleMessage_poolWf hwf m) hsid
      exact ⟨m :: ms', List.cons_prefix_cons.mpr ⟨rfl, hms'⟩, hget⟩

/-- The sessions of a tick are those at its start and those that it creates. -/
theorem inPoolDuring_iff (hwf : hb.PoolWf) : InPoolDuring env inp hb sid ↔
    (∃ s, hb.board.sessionPool.get sid = some s) ∨ sid ∈ createdIn env hb.beginTick inp.batch := by
  constructor
  · rintro ⟨ms, ⟨ms', hms⟩, hget⟩
    obtain ⟨s', hs'⟩ := Option.isSome_iff_exists.mp hget
    rcases foldl_handleMessage_sessions hwf.beginTick hs' with hcreated | hstart
    · rw [← hms, createdIn_append]
      exact Or.inr (List.mem_append_left _ hcreated)
    · exact Or.inl hstart
  · rintro (⟨s, hs⟩ | hcreated)
    · exact ⟨[], List.nil_prefix, Option.isSome_iff_exists.mpr ⟨s, hs⟩⟩
    · exact exists_prefix_of_createdIn hwf.beginTick hcreated

/-! ### The orders of a tick -/

/-- Every session is ordered closed at most once, and only a session with a name that was in
the pool at some moment of the tick. -/
structure ClosesWellFormed (env : Env) (inp : TickInput) (hb : Heartbeat) : Prop where
  distinct : ((tick env inp hb).1.closeSessions.map CloseSession.sessionId).Nodup
  named : ∀ c ∈ (tick env inp hb).1.closeSessions, c.sessionId ≠ ""
  known : ∀ c ∈ (tick env inp hb).1.closeSessions, InPoolDuring env inp hb c.sessionId

/-- A request has failed or been cancelled. -/
def Terminal (hb : Heartbeat) (rid : String) (p : PendingRequest) : Prop :=
  hb.board.pending.get rid = some p ∧ p.state.terminal = true

/-- `evolve` closes a session for its own sake. -/
def ClosesSession (inp : TickInput) (hb : Heartbeat) (sid : String) : Prop :=
  ∃ s, hb.board.sessionPool.get sid = some s ∧
    hb.board.sessionPool.closes ⟨hb.changedSessions, hb.changedRequests⟩ inp.now s

/-- The requests that have failed or been cancelled when the board evolves: each is bound to
a session of its own, which was in the pool when the tick began or was created in it, and
which is not closed for its own sake. -/
structure EndsApart (env : Env) (inp : TickInput) (hb : Heartbeat) : Prop where
  bound : ∀ rid p, Terminal (beforeEvolve env inp hb) rid p → p.sessionId ≠ ""
  known : ∀ rid p, Terminal (beforeEvolve env inp hb) rid p →
    (∃ s, hb.board.sessionPool.get p.sessionId = some s) ∨
      p.sessionId ∈ createdIn env hb.beginTick inp.batch
  kept : ∀ rid p, Terminal (beforeEvolve env inp hb) rid p →
    ¬ClosesSession inp (beforeEvolve env inp hb) p.sessionId
  apart : ∀ rid rid' p p', Terminal (beforeEvolve env inp hb) rid p →
    Terminal (beforeEvolve env inp hb) rid' p' → p.sessionId = p'.sessionId → rid = rid'

/-- The orders of the sweep. -/
def sweptCloses (hb : Heartbeat) : List CloseSession :=
  hb.board.pending.collectTerminal.filterMap hb.board.pending.sweptClose

variable {p : PendingRequest}

/-- The sweep orders the session of every request closed that has ended. -/
theorem mem_sweptCloses {c : CloseSession} : c ∈ hb.sweptCloses ↔
    ∃ rid p, Terminal hb rid p ∧ c = ⟨p.sessionId, "request_failed_or_cancelled"⟩ := by
  rw [sweptCloses, List.mem_filterMap]
  constructor
  · rintro ⟨rid, hmem, hc⟩
    obtain ⟨p, hp, hterminal⟩ := PendingRequestStore.mem_collectTerminal.mp hmem
    rw [PendingRequestStore.sweptClose, hp, Option.map_some] at hc
    exact ⟨rid, p, ⟨hp, hterminal⟩, (Option.some.inj hc).symm⟩
  · rintro ⟨rid, p, ⟨hp, hterminal⟩, rfl⟩
    refine ⟨rid, PendingRequestStore.mem_collectTerminal.mpr ⟨p, hp, hterminal⟩, ?_⟩
    rw [PendingRequestStore.sweptClose, hp, Option.map_some]

/-- The sweep names no session twice exactly if no two ended requests share one. -/
theorem nodup_sweptCloses_iff : (hb.sweptCloses.map CloseSession.sessionId).Nodup ↔
    ∀ rid rid' p p', Terminal hb rid p → Terminal hb rid' p' → p.sessionId = p'.sessionId →
      rid = rid' := by
  -- the request behind every order has a record
  let session (rid : String) : String := ((hb.board.pending.get rid).map (·.sessionId)).getD ""
  have hids : hb.sweptCloses.map CloseSession.sessionId =
      hb.board.pending.collectTerminal.map session := by
    rw [sweptCloses, List.map_filterMap, ← List.filterMap_eq_map]
    refine List.filterMap_congr fun rid hmem => ?_
    obtain ⟨p, hp, -⟩ := PendingRequestStore.mem_collectTerminal.mp hmem
    simp [PendingRequestStore.sweptClose, session, hp]
  have hnodup : hb.board.pending.collectTerminal.Nodup := Table.nodup_collect _ _
  rw [hids, List.nodup_map_iff_inj_on hnodup]
  constructor
  · intro hinj rid rid' p p' hp hp' hsame
    refine hinj rid (PendingRequestStore.mem_collectTerminal.mpr ⟨p, hp⟩) rid'
      (PendingRequestStore.mem_collectTerminal.mpr ⟨p', hp'⟩) ?_
    simp [session, hp.1, hp'.1, hsame]
  · intro hapart rid hrid rid' hrid' hsame
    obtain ⟨p, hp⟩ := PendingRequestStore.mem_collectTerminal.mp hrid
    obtain ⟨p', hp'⟩ := PendingRequestStore.mem_collectTerminal.mp hrid'
    exact hapart rid rid' p p' hp hp' (by simpa [session, hp.1, hp'.1] using hsame)

/-- The orders of the sessions themselves. -/
def ownCloses (inp : TickInput) (hb : Heartbeat) : List CloseSession :=
  sessionCloses ⟨hb.changedSessions, hb.changedRequests⟩ inp.now hb.board.sessionPool

/-- The sessions that are closed for their own sake. -/
theorem exists_mem_ownCloses_iff (hpool : hb.board.sessionPool.WellKeyed) :
    (∃ c ∈ ownCloses inp hb, c.sessionId = sid) ↔ ClosesSession inp hb sid := by
  constructor
  · rintro ⟨c, hc, rfl⟩
    obtain ⟨s, hs, hreason⟩ := (mem_sessionCloses hpool).mp hc
    exact ⟨s, hs, SessionPool.closes_iff_closeReason.mpr ⟨_, hreason⟩⟩
  · rintro ⟨s, hs, hcloses⟩
    obtain ⟨reason, hreason⟩ := SessionPool.closes_iff_closeReason.mp hcloses
    exact ⟨⟨sid, reason⟩, (mem_sessionCloses hpool).mpr ⟨s, hs, hreason⟩, rfl⟩

/-- The orders of a tick: first those of the sessions, then those of the sweep. -/
theorem Orderly.closeSessions (h : Orderly hb) : (Heartbeat.tick env inp hb).1.closeSessions =
    ownCloses inp (beforeEvolve env inp hb) ++ (beforeEvolve env inp hb).sweptCloses := by
  rw [tick_closeSessions h.between,
    evolve_eq_evolveOnce h.wellKeyed (tracked_beforeEvolve h.readyOnce).touched]
  rfl

/-- The orders of the sessions themselves are always well formed. -/
theorem Orderly.ownCloses_wellFormed (h : Orderly hb) :
    ((ownCloses inp (beforeEvolve env inp hb)).map CloseSession.sessionId).Nodup ∧
      ∀ c ∈ ownCloses inp (beforeEvolve env inp hb),
        c.sessionId ≠ "" ∧ InPoolDuring env inp hb c.sessionId := by
  have htracked := @tracked_beforeEvolve env _ inp h.readyOnce
  refine ⟨nodup_sessionCloses htracked.readyOnce htracked.touched, fun c hc => ?_⟩
  obtain ⟨s, hs, -⟩ := (mem_sessionCloses h.wellKeyed).mp hc
  have hmid := (@emitReady_emitted (midTick env hb inp.batch)).session.symm.trans hs
  obtain ⟨s₀, hs₀, -⟩ := Option.map_eq_some_iff.mp hmid
  have hwf := @History.foldl_handleMessage_poolWf env _ h.between.poolWf.beginTick inp.batch
  exact ⟨hwf.named hs₀, inp.batch, List.prefix_refl _, Option.isSome_iff_exists.mpr ⟨s₀, hs₀⟩⟩

/-- The orders of a tick are well formed exactly if the requests that end in it are apart
from each other and from the sessions that `evolve` closes. -/
theorem Orderly.closesWellFormed_iff (h : Orderly hb) :
    ClosesWellFormed env inp hb ↔ EndsApart env inp hb := by
  have hcloses := @Orderly.closeSessions env _ inp h
  obtain ⟨hown, hownKnown⟩ := @Orderly.ownCloses_wellFormed env _ inp h
  have hswept : ∀ rid p, Terminal (beforeEvolve env inp hb) rid p →
      (⟨p.sessionId, "request_failed_or_cancelled"⟩ : CloseSession) ∈
        (beforeEvolve env inp hb).sweptCloses :=
    fun rid p hp => mem_sweptCloses.mpr ⟨rid, p, hp, rfl⟩
  constructor
  · intro hwell
    have hmem : ∀ rid p, Terminal (beforeEvolve env inp hb) rid p →
        (⟨p.sessionId, "request_failed_or_cancelled"⟩ : CloseSession) ∈
          (Heartbeat.tick env inp hb).1.closeSessions :=
      fun rid p hp => hcloses ▸ List.mem_append_right _ (hswept rid p hp)
    have hdistinct := hwell.distinct
    rw [hcloses, List.map_append, List.nodup_append] at hdistinct
    obtain ⟨-, hsweptDistinct, hdisjoint⟩ := hdistinct
    refine ⟨fun rid p hp => hwell.named _ (hmem rid p hp), fun rid p hp => ?_,
      fun rid p hp hclosed => ?_, nodup_sweptCloses_iff.mp hsweptDistinct⟩
    · exact (inPoolDuring_iff h.between.poolWf).mp (hwell.known _ (hmem rid p hp))
    · obtain ⟨c, hc, hsame⟩ := (exists_mem_ownCloses_iff h.wellKeyed).mpr hclosed
      exact hdisjoint _ (List.mem_map_of_mem hc) _ (List.mem_map_of_mem (hswept rid p hp)) hsame
  · intro hapart
    have hall : ∀ c ∈ (Heartbeat.tick env inp hb).1.closeSessions,
        c.sessionId ≠ "" ∧ InPoolDuring env inp hb c.sessionId := by
      intro c hc
      rw [hcloses, List.mem_append] at hc
      rcases hc with hc | hc
      · exact hownKnown c hc
      · obtain ⟨rid, p, hp, rfl⟩ := mem_sweptCloses.mp hc
        exact ⟨hapart.bound rid p hp,
          (inPoolDuring_iff h.between.poolWf).mpr (hapart.known rid p hp)⟩
    refine ⟨?_, fun c hc => (hall c hc).1, fun c hc => (hall c hc).2⟩
    rw [hcloses, List.map_append, List.nodup_append]
    refine ⟨hown, nodup_sweptCloses_iff.mpr hapart.apart, ?_⟩
    rintro a ha b hb rfl
    obtain ⟨c, hc, hsame⟩ := List.mem_map.mp ha
    obtain ⟨c', hc', hsame'⟩ := List.mem_map.mp hb
    obtain ⟨rid, p, hp, rfl⟩ := mem_sweptCloses.mp hc'
    exact hapart.kept rid p hp
      ((exists_mem_ownCloses_iff h.wellKeyed).mp ⟨c, hc, hsame.trans hsame'.symm⟩)

/-- In every run from an empty board, the orders of a tick are well formed exactly if each
request that has failed or been cancelled in it is bound to a session of its own, which
the tick has found or created and does not close for another reason. -/
theorem close_orders_iff (env : Env) (maxSize : Nat) (idleTimeout maxLifetime : Duration)
    (before : List TickInput) (inp : TickInput) :
    ClosesWellFormed env inp (run env (start maxSize idleTimeout maxLifetime) before).2 ↔
      EndsApart env inp (run env (start maxSize idleTimeout maxLifetime) before).2 :=
  (orderly_run maxSize idleTimeout maxLifetime before).closesWellFormed_iff

/-- A request and the failure of the session that is created for it, in one tick. -/
def failingTick : TickInput :=
  { requests := [.request { requestId := "r" }]
    events := [.response { sessionId := "s-0000000000000000", kind := .taskFailed }] }

/-- The session is ordered closed twice. -/
theorem failingTick_closes_twice :
    let hb := start 16 (seconds 60) (seconds 3600)
    (tick sampleEnv failingTick hb).1.closeSessions =
        [⟨"s-0000000000000000", "evolve_session_closed"⟩,
          ⟨"s-0000000000000000", "request_failed_or_cancelled"⟩] ∧
      ¬ClosesWellFormed sampleEnv failingTick hb := by
  intro hb
  have hcloses : (tick sampleEnv failingTick hb).1.closeSessions =
      [⟨"s-0000000000000000", "evolve_session_closed"⟩,
        ⟨"s-0000000000000000", "request_failed_or_cancelled"⟩] := by decide +kernel
  refine ⟨hcloses, fun hwell => ?_⟩
  have hdistinct := hwell.distinct
  rw [hcloses] at hdistinct
  simp at hdistinct

end Heartbeat

end TtsServer
