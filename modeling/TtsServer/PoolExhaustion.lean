import TtsServer.Routing

/-!
# Exhaustion of the session pool

A session of the pool can be given to a new request only when it is ready, and its
slot is freed only when it fails, is lost or expires. A session that is connecting,
streaming or draining is meant to serve a pending request. If its last request
leaves the store, nothing makes the session ready again, and the slot is lost until
the session expires. This file shows that this is the only way to exhaust the pool
while nothing is pending; cancellation takes it.
-/

namespace TtsServer

open Lib Heartbeat History

namespace Heartbeat

/-- A pending request is bound to a session. -/
def Bound (hb : Heartbeat) (sid rid : String) : Prop :=
  ∃ p, hb.board.pending.get rid = some p ∧ p.sessionId = sid

/-- A session that needs no request: it is ready, or has failed in this tick and will be
closed. -/
def Released (hb : Heartbeat) (sid : String) (s : SessionRecord) : Prop :=
  s.state = .ready ∨ (s.failedOrClosed = true ∧ sid ∈ hb.changedSessions)

/-- A request whose session can do without it: the session is not in the pool, is released,
or has another pending request. -/
def MayLeave (hb : Heartbeat) (rid : String) : Prop :=
  ∀ p ∈ hb.board.pending.get rid, ∀ s ∈ hb.board.sessionPool.get p.sessionId,
    hb.Released p.sessionId s ∨
      ∃ rid' ∈ hb.board.pending.collectBySession p.sessionId, rid' ≠ rid

/-- A message that takes no request from a session that needs it: answers of the local
engine drop a request, and an upstream request replaces a pending one with its identifier. -/
def KeepsSessions (env : Env) (hb : Heartbeat) : Message → Prop
  | .request req => (evaluate env hb.board.metrics).1.admitted = true →
      shouldUseLocal env req = false → hb.MayLeave req.requestId
  | .localComplete c => hb.MayLeave c.requestId
  | .localFailed f => hb.MayLeave f.requestId
  | .response _ => True
  | .cancel _ => True

end Heartbeat

/-- A request that the end of a tick removes, by emission or by the sweep. -/
def PendingRequest.leaves (p : PendingRequest) : Bool := p.readyToEmit || p.state.terminal

namespace Heartbeat

/-- A request whose session can do without it when the tick ends: the session is not in the
pool, keeps another request, has reached its lifetime, or is released and emits nothing. -/
def MayEnd (inp : TickInput) (hb : Heartbeat) (p : PendingRequest) : Prop :=
  ∀ s ∈ hb.board.sessionPool.get p.sessionId,
    (∃ rid ∈ hb.board.pending.collectBySession p.sessionId,
      (hb.board.pending.get rid).any (fun p' => !p'.leaves) = true) ∨
    hb.board.sessionPool.lifetimeExpired inp.now s = true ∨
    (hb.Released p.sessionId s ∧ ∀ rid ∈ hb.board.pending.collectBySession p.sessionId,
      rid ∉ hb.board.pending.findReadyToEmit)

/-- The end of a tick takes no request from a session that needs it. -/
def EndsCleanly (inp : TickInput) (hb : Heartbeat) : Prop :=
  ∀ rid p, hb.board.pending.get rid = some p → p.leaves = true → hb.MayEnd inp p

instance (hb : Heartbeat) (sid : String) (s : SessionRecord) : Decidable (hb.Released sid s) :=
  inferInstanceAs (Decidable (_ ∨ _))

instance (hb : Heartbeat) (rid : String) : Decidable (hb.MayLeave rid) :=
  inferInstanceAs (Decidable (∀ p ∈ hb.board.pending.get rid, _))

instance (env : Env) (hb : Heartbeat) : ∀ m, Decidable (KeepsSessions env hb m)
  | .request _ => inferInstanceAs (Decidable (_ → _ → hb.MayLeave _))
  | .response _ => .isTrue trivial
  | .cancel _ => .isTrue trivial
  | .localComplete c => inferInstanceAs (Decidable (hb.MayLeave c.requestId))
  | .localFailed f => inferInstanceAs (Decidable (hb.MayLeave f.requestId))

instance (inp : TickInput) (hb : Heartbeat) (p : PendingRequest) : Decidable (hb.MayEnd inp p) :=
  inferInstanceAs (Decidable (∀ s ∈ hb.board.sessionPool.get p.sessionId, _))

/-- Whether a tick ends cleanly is decided by looking for a request that may not end. -/
theorem endsCleanly_iff {inp : TickInput} {hb : Heartbeat} :
    hb.board.pending.store.collect (fun _ p => p.leaves && !decide (hb.MayEnd inp p)) = [] ↔
      EndsCleanly inp hb := by
  rw [Table.collect_eq_nil_iff]
  constructor
  · intro hnone rid p hp hleaves
    simpa [hleaves] using hnone rid p hp
  · intro hclean rid p hp
    by_cases hleaves : p.leaves = true
    · simp [hclean rid p hp hleaves]
    · simp [hleaves]

instance (inp : TickInput) (hb : Heartbeat) : Decidable (EndsCleanly inp hb) :=
  decidable_of_iff _ endsCleanly_iff

/-- A tick that strands no session: neither its messages nor its end take a request from a
session that needs it. -/
def StrandsNone (env : Env) (hb : Heartbeat) (inp : TickInput) : Prop :=
  Along (handleMessage env) (KeepsSessions env) hb.beginTick inp.batch ∧
    EndsCleanly inp (midTick env hb inp.batch)

instance (env : Env) (hb : Heartbeat) (inp : TickInput) : Decidable (StrandsNone env hb inp) :=
  inferInstanceAs (Decidable (_ ∧ _))

/-- Every session of the pool is released or has a pending request. -/
def Occupied (hb : Heartbeat) : Prop :=
  ∀ ⦃sid s⦄, hb.board.sessionPool.get sid = some s →
    hb.Released sid s ∨ ∃ rid, hb.Bound sid rid

/-- Between ticks, every session of the pool is ready or has a pending request. -/
def Settled (hb : Heartbeat) : Prop :=
  ∀ ⦃sid s⦄, hb.board.sessionPool.get sid = some s → s.state = .ready ∨ ∃ rid, hb.Bound sid rid

variable {env : Env} {hb hb' : Heartbeat} {sid rid : String} {s : SessionRecord}

/-- A released session stays released while the batch touches more sessions. -/
theorem Released.mono (h : hb.Released sid s)
    (hchanged : sid ∈ hb.changedSessions → sid ∈ hb'.changedSessions) : hb'.Released sid s :=
  h.imp_right fun hfailed => ⟨hfailed.1, hchanged hfailed.2⟩

/-- A rejected request changes nothing. -/
theorem Occupied.request_rejected (hocc : hb.Occupied) (heffect : Rejected hb hb') :
    hb'.Occupied := by
  intro sid s hs
  rw [heffect.sessionPool] at hs
  rcases hocc hs with hreleased | ⟨rid, p, hp, hsession⟩
  · exact Or.inl (hreleased.mono fun h => heffect.changedSessions ▸ h)
  · exact Or.inr ⟨rid, p, heffect.pending ▸ hp, hsession⟩

/-- A local request leaves every session with its requests. -/
theorem Occupied.request_local (hocc : hb.Occupied) {req : TtsRequestMsg}
    (heffect : OnLocal env req hb hb') : hb'.Occupied := by
  intro sid s hs
  rw [heffect.sessionPool] at hs
  rcases hocc hs with hreleased | ⟨rid, p, hp, hsession⟩
  · exact Or.inl (hreleased.mono fun h => heffect.changedSessions ▸ h)
  · right
    by_cases hrid : rid = req.requestId
    · subst hrid
      obtain ⟨p', hp', -, hrecord⟩ := heffect.record
      rw [hp] at hrecord
      exact ⟨_, p', hp', hrecord.1.trans hsession⟩
    · exact ⟨rid, p, (heffect.others hrid).trans hp, hsession⟩

/-- A session stays occupied when one request may leave it and the others stay. -/
theorem Occupied.leave (hocc : hb.Occupied) {id sid : String} {s : SessionRecord}
    (hs : hb.board.sessionPool.get sid = some s) (hleave : hb.MayLeave id)
    (hchanged : sid ∈ hb.changedSessions → sid ∈ hb'.changedSessions)
    (hkept : ∀ rid, rid ≠ id → hb'.board.pending.get rid = hb.board.pending.get rid) :
    hb'.Released sid s ∨ ∃ rid, hb'.Bound sid rid := by
  rcases hocc hs with hreleased | ⟨rid, p, hp, hsession⟩
  · exact Or.inl (hreleased.mono hchanged)
  · by_cases hrid : rid = id
    · subst hrid
      subst hsession
      rcases hleave p hp s hs with hreleased | ⟨rid', hmem, hne⟩
      · exact Or.inl (hreleased.mono hchanged)
      · obtain ⟨p', hp', hsession'⟩ := PendingRequestStore.mem_collectBySession.mp hmem
        exact Or.inr ⟨rid', p', (hkept rid' hne).trans hp', hsession'⟩
    · exact Or.inr ⟨rid, p, (hkept rid hrid).trans hp, hsession⟩

/-- Binding a request occupies its session, and takes at most its own identifier from
another one. -/
theorem Occupied.request_session (hocc : hb.Occupied) {req : TtsRequestMsg}
    {handle : SessionHandle} {s₀ : SessionRecord} (heffect : OnSession env req handle s₀ hb hb')
    (hleave : hb.MayLeave req.requestId) : hb'.Occupied := by
  intro sid s hs
  rw [heffect.session] at hs
  split at hs
  · rename_i hsid
    obtain ⟨t, hrecord⟩ := heffect.record
    exact Or.inr ⟨_, _, hrecord, hsid.symm⟩
  · have hchanged : sid ∈ hb.changedSessions → sid ∈ hb'.changedSessions := by
      intro h
      rw [heffect.changedSessions, mem_setInsert]
      exact Or.inr h
    exact hocc.leave hs hleave hchanged fun _ hne => heffect.others hne

/-- An answer takes at most its own request from a session. -/
theorem Occupied.answer (hocc : hb.Occupied) {id : String} {w : WriteToClient}
    (heffect : Answered id w hb hb') (hleave : hb.MayLeave id) : hb'.Occupied := by
  intro sid s hs
  rw [heffect.sessionPool] at hs
  refine hocc.leave hs hleave (fun h => heffect.changedSessions ▸ h) fun rid hne => ?_
  rw [heffect.pending, PendingRequestStore.get_remove, if_neg hne]

/-- An upstream event keeps the requests of every session, and a session that it leaves
neither ready nor failed is as it was. -/
theorem Occupied.response (hocc : hb.Occupied) (hwf : hb.PoolWf) (rsp : TtsResponseMsg) :
    (handleResponse env rsp hb).Occupied := by
  intro sid s hs
  have hchanged : sid ∈ hb.changedSessions →
      sid ∈ (handleResponse env rsp hb).changedSessions :=
    fun h => handleResponse_changedSessions.mpr (Or.inl h)
  have hold : hb.board.sessionPool.get sid = some s →
      (handleResponse env rsp hb).Released sid s ∨
        ∃ rid, (handleResponse env rsp hb).Bound sid rid := by
    intro hs
    rcases hocc hs with hreleased | ⟨rid, p, hp, hsession⟩
    · exact Or.inl (hreleased.mono hchanged)
    · obtain ⟨p', hp', hsession', -⟩ := @step_pending_kept env { hb := hb } hwf (.response rsp)
        rid p hp (by simp [Message.requestId?]) (by simp [Message.answerId?])
      exact Or.inr ⟨rid, p', hp', hsession'.trans hsession⟩
  rw [handleResponse_get_session] at hs
  cases hkind : rsp.kind with
  | connected =>
    simp only [hkind] at hs
    split at hs
    · obtain ⟨s', -, rfl⟩ := Option.map_eq_some_iff.mp hs
      exact Or.inl (Or.inl rfl)
    · exact hold hs
  | taskFailed =>
    simp only [hkind] at hs
    split at hs
    · rename_i hsid
      obtain ⟨s', -, rfl⟩ := Option.map_eq_some_iff.mp hs
      refine Or.inl (Or.inr ⟨rfl, handleResponse_changedSessions.mpr (Or.inr ⟨hsid, ?_⟩)⟩)
      simp [hkind]
    · exact hold hs
  | disconnected =>
    simp only [hkind] at hs
    split at hs
    · cases hs
    · exact hold hs
  | audioChunk =>
    simp only [hkind] at hs
    exact hold hs
  | taskStarted =>
    simp only [hkind] at hs
    exact hold hs
  | taskFinished =>
    simp only [hkind] at hs
    exact hold hs

/-- A message that takes no request from a session that needs it keeps every session
occupied. -/
theorem Occupied.message (hocc : hb.Occupied) (hwf : hb.PoolWf) {m : Message}
    (hkeeps : KeepsSessions env hb m) : (handleMessage env hb m).Occupied := by
  cases m with
  | request req =>
    rcases @handleRequest_effect env hb req hwf.wellKeyed hwf.named with
      ⟨-, heffect⟩ | ⟨-, heffect⟩ | ⟨handle, s, hdecision, heffect⟩
    · exact hocc.request_rejected heffect
    · exact hocc.request_local heffect
    · exact hocc.request_session heffect
        (hkeeps ((admission_eq_onSession_iff.mp hdecision).1) heffect.useLocal)
  | response rsp => exact hocc.response hwf rsp
  | cancel msg =>
    intro sid s hs
    rcases hocc hs with hreleased | ⟨rid, p, hp, hsession⟩
    · exact Or.inl hreleased
    · obtain ⟨p', hp', hsession', -⟩ := @step_pending_kept env { hb := hb } hwf (.cancel msg) rid p
        hp (by simp [Message.requestId?]) (by simp [Message.answerId?])
      exact Or.inr ⟨rid, p', hp', hsession'.trans hsession⟩
  | localComplete c =>
    exact hocc.answer (@answer_effect env hb (.localComplete c) _ rfl).2 hkeeps
  | localFailed f => exact hocc.answer (@answer_effect env hb (.localFailed f) _ rfl).2 hkeeps

/-- A request that does not leave is in the store after the tick. -/
theorem finishTick_keeps {inp : TickInput} {p : PendingRequest}
    (hp : hb.board.pending.get rid = some p) (hstays : p.leaves = false) :
    (finishTick inp hb).2.board.pending.get rid = some p := by
  obtain ⟨hready, hterminal⟩ := Bool.or_eq_false_iff.mp hstays
  exact finishTick_get_pending.mpr ⟨hp, hready, hterminal⟩

/-- The end of a tick that strands no session settles the pool. -/
theorem Occupied.finish (hocc : hb.Occupied) (hwf : hb.PoolWf) {inp : TickInput}
    (hclean : EndsCleanly inp hb) : (finishTick inp hb).2.Settled := by
  intro sid s' hs'
  obtain ⟨hs', hopen⟩ := (finishTick_get_session hwf.wellKeyed).mp hs'
  have hemitted := @emitReady_emitted hb
  have hkeyed := hemitted.wellKeyed hwf.wellKeyed
  have hid : s'.sessionId = sid := hkeyed.sessionId_eq hs'
  rw [hemitted.session] at hs'
  obtain ⟨s, hs, hdrained⟩ := Option.map_eq_some_iff.mp hs'
  -- a session that is not drained and is released is ready, since failed sessions are closed
  have hready : s' = s → hb.Released sid s → s'.state = .ready := by
    rintro rfl (hready | ⟨hfailed, hchanged⟩)
    · exact hready
    · refine absurd (Or.inl ⟨?_, hfailed⟩) hopen
      rw [hid]
      exact hemitted.changedSessions.mpr (Or.inr hchanged)
  have hundrained : (∀ rid p, hb.board.pending.get rid = some p → p.sessionId = sid →
      p.readyToEmit = false) → s' = s := by
    intro hnone
    rw [← hdrained, if_neg]
    intro hmem
    obtain ⟨⟨rid, p⟩, he, hsession⟩ := List.mem_map.mp hmem
    obtain ⟨hp, hready⟩ := mem_emissions.mp he
    rw [hnone rid p hp hsession] at hready
    cases hready
  by_cases hleaves : ∃ rid p, hb.board.pending.get rid = some p ∧ p.sessionId = sid ∧
      p.leaves = true
  · obtain ⟨rid, p, hp, rfl, hleaves⟩ := hleaves
    rcases hclean rid p hp hleaves s hs with
      ⟨rid', hmem, hstays⟩ | hexpired | ⟨hreleased, hnone⟩
    · obtain ⟨p', hp', hsession'⟩ := PendingRequestStore.mem_collectBySession.mp hmem
      rw [hp'] at hstays
      exact Or.inr ⟨rid', p', finishTick_keeps hp' (by simpa using hstays), hsession'⟩
    · refine absurd (Or.inr (Or.inl ?_)) hopen
      have hcreated : s'.createdAt = s.createdAt := by
        rw [← hdrained]
        split <;> rfl
      rw [SessionPool.lifetimeExpired] at hexpired ⊢
      rw [hemitted.bounds.2.2, hcreated]
      exact hexpired
    · refine Or.inl (hready (hundrained fun rid' p' hp' hsession' => ?_) hreleased)
      have hmem := PendingRequestStore.mem_collectBySession.mpr ⟨p', hp', hsession'⟩
      by_contra hemits
      exact hnone rid' hmem
        (PendingRequestStore.mem_findReadyToEmit.mpr ⟨p', hp', by simpa using hemits⟩)
  · have hstays : ∀ rid p, hb.board.pending.get rid = some p → p.sessionId = sid →
        p.leaves = false := by
      intro rid p hp hsession
      by_contra h
      exact hleaves ⟨rid, p, hp, hsession, by simpa using h⟩
    have hsame : s' = s := hundrained fun rid p hp hsession =>
      (Bool.or_eq_false_iff.mp (hstays rid p hp hsession)).1
    rcases hocc hs with hreleased | ⟨rid, p, hp, hsession⟩
    · exact Or.inl (hready hsame hreleased)
    · exact Or.inr ⟨rid, p, finishTick_keeps hp (hstays rid p hp hsession), hsession⟩

/-- Messages do not resize the pool. -/
theorem handleMessage_maxSize (hwf : hb.PoolWf) (m : Message) :
    (handleMessage env hb m).board.sessionPool.maxSize = hb.board.sessionPool.maxSize := by
  rcases @step_message_cases env { hb := hb } hwf m with ⟨req, rfl, hadmits⟩ | ⟨hrecedes, -⟩
  · cases hadmits with
    | rejected heffect _ => exact congrArg SessionPool.maxSize heffect.sessionPool
    | onLocal heffect _ => exact congrArg SessionPool.maxSize heffect.sessionPool
    | onSession handle s _ heffect _ => exact heffect.maxSize
  · exact hrecedes.maxSize

/-- The states between ticks of a run that strands no session. -/
structure Unstranded (maxSize : Nat) (hb : Heartbeat) : Prop where
  between : BetweenTicks hb
  settled : hb.Settled
  maxSize_eq : hb.board.sessionPool.maxSize = maxSize

/-- A tick that strands no session settles the pool again. -/
theorem Unstranded.tick {maxSize : Nat} (h : Unstranded maxSize hb) {inp : TickInput}
    (hstrands : StrandsNone env hb inp) : Unstranded maxSize (tick env inp hb).2 := by
  have hbegin : hb.beginTick.Occupied := fun _ _ hs => (h.settled hs).imp_left Or.inl
  have hwf := h.between.poolWf.beginTick
  obtain ⟨-, hocc, hwf', hsize⟩ := hstrands.1.invariant
    (I := fun hb' => hb'.Occupied ∧ hb'.PoolWf ∧ hb'.board.sessionPool.maxSize = maxSize)
    ⟨hbegin, hwf, h.maxSize_eq⟩ (fun hb' m hI hkeeps =>
      ⟨hI.1.message hI.2.1 hkeeps, handleMessage_poolWf hI.2.1 m,
        (handleMessage_maxSize hI.2.1 m).trans hI.2.2⟩)
  exact ⟨h.between.tick inp, hocc.finish hwf' hstrands.2, finishTick_maxSize.trans hsize⟩

/-- With nothing pending, a settled pool that is not of size zero has a session to give. -/
theorem Unstranded.acquires {maxSize : Nat} (h : Unstranded maxSize hb) (hpos : 0 < maxSize)
    (hempty : hb.board.pending.size = 0) : (acquireOrCreateSession env hb).1.sessionId ≠ "" := by
  intro hfail
  obtain ⟨-, hidle, hfull⟩ := acquire_failed h.between.poolWf.wellKeyed h.between.poolWf.named
    (Prod.eta (acquireOrCreateSession env hb)).symm hfail
  have hsome : 0 < hb.board.sessionPool.sessions.keys.length := by
    have hsize := h.maxSize_eq
    unfold SessionPool.size at hfull
    omega
  obtain ⟨sid, hmem⟩ := List.exists_mem_of_length_pos hsome
  obtain ⟨s, hs⟩ := Table.mem_iff_lookup.mp (AList.mem_keys.mpr hmem)
  have hlisted := h.between.poolWf.wellKeyed.listed hs
  rcases h.settled hs with hready | ⟨rid, p, hp, -⟩
  · exact SessionPool.findIdleLeastRecentlyUsed_none hidle hlisted hs hready
  · rw [PendingRequestStore.size_eq_zero_iff.mp hempty rid] at hp
    cases hp

/-- In a run from an empty board that strands no session, whenever nothing is pending a
session can be acquired. -/
theorem pool_not_exhausted {maxSize : Nat} {idleTimeout maxLifetime : Duration}
    {inputs : List TickInput} (hpos : 0 < maxSize)
    (hstrands : Along (fun hb inp => (Heartbeat.tick env inp hb).2) (StrandsNone env)
      (start maxSize idleTimeout maxLifetime) inputs)
    (hempty : (run env (start maxSize idleTimeout maxLifetime) inputs).2.board.pending.size = 0) :
    (acquireOrCreateSession env
      (run env (start maxSize idleTimeout maxLifetime) inputs).2).1.sessionId ≠ "" := by
  have hstart : Unstranded maxSize (start maxSize idleTimeout maxLifetime) :=
    ⟨@betweenTicks_run env [] maxSize idleTimeout maxLifetime, fun _ _ hs => by
      simp [start, DataBoard.empty, SessionPool.get] at hs, rfl⟩
  rw [run_eq_foldl] at hempty ⊢
  obtain ⟨-, hend⟩ := hstrands.invariant hstart fun hb inp h hinp => h.tick hinp
  exact hend.acquires hpos hempty

/-- A request whose session connects before its client gives it up, and one whose session is
lost. -/
def releasedRun : List TickInput :=
  [{ requests := [.request { requestId := "a" }, .request { requestId := "b" }] },
   { events := [.response { sessionId := "s-0000000000000000", kind := .connected },
      .response { sessionId := "s-0000000000000001", kind := .disconnected }] },
   { requests := [.cancel { requestId := "a" }] }]

/-- After this run a session can be acquired, even from a pool of two. -/
theorem pool_not_exhausted_releasedRun :
    (acquireOrCreateSession sampleEnv
      (run sampleEnv (start 2 (seconds 60) (seconds 3600)) releasedRun).2).1.sessionId ≠ "" :=
  pool_not_exhausted (by decide) (by decide +kernel) (by decide +kernel)

/-- Sixteen requests that are given up before their sessions connect. -/
def crowdedRun : List TickInput :=
  [{ requests := (List.range 16).map fun n => .request { requestId := toString n } },
   { requests := (List.range 16).map fun n => .cancel { requestId := toString n } }]

/-- After this run nothing is pending, and no session can be acquired. -/
theorem crowdedRun_exhausted :
    (run sampleEnv (start 16 (seconds 60) (seconds 3600)) crowdedRun).2.board.pending.size = 0 ∧
      (acquireOrCreateSession sampleEnv
        (run sampleEnv (start 16 (seconds 60) (seconds 3600)) crowdedRun).2).1.sessionId = "" := by
  decide +kernel

end Heartbeat

end TtsServer
