import TtsServer.Accounting

/-!
# Upstream events and local requests

Requests of the local engine and requests bound to a session share one store. An upstream
event finds its requests by the session it names: audio goes to the request that the
session works for, which is never a local one; failures and losses go to all requests that
name the session. Local requests name the empty session, so an event without a session
identifier ends all of them.
-/

namespace TtsServer

open Lib Heartbeat

namespace History

variable {env : Env} {h h' : History} {rid : String} {p : PendingRequest} {e : TtsResponseMsg}

/-- The requests of the local engine, told apart from those bound to a session. -/
structure LocalApart (h : History) : Prop where
  routed : h.Routed
  jobs_seen : ∀ {id}, id ∈ h.jobs → id ∈ h.requestIds
  jobs_apart : ∀ {id}, id ∈ h.jobs → id ∉ h.upstream

/-- A step that admits nothing keeps the requests apart. -/
theorem LocalApart.unadmitted (hapart : h.LocalApart) (hrouted : h'.Routed)
    (hjobs : h'.jobs = h.jobs) (hupstream : h'.upstream = h.upstream)
    (hseen : ∀ id ∈ h.requestIds, id ∈ h'.requestIds) : h'.LocalApart where
  routed := hrouted
  jobs_seen := by
    intro id hid
    rw [hjobs] at hid
    exact hseen id (hapart.jobs_seen hid)
  jobs_apart := by
    intro id hid
    rw [hjobs] at hid
    rw [hupstream]
    exact hapart.jobs_apart hid

/-- A new request is put on one side only. -/
theorem LocalApart.request (hapart : h.LocalApart) {req : TtsRequestMsg}
    (hfresh : req.requestId ∉ h.requestIds) (hrouted : h'.Routed) (hadmits : Admits env req h h')
    (hids : h'.requestIds = h.requestIds ++ [req.requestId])
    (hsets : h'.changeSets = h.changeSets) : h'.LocalApart := by
  have hseen : ∀ id ∈ h.requestIds, id ∈ h'.requestIds := by
    intro id hid
    rw [hids]
    exact List.mem_append_left _ hid
  cases hadmits with
  | rejected heffect hupstream =>
    refine hapart.unadmitted hrouted ?_ hupstream hseen
    simp [jobs, emittedJobs, hsets, heffect.changeset]
  | onLocal heffect hupstream =>
    have hjobs : h'.jobs = h.jobs ++ [req.requestId] := by
      simp [jobs, emittedJobs, hsets, heffect.changeset, localJob]
    refine ⟨hrouted, fun hid => ?_, fun hid => ?_⟩
    · rw [hjobs, List.mem_append, List.mem_singleton] at hid
      rw [hids, List.mem_append, List.mem_singleton]
      exact hid.imp_left hapart.jobs_seen
    · rw [hjobs, List.mem_append, List.mem_singleton] at hid
      rw [hupstream]
      rcases hid with hid | rfl
      · exact hapart.jobs_apart hid
      · exact fun hmem => hfresh (hapart.routed.upstream_seen hmem)
  | onSession handle s hdecision heffect hupstream =>
    have hjobs : h'.jobs = h.jobs := by
      simp [jobs, emittedJobs, hsets, heffect.changeset]
    refine ⟨hrouted, fun hid => ?_, fun hid hmem => ?_⟩
    · rw [hjobs] at hid
      exact hseen _ (hapart.jobs_seen hid)
    · rw [hjobs] at hid
      rw [hupstream, List.mem_append, List.mem_singleton] at hmem
      rcases hmem with hmem | rfl
      · exact hapart.jobs_apart hid hmem
      · exact hfresh (hapart.jobs_seen hid)

/-- A message with a new request identifier, if any, keeps the requests apart. -/
theorem LocalApart.message (hapart : h.LocalApart) {m : Message} (hfresh : h.Fresh m) :
    (step env h (.message m)).LocalApart := by
  have hrouted : (step env h (.message m)).Routed := hapart.routed.message hfresh
  cases hm : m.requestId? with
  | none =>
    refine hapart.unadmitted hrouted (jobs_message hm)
      (step_message_recedes hapart.routed.poolWf hm).2 fun id hid => ?_
    rw [requestIds_message]
    exact List.mem_append_left _ hid
  | some id =>
    cases m with
    | request req =>
      exact hapart.request (hfresh req.requestId rfl) hrouted
        (step_request hapart.routed.poolWf req) (requestIds_message _) rfl
    | response rsp => cases hm
    | cancel msg => cases hm
    | localComplete c => cases hm
    | localFailed f => cases hm

/-- A moment of a run with pairwise distinct request identifiers: some ticks have ended, and some
messages of the next one have been handled. -/
def Reached (env : Env) (h : History) : Prop :=
  ∃ maxSize idleTimeout maxLifetime inputs ms,
    ((messagesOf inputs ++ ms).filterMap Message.requestId?).Nodup ∧
      h = during env (of env (start maxSize idleTimeout maxLifetime) inputs) ms

/-- In every moment the requests are apart. -/
theorem Reached.localApart (hreached : Reached env h) : h.LocalApart := by
  obtain ⟨maxSize, idleTimeout, maxLifetime, inputs, ms, hids, rfl⟩ := hreached
  refine during_invariant hids ?_ ?_ (fun _ _ hapart hfresh => hapart.message hfresh) ?_
  · refine ⟨start_routed maxSize idleTimeout maxLifetime, ?_, ?_⟩
    · intro id hid
      cases hid
    · intro id hid
      cases hid
  · intro h hapart
    exact hapart.unadmitted hapart.routed.begin rfl rfl fun _ hid => hid
  · intro h inp hapart
    refine hapart.unadmitted (hapart.routed.finish inp) (jobs_finish inp) (upstream_finish inp) ?_
    intro id hid
    rw [requestIds_finish]
    exact hid

/-- The record of a local request after an upstream event. -/
def afterEvent (e : TtsResponseMsg) (p : PendingRequest) : PendingRequest :=
  if e.sessionId = "" then
    match e.kind with
    | .taskFailed =>
      { p with state := .failed, statusCode := e.statusCode, statusMsg := e.statusMsg }
    | .disconnected => { p with state := .failed }
    | _ => p
  else p

/-- Only the failure or the loss of the empty session reaches a local request. -/
theorem LocalApart.handleResponse_get (hapart : h.LocalApart) (hrid : rid ∈ h.jobs)
    (hp : h.hb.board.pending.get rid = some p) :
    (handleResponse env e h.hb).board.pending.get rid = some (afterEvent e p) := by
  have hupstream := hapart.jobs_apart hrid
  have hsession : p.sessionId = "" := (hapart.routed.onLocal hp hupstream).1
  have hcurrent : ¬(rid = h.hb.currentOf e.sessionId ∧ rid ≠ "") := by
    rintro ⟨hrid', hne⟩
    unfold currentOf at hrid'
    cases hs : h.hb.board.sessionPool.get e.sessionId with
    | none => exact hne (by simpa [hs] using hrid')
    | some s =>
      have hcurrent := hapart.routed.current hs
      rw [hs] at hrid'
      exact hupstream (hrid' ▸ hcurrent)
  rw [handleResponse_get_pending, hp]
  unfold afterEvent
  cases e.kind with
  | audioChunk => simp [hcurrent]
  | taskFailed =>
    by_cases hempty : e.sessionId = ""
    · simp [hsession, hempty]
    · simp [hsession, hempty, Ne.symm hempty]
  | disconnected =>
    by_cases hempty : e.sessionId = ""
    · simp [hsession, hempty]
    · simp [hsession, hempty, Ne.symm hempty]
  | connected => simp
  | taskStarted => simp
  | taskFinished => simp

/-- The event reports the failure or the loss of the empty session, and this is news for the
request: it has not failed yet, or it has failed with another status. -/
def Strikes (e : TtsResponseMsg) (p : PendingRequest) : Prop :=
  e.sessionId = "" ∧
    (e.kind = .disconnected ∧ p.state ≠ .failed ∨
      e.kind = .taskFailed ∧
        ¬(p.state = .failed ∧ p.statusCode = e.statusCode ∧ p.statusMsg = e.statusMsg))

/-- Only such an event changes a record. -/
theorem afterEvent_eq_iff : afterEvent e p = p ↔ ¬Strikes e p := by
  unfold afterEvent Strikes
  by_cases hempty : e.sessionId = ""
  · cases hkind : e.kind with
    | disconnected =>
      cases p
      simp [hempty, eq_comm]
    | taskFailed =>
      cases p
      simp [hempty, eq_comm]
    | audioChunk => simp
    | connected => simp
    | taskStarted => simp
    | taskFinished => simp
  · simp [hempty]

/-- In every moment of a run with pairwise distinct request identifiers, an upstream event leaves
the pending requests of the local engine unchanged exactly if it strikes none of them. -/
theorem upstream_events_spare_local_iff (hreached : Reached env h) (e : TtsResponseMsg) :
    (∀ rid ∈ h.jobs, (handleResponse env e h.hb).board.pending.get rid =
      h.hb.board.pending.get rid) ↔
      ∀ rid ∈ h.jobs, ∀ p, h.hb.board.pending.get rid = some p → ¬Strikes e p := by
  have hapart := hreached.localApart
  refine forall₂_congr fun rid hrid => ?_
  cases hget : h.hb.board.pending.get rid with
  | none =>
    have hnone : (handleResponse env e h.hb).board.pending.get rid = none := by
      have hsession := @handleResponse_pending_sessionId env h.hb rid e
      rw [hget] at hsession
      simpa using hsession
    simp [hnone]
  | some p =>
    rw [hapart.handleResponse_get hrid hget, Option.some.injEq, afterEvent_eq_iff]
    constructor
    · rintro hspared p' hp'
      obtain rfl := Option.some.inj hp'
      exact hspared
    · intro hspared
      exact hspared p rfl

/-- A heartbeat with a local engine that has just been given a request. -/
def localRequest : History :=
  during sampleLocalEnv (of sampleLocalEnv (start 16 60 3600) [])
    [.request { requestId := "strm-1" }]

/-- The loss of a named session leaves the local request alone. -/
theorem upstream_events_spare_local_lost :
    Reached sampleLocalEnv localRequest ∧ localRequest.jobs = ["strm-1"] ∧
      (handleResponse sampleLocalEnv { sessionId := "s-1", kind := .disconnected }
        localRequest.hb).board.pending.get "strm-1" =
          localRequest.hb.board.pending.get "strm-1" := by
  have hreached : Reached sampleLocalEnv localRequest :=
    ⟨16, 60, 3600, [], [.request { requestId := "strm-1" }], by decide, rfl⟩
  have hjobs : localRequest.jobs = ["strm-1"] := rfl
  refine ⟨hreached, hjobs, (upstream_events_spare_local_iff hreached _).mpr ?_ "strm-1" ?_⟩
  · rintro rid - p - ⟨hempty, -⟩
    exact absurd hempty (by decide)
  · rw [hjobs]
    exact List.mem_singleton.mpr rfl

/-- The loss of a connection that has no session identifier fails the local request. -/
theorem unnamed_loss_fails_local :
    Reached sampleLocalEnv localRequest ∧ localRequest.jobs = ["strm-1"] ∧
      (localRequest.hb.board.pending.get "strm-1").map (·.state) = some .streaming ∧
      ((handleResponse sampleLocalEnv { sessionId := "", kind := .disconnected }
        localRequest.hb).board.pending.get "strm-1").map (·.state) = some .failed :=
  ⟨⟨16, 60, 3600, [], [.request { requestId := "strm-1" }], by decide, rfl⟩, rfl, by decide +kernel,
    by decide +kernel⟩

end History

end TtsServer
