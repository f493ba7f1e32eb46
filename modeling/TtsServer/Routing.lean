import TtsServer.History

/-!
# How requests are routed

Every small step either handles a request or only takes things away: sessions and
requests disappear, requests end, and chunks are appended to the current requests
of sessions. From this follows, for runs with pairwise distinct request
identifiers, which requests an upstream session can reach: a session works for
requests that were bound to it, such a request waits for its session until it
ends, and a request of the local engine never receives a chunk. In particular the
emission pass finds nothing.
-/

namespace TtsServer

open Lib Heartbeat

/-- What the pool of every reachable state satisfies. -/
structure Heartbeat.PoolWf (hb : Heartbeat) : Prop where
  wellKeyed : hb.board.sessionPool.WellKeyed
  named : ∀ {sid s}, hb.board.sessionPool.get sid = some s → sid ≠ ""

/-- A step that leaves the pool alone leaves it well formed. -/
theorem Heartbeat.PoolWf.of_eq {hb hb' : Heartbeat} (hwf : hb.PoolWf)
    (hpool : hb'.board.sessionPool = hb.board.sessionPool) : hb'.PoolWf where
  wellKeyed := hpool ▸ hwf.wellKeyed
  named := fun hs => hwf.named (hpool ▸ hs)

/-- A step that only takes away: sessions and requests disappear or keep their bindings,
a request ends or keeps its state, and only current requests of sessions receive chunks. -/
structure Heartbeat.Recedes (hb hb' : Heartbeat) : Prop where
  session : ∀ {sid s'}, hb'.board.sessionPool.get sid = some s' →
    ∃ s, hb.board.sessionPool.get sid = some s ∧ s'.currentRequestId = s.currentRequestId
  pending : ∀ {rid p'}, hb'.board.pending.get rid = some p' →
    ∃ p, hb.board.pending.get rid = some p ∧ p'.sessionId = p.sessionId ∧
      (p'.state = p.state ∨ p'.state.terminal = true) ∧
      (p'.finalReceived = p.finalReceived ∨
        ∃ sid s, hb.board.sessionPool.get sid = some s ∧ s.currentRequestId = rid)
  wellKeyed : hb'.board.sessionPool.WellKeyed
  maxSize : hb'.board.sessionPool.maxSize = hb.board.sessionPool.maxSize
  queued : hb'.board.metrics.queued = hb.board.metrics.queued

section Recedes

variable {env : Env} {hb : Heartbeat}

/-- The start of a tick takes nothing away. -/
theorem beginTick_recedes (hpool : hb.board.sessionPool.WellKeyed) : Recedes hb hb.beginTick where
  session := fun {_ s'} hs => ⟨s', hs, rfl⟩
  pending := fun {_ p'} hp => ⟨p', hp, rfl, Or.inl rfl, Or.inl rfl⟩
  wellKeyed := hpool
  maxSize := rfl
  queued := rfl

/-- An upstream event only takes away. -/
theorem handleResponse_recedes (hpool : hb.board.sessionPool.WellKeyed) (rsp : TtsResponseMsg) :
    Recedes hb (handleResponse env rsp hb) where
  session := by
    intro sid s' hs
    rw [handleResponse_get_session] at hs
    split at hs
    · split at hs
      · obtain ⟨s, hget, rfl⟩ := Option.map_eq_some_iff.mp hs
        exact ⟨s, hget, rfl⟩
      · exact ⟨s', hs, rfl⟩
    · split at hs
      · obtain ⟨s, hget, rfl⟩ := Option.map_eq_some_iff.mp hs
        exact ⟨s, hget, rfl⟩
      · exact ⟨s', hs, rfl⟩
    · split at hs
      · cases hs
      · exact ⟨s', hs, rfl⟩
    · exact ⟨s', hs, rfl⟩
  pending := by
    intro rid p' hp
    rw [handleResponse_get_pending] at hp
    split at hp
    · split at hp
      · rename_i hcurrent
        obtain ⟨p, hget, rfl⟩ := Option.map_eq_some_iff.mp hp
        refine ⟨p, hget, rfl, Or.inl rfl, Or.inr ?_⟩
        obtain ⟨hrid, hne⟩ := hcurrent
        unfold currentOf at hrid
        cases hs : hb.board.sessionPool.get rsp.sessionId with
        | none => simp [hs, hne] at hrid
        | some s => exact ⟨rsp.sessionId, s, hs, by simp [hrid, hs]⟩
      · exact ⟨p', hp, rfl, Or.inl rfl, Or.inl rfl⟩
    · obtain ⟨p, hget, rfl⟩ := Option.map_eq_some_iff.mp hp
      refine ⟨p, hget, ?_⟩
      split
      · exact ⟨rfl, Or.inr rfl, Or.inl rfl⟩
      · exact ⟨rfl, Or.inl rfl, Or.inl rfl⟩
    · obtain ⟨p, hget, rfl⟩ := Option.map_eq_some_iff.mp hp
      refine ⟨p, hget, ?_⟩
      split
      · exact ⟨rfl, Or.inr rfl, Or.inl rfl⟩
      · exact ⟨rfl, Or.inl rfl, Or.inl rfl⟩
    · exact ⟨p', hp, rfl, Or.inl rfl, Or.inl rfl⟩
  wellKeyed := handleResponse_wellKeyed hpool
  maxSize := handleResponse_quiet.maxSize
  queued := handleResponse_quiet.queued

/-- A cancellation only ends a request. -/
theorem handleCancel_recedes (hpool : hb.board.sessionPool.WellKeyed) (msg : CancelRequestMsg) :
    Recedes hb (handleCancel msg hb) where
  session := fun {_ s'} hs => ⟨s', hs, rfl⟩
  pending := by
    intro rid p' hp
    rw [handleCancel_get_pending] at hp
    split at hp
    · obtain ⟨p, hget, rfl⟩ := Option.map_eq_some_iff.mp hp
      exact ⟨p, hget, rfl, Or.inr rfl, Or.inl rfl⟩
    · exact ⟨p', hp, rfl, Or.inl rfl, Or.inl rfl⟩
  wellKeyed := hpool
  maxSize := rfl
  queued := rfl

/-- An answer of the local engine removes at most one request. -/
theorem Heartbeat.Answered.recedes {id : String} {w : WriteToClient} {hb' : Heartbeat}
    (h : Answered id w hb hb') (hpool : hb.board.sessionPool.WellKeyed) : Recedes hb hb' where
  session := fun {_ s'} hs => ⟨s', h.sessionPool ▸ hs, rfl⟩
  pending := by
    intro rid p' hp
    rw [h.pending, PendingRequestStore.get_remove] at hp
    split at hp
    · cases hp
    · exact ⟨p', hp, rfl, Or.inl rfl, Or.inl rfl⟩
  wellKeyed := h.sessionPool ▸ hpool
  maxSize := congrArg SessionPool.maxSize h.sessionPool
  queued := h.queued

/-- The end of a tick only takes away. -/
theorem finishTick_recedes (hpool : hb.board.sessionPool.WellKeyed) (inp : TickInput) :
    Recedes hb (finishTick inp hb).2 where
  session := by
    intro sid s' hs
    rw [finishTick_get_session hpool, emitReady_emitted.session] at hs
    obtain ⟨s, hget, rfl⟩ := Option.map_eq_some_iff.mp hs.1
    refine ⟨s, hget, ?_⟩
    split <;> rfl
  pending := fun {_ p'} hp =>
    ⟨p', (finishTick_get_pending.mp hp).1, rfl, Or.inl rfl, Or.inl rfl⟩
  wellKeyed := finishTick_wellKeyed hpool
  maxSize := finishTick_maxSize
  queued := finishTick_queued

/-- A step that takes away keeps the pool well formed. -/
theorem Heartbeat.Recedes.poolWf {hb' : Heartbeat} (h : Recedes hb hb') (hwf : hb.PoolWf) :
    hb'.PoolWf where
  wellKeyed := h.wellKeyed
  named := fun hs => by
    obtain ⟨s, hget, -⟩ := h.session hs
    exact hwf.named hget

/-- The start of a tick keeps the pool well formed. -/
theorem Heartbeat.PoolWf.beginTick (hwf : hb.PoolWf) : hb.beginTick.PoolWf :=
  (beginTick_recedes hwf.wellKeyed).poolWf hwf

/-- The end of a tick keeps the pool well formed. -/
theorem Heartbeat.PoolWf.finishTick (hwf : hb.PoolWf) (inp : TickInput) :
    (finishTick inp hb).2.PoolWf :=
  (finishTick_recedes hwf.wellKeyed inp).poolWf hwf

end Recedes

namespace History

variable {env : Env} {h : History} {hb : Heartbeat} {inputs : List TickInput}

/-- What a request does to the state and to the list of bound requests. -/
inductive Admits (env : Env) (req : TtsRequestMsg) (h h' : History) : Prop where
  | rejected (heffect : Rejected h.hb h'.hb) (hupstream : h'.upstream = h.upstream)
  | onLocal (heffect : OnLocal env req h.hb h'.hb) (hupstream : h'.upstream = h.upstream)
  | onSession (handle : SessionHandle) (s : SessionRecord)
      (hdecision : admission env req h.hb = .onSession handle)
      (heffect : OnSession env req handle s h.hb h'.hb)
      (hupstream : h'.upstream = h.upstream ++ [req.requestId])

/-- A small step that handles a request admits or rejects it. -/
theorem step_request (hwf : h.hb.PoolWf) (req : TtsRequestMsg) :
    Admits env req h (step env h (.message (.request req))) := by
  rcases @handleRequest_effect env h.hb req hwf.wellKeyed hwf.named with
    ⟨hdecision, heffect⟩ | ⟨hdecision, heffect⟩ | ⟨handle, s, hdecision, heffect⟩
  · refine .rejected heffect ?_
    rcases hdecision with hdecision | hdecision <;> simp [step, bindings, hdecision]
  · exact .onLocal heffect (by simp [step, bindings, hdecision])
  · exact .onSession handle s hdecision heffect (by simp [step, bindings, hdecision])

/-- Every other message only takes away. -/
theorem step_message_recedes (hwf : h.hb.PoolWf) {m : Message} (hm : m.requestId? = none) :
    Recedes h.hb (step env h (.message m)).hb ∧
      (step env h (.message m)).upstream = h.upstream := by
  cases m with
  | request req => cases hm
  | response rsp => exact ⟨handleResponse_recedes hwf.wellKeyed rsp, List.append_nil _⟩
  | cancel msg => exact ⟨handleCancel_recedes hwf.wellKeyed msg, List.append_nil _⟩
  | localComplete c =>
    have hanswer := (@answer_effect env h.hb (.localComplete c) _ rfl).2
    exact ⟨hanswer.recedes hwf.wellKeyed, List.append_nil _⟩
  | localFailed f =>
    have hanswer := (@answer_effect env h.hb (.localFailed f) _ rfl).2
    exact ⟨hanswer.recedes hwf.wellKeyed, List.append_nil _⟩

/-- A message is a request, which is admitted or rejected, or it only takes away. -/
theorem step_message_cases (hwf : h.hb.PoolWf) (m : Message) :
    (∃ req, m = .request req ∧ Admits env req h (step env h (.message m))) ∨
      (Recedes h.hb (step env h (.message m)).hb ∧
        (step env h (.message m)).upstream = h.upstream) := by
  cases hm : m.requestId? with
  | none => exact Or.inr (step_message_recedes hwf hm)
  | some id =>
    obtain ⟨req, rfl, -⟩ := Message.requestId?_eq_some.mp hm
    exact Or.inl ⟨req, rfl, step_request hwf req⟩

/-- The pool stays well formed when a request is handled. -/
theorem Admits.poolWf {req : TtsRequestMsg} {h' : History} (hadmits : Admits env req h h')
    (hwf : h.hb.PoolWf) : h'.hb.PoolWf := by
  cases hadmits with
  | rejected heffect _ => exact hwf.of_eq heffect.sessionPool
  | onLocal heffect _ => exact hwf.of_eq heffect.sessionPool
  | onSession handle s _ heffect _ =>
    refine ⟨heffect.wellKeyed, fun {sid s'} hs => ?_⟩
    rw [heffect.session] at hs
    split at hs
    · rename_i heq
      rw [heq]
      exact heffect.named
    · exact hwf.named hs

/-- Every step keeps the pool well formed. -/
theorem step_poolWf (hwf : h.hb.PoolWf) (l : Step) : (step env h l).hb.PoolWf := by
  cases l with
  | begin => exact hwf.beginTick
  | finish inp => exact hwf.finishTick inp
  | message m =>
    rcases @step_message_cases env h hwf m with ⟨req, rfl, hadmits⟩ | ⟨hrecedes, -⟩
    · exact hadmits.poolWf hwf
    · exact hrecedes.poolWf hwf

/-- Handling a message keeps the pool well formed. -/
theorem handleMessage_poolWf (hwf : hb.PoolWf) (m : Message) : (handleMessage env hb m).PoolWf :=
  @step_poolWf env { hb := hb } hwf (.message m)

/-- Handling a batch keeps the pool well formed. -/
theorem foldl_handleMessage_poolWf (hwf : hb.PoolWf) (ms : List Message) :
    (ms.foldl (handleMessage env) hb).PoolWf :=
  List.foldlRecOn ms _ hwf fun _ hwf' m _ => handleMessage_poolWf hwf' m

/-- A message that ends a pending request without answering it: its client gives up, or its
session fails or is lost. -/
def EndsBy (m : Message) (rid : String) (p : PendingRequest) : Prop :=
  m.cancelId? = some rid ∨
    ∃ rsp, m = .response rsp ∧ (rsp.kind = .taskFailed ∨ rsp.kind = .disconnected) ∧
      p.sessionId = rsp.sessionId

instance (rid : String) (p : PendingRequest) : ∀ m, Decidable (EndsBy m rid p)
  | .response rsp => decidable_of_iff
      ((rsp.kind = .taskFailed ∨ rsp.kind = .disconnected) ∧ p.sessionId = rsp.sessionId)
      (by simp [EndsBy, Message.cancelId?])
  | .cancel msg => decidable_of_iff (msg.requestId = rid) (by simp [EndsBy, Message.cancelId?])
  | .request _ => .isFalse (by simp [EndsBy, Message.cancelId?])
  | .localComplete _ => .isFalse (by simp [EndsBy, Message.cancelId?])
  | .localFailed _ => .isFalse (by simp [EndsBy, Message.cancelId?])

/-- A pending request survives every message that neither requests it again nor answers it,
and keeps its state unless the message ends it. -/
theorem step_pending_kept (hwf : h.hb.PoolWf) {m : Message} {rid : String} {p : PendingRequest}
    (hp : h.hb.board.pending.get rid = some p) (hrequest : m.requestId? ≠ some rid)
    (hanswer : m.answerId? ≠ some rid) :
    ∃ p', (step env h (.message m)).hb.board.pending.get rid = some p' ∧
      p'.sessionId = p.sessionId ∧ (¬EndsBy m rid p → p'.state = p.state) := by
  cases m with
  | request req =>
    have hne : rid ≠ req.requestId := fun heq => hrequest (heq ▸ rfl)
    refine ⟨p, ?_, rfl, fun _ => rfl⟩
    cases @step_request env h hwf req with
    | rejected heffect _ => rw [heffect.pending, hp]
    | onLocal heffect _ => rw [heffect.others hne, hp]
    | onSession handle s _ heffect _ => rw [heffect.others hne, hp]
  | response rsp =>
    have hget := @handleResponse_get_pending env h.hb rid rsp
    rw [hp] at hget
    simp only [step, handleMessage]
    rw [hget]
    cases hkind : rsp.kind with
    | audioChunk =>
      simp only
      split
      · exact ⟨_, rfl, rfl, fun _ => rfl⟩
      · exact ⟨p, rfl, rfl, fun _ => rfl⟩
    | taskFailed =>
      by_cases hsession : p.sessionId = rsp.sessionId
      · exact ⟨_, rfl, by simp [hsession],
          fun h => absurd (Or.inr ⟨rsp, rfl, Or.inl hkind, hsession⟩) h⟩
      · exact ⟨p, by simp [hsession], rfl, fun _ => rfl⟩
    | disconnected =>
      by_cases hsession : p.sessionId = rsp.sessionId
      · exact ⟨_, rfl, by simp [hsession],
          fun h => absurd (Or.inr ⟨rsp, rfl, Or.inr hkind, hsession⟩) h⟩
      · exact ⟨p, by simp [hsession], rfl, fun _ => rfl⟩
    | connected => exact ⟨p, rfl, rfl, fun _ => rfl⟩
    | taskStarted => exact ⟨p, rfl, rfl, fun _ => rfl⟩
    | taskFinished => exact ⟨p, rfl, rfl, fun _ => rfl⟩
  | cancel msg =>
    simp only [step, handleMessage]
    rw [handleCancel_get_pending, hp]
    by_cases heq : rid = msg.requestId
    · exact ⟨_, if_pos heq, rfl, fun h => absurd (Or.inl (heq ▸ rfl)) h⟩
    · exact ⟨p, if_neg heq, rfl, fun _ => rfl⟩
  | localComplete c =>
    have hne : rid ≠ c.requestId := fun heq => hanswer (heq ▸ rfl)
    refine ⟨p, ?_, rfl, fun _ => rfl⟩
    simp [step, handleMessage, handleLocalComplete, hne, hp]
  | localFailed f =>
    have hne : rid ≠ f.requestId := fun heq => hanswer (heq ▸ rfl)
    refine ⟨p, ?_, rfl, fun _ => rfl⟩
    simp [step, handleMessage, handleLocalFailed, hne, hp]

/-- Only answers of the local engine make a handler write to a client. -/
theorem step_clientWrites (m : Message) :
    (step env h (.message m)).hb.changeset.clientWrites =
      h.hb.changeset.clientWrites ++ (answerWrite m).toList :=
  handleMessage_clientWrites m

/-- Messages order no session closed. -/
theorem closeSessions_message (hwf : h.hb.PoolWf) (m : Message) :
    (step env h (.message m)).hb.changeset.closeSessions = h.hb.changeset.closeSessions := by
  cases m with
  | request req =>
    cases @step_request env h hwf req with
    | rejected heffect _ => rw [heffect.changeset]
    | onLocal heffect _ => rw [heffect.changeset]
    | onSession handle s _ heffect _ => rw [heffect.changeset]
  | response rsp =>
    have hquiet : Quiet h.hb (step env h (.message (.response rsp))).hb := handleResponse_quiet
    rw [hquiet.changeset]
  | cancel msg => rfl
  | localComplete c => rfl
  | localFailed f => rfl

/-- A batch orders no session closed. -/
theorem foldl_handleMessage_closeSessions (hwf : hb.PoolWf) (ms : List Message) :
    (ms.foldl (handleMessage env) hb).changeset.closeSessions = hb.changeset.closeSessions := by
  induction ms generalizing hb with
  | nil => rfl
  | cons m ms ih =>
    rw [List.foldl_cons, ih (handleMessage_poolWf hwf m)]
    exact @closeSessions_message env { hb := hb } hwf m

/-- An empty board has a well formed pool. -/
theorem start_poolWf (maxSize : Nat) (idleTimeout maxLifetime : Duration) :
    (start maxSize idleTimeout maxLifetime).PoolWf :=
  ⟨SessionPool.WellKeyed.empty _ _ _, fun hs => by
    simp [start, DataBoard.empty, SessionPool.get] at hs⟩

/-- What holds between ticks of every run. -/
structure BetweenTicks (hb : Heartbeat) : Prop where
  poolWf : hb.PoolWf
  collector : hb.changeset = {}
  /-- Failed and cancelled requests have been swept. -/
  alive : ∀ {rid p}, hb.board.pending.get rid = some p → p.state.terminal = false

/-- A tick leads from a state between ticks to the next one. -/
theorem BetweenTicks.tick (hbetween : BetweenTicks hb) (inp : TickInput) :
    BetweenTicks (tick env inp hb).2 where
  poolWf := (foldl_handleMessage_poolWf hbetween.poolWf.beginTick inp.batch).finishTick inp
  collector := rfl
  alive := fun hp => (finishTick_get_pending.mp hp).2.2

/-- A new heartbeat is between ticks. -/
theorem start_betweenTicks (maxSize : Nat) (idleTimeout maxLifetime : Duration) :
    BetweenTicks (start maxSize idleTimeout maxLifetime) :=
  ⟨start_poolWf maxSize idleTimeout maxLifetime, rfl, fun hp => by
    simp [start, DataBoard.empty, PendingRequestStore.get] at hp⟩

/-- Every run from an empty board ends between ticks. -/
theorem betweenTicks_run (maxSize : Nat) (idleTimeout maxLifetime : Duration) :
    BetweenTicks (run env (start maxSize idleTimeout maxLifetime) inputs).2 := by
  have hstart := start_betweenTicks maxSize idleTimeout maxLifetime
  rw [run_eq_foldl]
  generalize start maxSize idleTimeout maxLifetime = hb at hstart ⊢
  induction inputs generalizing hb with
  | nil => exact hstart
  | cons inp inputs ih =>
    rw [List.foldl_cons]
    exact ih _ (hstart.tick inp)

/-- The routing of requests, when request identifiers are pairwise distinct. -/
structure Routed (h : History) : Prop where
  poolWf : h.hb.PoolWf
  /-- Pending requests have been seen. -/
  seen : ∀ {rid p}, h.hb.board.pending.get rid = some p → rid ∈ h.requestIds
  /-- Bound requests have been seen. -/
  upstream_seen : ∀ {rid}, rid ∈ h.upstream → rid ∈ h.requestIds
  /-- A session works for a request that was bound to a session. -/
  current : ∀ {sid s}, h.hb.board.sessionPool.get sid = some s →
    s.currentRequestId ∈ h.upstream
  /-- While that request is pending, it names the session. -/
  bound : ∀ {sid s p}, h.hb.board.sessionPool.get sid = some s →
    h.hb.board.pending.get s.currentRequestId = some p → p.sessionId = sid
  /-- A bound request names a session and waits for it until it ends. -/
  onSession : ∀ {rid p}, h.hb.board.pending.get rid = some p → rid ∈ h.upstream →
    p.sessionId ≠ "" ∧ (p.state = .awaitingSession ∨ p.state.terminal = true)
  /-- A request of the local engine names no session and receives no chunk. -/
  onLocal : ∀ {rid p}, h.hb.board.pending.get rid = some p → rid ∉ h.upstream →
    p.sessionId = "" ∧ p.finalReceived = false

/-- A step that takes away keeps the routing. -/
theorem Routed.recedes {h' : History} (hrouted : h.Routed) (hstep : Recedes h.hb h'.hb)
    (hupstream : h'.upstream = h.upstream) (hseen : ∀ rid ∈ h.requestIds, rid ∈ h'.requestIds) :
    h'.Routed where
  poolWf := hstep.poolWf hrouted.poolWf
  seen := by
    intro rid p' hp'
    obtain ⟨p, hp, -⟩ := hstep.pending hp'
    exact hseen rid (hrouted.seen hp)
  upstream_seen := by
    intro rid hrid
    rw [hupstream] at hrid
    exact hseen rid (hrouted.upstream_seen hrid)
  current := by
    intro sid s' hs'
    obtain ⟨s, hs, hcurrent⟩ := hstep.session hs'
    rw [hupstream, hcurrent]
    exact hrouted.current hs
  bound := by
    intro sid s' p' hs' hp'
    obtain ⟨s, hs, hcurrent⟩ := hstep.session hs'
    obtain ⟨p, hp, hsession, -⟩ := hstep.pending hp'
    rw [hcurrent] at hp
    rw [hsession]
    exact hrouted.bound hs hp
  onSession := by
    intro rid p' hp' hrid
    rw [hupstream] at hrid
    obtain ⟨p, hp, hsession, hstate, -⟩ := hstep.pending hp'
    obtain ⟨hne, hwaits⟩ := hrouted.onSession hp hrid
    rw [hsession]
    refine ⟨hne, ?_⟩
    rcases hstate with heq | hterminal
    · rw [heq]
      exact hwaits
    · exact Or.inr hterminal
  onLocal := by
    intro rid p' hp' hrid
    rw [hupstream] at hrid
    obtain ⟨p, hp, hsession, -, hfinal⟩ := hstep.pending hp'
    obtain ⟨hempty, hnone⟩ := hrouted.onLocal hp hrid
    rw [hsession]
    refine ⟨hempty, ?_⟩
    rcases hfinal with heq | ⟨sid, s, hs, rfl⟩
    · rw [heq]
      exact hnone
    · exact absurd (hrouted.current hs) hrid

/-- A new request is not pending. -/
theorem Routed.get_fresh (hrouted : h.Routed) {rid : String} (hfresh : rid ∉ h.requestIds) :
    h.hb.board.pending.get rid = none := by
  cases hget : h.hb.board.pending.get rid with
  | none => rfl
  | some p => exact absurd (hrouted.seen hget) hfresh

/-- A request with a new identifier that changes no session keeps the routing. -/
private theorem Routed.local_request {h' : History} {req : TtsRequestMsg} (hrouted : h.Routed)
    (hpool : h'.hb.board.sessionPool = h.hb.board.sessionPool)
    (hupstream : h'.upstream = h.upstream)
    (hids : h'.requestIds = h.requestIds ++ [req.requestId])
    (hfresh : req.requestId ∉ h.requestIds)
    (hself : ∀ {p}, h'.hb.board.pending.get req.requestId = some p →
      p.sessionId = "" ∧ p.finalReceived = false)
    (hothers : ∀ {rid}, rid ≠ req.requestId →
      h'.hb.board.pending.get rid = h.hb.board.pending.get rid) : h'.Routed where
  poolWf := by
    refine ⟨hpool ▸ hrouted.poolWf.wellKeyed, fun hs => ?_⟩
    rw [hpool] at hs
    exact hrouted.poolWf.named hs
  seen := by
    intro rid p hp
    rw [hids, List.mem_append, List.mem_singleton]
    by_cases heq : rid = req.requestId
    · exact Or.inr heq
    · rw [hothers heq] at hp
      exact Or.inl (hrouted.seen hp)
  upstream_seen := by
    intro rid hrid
    rw [hupstream] at hrid
    rw [hids]
    exact List.mem_append_left _ (hrouted.upstream_seen hrid)
  current := by
    intro sid s hs
    rw [hpool] at hs
    rw [hupstream]
    exact hrouted.current hs
  bound := by
    intro sid s p hs hp
    rw [hpool] at hs
    have hne : s.currentRequestId ≠ req.requestId := fun heq =>
      hfresh (heq ▸ hrouted.upstream_seen (hrouted.current hs))
    rw [hothers hne] at hp
    exact hrouted.bound hs hp
  onSession := by
    intro rid p hp hrid
    rw [hupstream] at hrid
    have hne : rid ≠ req.requestId := fun heq => hfresh (heq ▸ hrouted.upstream_seen hrid)
    rw [hothers hne] at hp
    exact hrouted.onSession hp hrid
  onLocal := by
    intro rid p hp hrid
    rw [hupstream] at hrid
    by_cases heq : rid = req.requestId
    · subst heq
      exact hself hp
    · rw [hothers heq] at hp
      exact hrouted.onLocal hp hrid

/-- Binding a request with a new identifier to a session keeps the routing. -/
private theorem Routed.session_request {h' : History} {req : TtsRequestMsg}
    {handle : SessionHandle} {s : SessionRecord} (hrouted : h.Routed)
    (heffect : OnSession env req handle s h.hb h'.hb)
    (hupstream : h'.upstream = h.upstream ++ [req.requestId])
    (hids : h'.requestIds = h.requestIds ++ [req.requestId])
    (hfresh : req.requestId ∉ h.requestIds) (hwf : h'.hb.PoolWf) : h'.Routed where
  poolWf := hwf
  seen := by
    intro rid p hp
    rw [hids, List.mem_append, List.mem_singleton]
    by_cases heq : rid = req.requestId
    · exact Or.inr heq
    · rw [heffect.others heq] at hp
      exact Or.inl (hrouted.seen hp)
  upstream_seen := by
    intro rid hrid
    rw [hupstream, List.mem_append] at hrid
    rw [hids, List.mem_append]
    exact hrid.imp_left hrouted.upstream_seen
  current := by
    intro sid s' hs'
    rw [hupstream, List.mem_append, List.mem_singleton]
    rw [heffect.session] at hs'
    split at hs'
    · obtain rfl := Option.some.inj hs'
      exact Or.inr rfl
    · exact Or.inl (hrouted.current hs')
  bound := by
    intro sid s' p hs' hp
    rw [heffect.session] at hs'
    split at hs'
    · rename_i hsid
      obtain rfl := Option.some.inj hs'
      obtain ⟨t, hrecord⟩ := heffect.record
      obtain rfl := Option.some.inj (hrecord.symm.trans hp)
      exact hsid.symm
    · have hne : s'.currentRequestId ≠ req.requestId := fun heq =>
        hfresh (heq ▸ hrouted.upstream_seen (hrouted.current hs'))
      rw [heffect.others hne] at hp
      exact hrouted.bound hs' hp
  onSession := by
    intro rid p hp hrid
    by_cases heq : rid = req.requestId
    · subst heq
      obtain ⟨t, hrecord⟩ := heffect.record
      obtain rfl := Option.some.inj (hrecord.symm.trans hp)
      exact ⟨heffect.named, Or.inl rfl⟩
    · rw [heffect.others heq] at hp
      rw [hupstream, List.mem_append, List.mem_singleton] at hrid
      exact hrouted.onSession hp (hrid.resolve_right heq)
  onLocal := by
    intro rid p hp hrid
    rw [hupstream, List.mem_append, List.mem_singleton, not_or] at hrid
    rw [heffect.others hrid.2] at hp
    exact hrouted.onLocal hp hrid.1

/-- Handling a request with a new identifier keeps the routing. -/
theorem Routed.admits {h' : History} {req : TtsRequestMsg} (hrouted : h.Routed)
    (hadmits : Admits env req h h') (hids : h'.requestIds = h.requestIds ++ [req.requestId])
    (hfresh : req.requestId ∉ h.requestIds) : h'.Routed := by
  have hnone := hrouted.get_fresh hfresh
  cases hadmits with
  | rejected heffect hupstream =>
    refine hrouted.local_request heffect.sessionPool hupstream hids hfresh ?_ ?_
    · intro p hp
      rw [heffect.pending, hnone] at hp
      cases hp
    · intro rid _
      rw [heffect.pending]
  | onLocal heffect hupstream =>
    refine hrouted.local_request heffect.sessionPool hupstream hids hfresh ?_ heffect.others
    intro p hp
    obtain ⟨p', hp', -, hrecord⟩ := heffect.record
    obtain rfl := Option.some.inj (hp'.symm.trans hp)
    rw [hnone] at hrecord
    exact hrecord
  | onSession handle s hdecision heffect hupstream =>
    have hwf := (Admits.onSession handle s hdecision heffect hupstream).poolWf hrouted.poolWf
    exact hrouted.session_request heffect hupstream hids hfresh hwf

/-- The messages of a run bring request identifiers that have not been seen. -/
def Fresh (h : History) (m : Message) : Prop :=
  ∀ id, m.requestId? = some id → id ∉ h.requestIds

/-- Handling a message with a new request identifier, if any, keeps the routing. -/
theorem Routed.message (hrouted : h.Routed) {m : Message} (hfresh : h.Fresh m) :
    (step env h (.message m)).Routed := by
  rcases @step_message_cases env h hrouted.poolWf m with ⟨req, rfl, hadmits⟩ | ⟨hstep, hupstream⟩
  · exact hrouted.admits hadmits (requestIds_message _) (hfresh req.requestId rfl)
  · refine hrouted.recedes hstep hupstream fun rid hrid => ?_
    rw [requestIds_message]
    exact List.mem_append_left _ hrid

/-- Runs from an empty board start routed. -/
theorem start_routed (maxSize : Nat) (idleTimeout maxLifetime : Duration) :
    Routed { hb := start maxSize idleTimeout maxLifetime } where
  poolWf := start_poolWf maxSize idleTimeout maxLifetime
  seen := fun hp => by simp [start, DataBoard.empty, PendingRequestStore.get] at hp
  upstream_seen := fun hrid => by cases hrid
  current := fun hs => by simp [start, DataBoard.empty, SessionPool.get] at hs
  bound := fun hs => by simp [start, DataBoard.empty, SessionPool.get] at hs
  onSession := fun hp => by simp [start, DataBoard.empty, PendingRequestStore.get] at hp
  onLocal := fun hp => by simp [start, DataBoard.empty, PendingRequestStore.get] at hp

/-- The start of a tick keeps the routing. -/
theorem Routed.begin (hrouted : h.Routed) : (step env h .begin).Routed :=
  hrouted.recedes (beginTick_recedes hrouted.poolWf.wellKeyed) rfl fun _ hrid => hrid

/-- The end of a tick keeps the routing. -/
theorem Routed.finish (hrouted : h.Routed) (inp : TickInput) :
    (step env h (.finish inp)).Routed := by
  have hrecedes := finishTick_recedes hrouted.poolWf.wellKeyed inp
  refine hrouted.recedes hrecedes (upstream_finish inp) fun rid hrid => ?_
  rw [requestIds_finish]
  exact hrid

/-- The history inside a tick, after some messages of its batch. -/
def during (env : Env) (h : History) (ms : List Message) : History :=
  (ms.map Step.message).foldl (step env) (step env h .begin)

/-- The induction rule for the moments inside a tick of a run with pairwise distinct request
identifiers. -/
theorem during_invariant {I : History → Prop} {hb : Heartbeat} {ms : List Message}
    (hids : ((messagesOf inputs ++ ms).filterMap Message.requestId?).Nodup)
    (hstart : I { hb := hb }) (hbegin : ∀ h, I h → I (step env h .begin))
    (hmessage : ∀ h m, I h → h.Fresh m → I (step env h (.message m)))
    (hfinish : ∀ h inp, I h → I (step env h (.finish inp))) :
    I (during env (of env hb inputs) ms) := by
  -- The moment lies on the run with one more tick that has these messages as its batch.
  have hrun := @handles_fresh env hb (inputs ++ [{ requests := ms }]) _ Message.requestId? (by
    simpa [messagesOf, TickInput.batch] using hids)
  have hsteps : stepsOf (inputs ++ [{ requests := ms }]) =
      (stepsOf inputs ++ .begin :: ms.map .message) ++ [.finish { requests := ms }] := by
    simp [stepsOf, TickInput.steps, TickInput.batch]
  unfold Handles at hrun
  rw [hsteps, along_append] at hrun
  have hend := (hrun.1.invariant hstart fun h l hI hl => ?_).2
  · simpa [during, of] using hend
  · cases l with
    | begin => exact hbegin h hI
    | message m => exact hmessage h m hI (hl m rfl)
    | finish inp => exact hfinish h inp hI

/-- In a run with pairwise distinct request identifiers, the emission pass finds nothing:
a request bound to a session is never streaming, and the final chunk of a request of the
local engine never arrives. -/
theorem Routed.not_readyToEmit (hrouted : h.Routed) {rid : String} {p : PendingRequest}
    (hp : h.hb.board.pending.get rid = some p) : p.readyToEmit = false := by
  by_cases hrid : rid ∈ h.upstream
  · rcases (hrouted.onSession hp hrid).2 with hwaits | hterminal
    · simp [PendingRequest.readyToEmit, hwaits]
    · cases hstate : p.state <;>
        simp [PendingRequest.readyToEmit, PendingState.terminal, hstate] at hterminal ⊢
  · simp [PendingRequest.readyToEmit, (hrouted.onLocal hp hrid).2]

/-- The emission pass of such a run finds nothing. -/
theorem Routed.emissions_eq_nil (hrouted : h.Routed) : emissions h.hb = [] := by
  rw [List.eq_nil_iff_forall_not_mem]
  rintro ⟨rid, p⟩ hmem
  obtain ⟨hp, hready⟩ := mem_emissions.mp hmem
  rw [hrouted.not_readyToEmit hp] at hready
  cases hready

end History

end TtsServer
