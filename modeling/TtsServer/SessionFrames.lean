import TtsServer.Routing

/-!
# Frames of an upstream session

A session speaks a small protocol: one `task_start`, which carries the settings of
the request the session was created for, and then a `task_continue` for the text of
every request it serves. The heartbeat sends the first frame when it creates a
session and skips it when it reuses one, so the protocol rests on an invariant of
whole runs: every session of the pool has been started. The settings, on the other
hand, are those of the request a request reuses the session of.
-/

namespace TtsServer

open Lib Heartbeat

/-! ### Session identifiers -/

namespace Heartbeat

variable {env : Env} {hb : Heartbeat} {req : TtsRequestMsg} {handle : SessionHandle}
  {sid : String}

/-- The session identifiers generated so far. -/
def drawn (env : Env) (hb : Heartbeat) : List String :=
  (List.range hb.rngDraws).map fun n => generateSessionId (env.rng n)

/-- The generated identifiers, by their position. -/
theorem mem_drawn :
    sid ∈ drawn env hb ↔ ∃ n < hb.rngDraws, generateSessionId (env.rng n) = sid := by
  simp [drawn]

/-- An acquisition reuses the ready session that it finds. -/
theorem acquire_fst_of_idle {idle : SessionRecord}
    (hidle : hb.board.sessionPool.findIdleLeastRecentlyUsed = some idle) :
    (acquireOrCreateSession env hb).1 = ⟨idle.sessionId, true⟩ := by
  simp [acquireOrCreateSession, hidle]

/-- A reused session is the ready session that the acquisition found. -/
theorem idle_of_acquire_reused (hacquire : (acquireOrCreateSession env hb).1 = handle)
    (hreused : handle.reused = true) :
    ∃ idle, hb.board.sessionPool.findIdleLeastRecentlyUsed = some idle ∧
      idle.sessionId = handle.sessionId := by
  cases hidle : hb.board.sessionPool.findIdleLeastRecentlyUsed with
  | none =>
    simp only [acquireOrCreateSession, hidle] at hacquire
    rw [← hacquire] at hreused
    cases hreused
  | some idle =>
    rw [acquire_fst_of_idle hidle] at hacquire
    exact ⟨idle, rfl, by rw [← hacquire]⟩

/-- An acquisition draws an identifier unless it reuses a session. -/
theorem acquire_rngDraws :
    (acquireOrCreateSession env hb).2.rngDraws =
      if (acquireOrCreateSession env hb).1.reused then hb.rngDraws else hb.rngDraws + 1 := by
  unfold acquireOrCreateSession
  split <;> rfl

/-- A request draws at most one identifier, and it draws one if it is bound to a new
session. -/
theorem handleRequest_rngDraws :
    hb.rngDraws ≤ (handleRequest env req hb).rngDraws ∧
      (admission env req hb = .onSession handle → handle.reused = false →
        hb.rngDraws < (handleRequest env req hb).rngDraws) := by
  unfold handleRequest admission
  simp only
  split
  · simp [publish]
  · split
    · simp [admitLocal]
    · generalize hleveled : ({ hb with board.metrics := (evaluate env hb.board.metrics).2 } :
        Heartbeat) = hb₀
      have hhandle : (acquireOrCreateSession env hb₀).1 = (acquireOrCreateSession env hb).1 := by
        rw [← hleveled]
        exact acquire_fst_metrics _
      have hdraws := @acquire_rngDraws env hb₀
      have hsame : hb₀.rngDraws = hb.rngDraws := by rw [← hleveled]
      have hupstream : (admitUpstream env req hb₀).rngDraws =
          (acquireOrCreateSession env hb₀).2.rngDraws := by
        unfold admitUpstream
        simp only
        split <;> rfl
      rw [hupstream, hdraws, hhandle, hsame]
      constructor
      · split <;> omega
      · intro hadmission hnew
        split at hadmission
        · cases hadmission
        · cases hadmission
          rw [hnew]
          simp

/-! ### The frames of a request -/

/-- The payload that carries the settings of a request. -/
def startPayload (env : Env) (req : TtsRequestMsg) : String :=
  env.dump (encodeTaskStart req.model.toString req.voice req.audio)

/-- The first frame of a session, with the settings of a request. -/
def startFrame (env : Env) (sid : String) (req : TtsRequestMsg) : OutWsFrame :=
  { sessionId := sid, op := .taskStart, payloadJson := startPayload env req }

/-- The frame with the text of a request. -/
def continueFrame (env : Env) (sid : String) (req : TtsRequestMsg) : OutWsFrame :=
  { sessionId := sid, op := .taskContinue, payloadJson := env.dump (encodeTaskContinue req.text) }

/-- A new session is started and handed the text. -/
theorem taskFrames_new (hnew : handle.reused = false) :
    taskFrames env handle req =
      [startFrame env handle.sessionId req, continueFrame env handle.sessionId req] := by
  simp [taskFrames, hnew, startFrame, startPayload, continueFrame]

/-- A reused session is only handed the text. -/
theorem taskFrames_reused (hreused : handle.reused = true) :
    taskFrames env handle req = [continueFrame env handle.sessionId req] := by
  simp [taskFrames, hreused, continueFrame]

/-- The frames of a request go to its session. -/
theorem sessionId_of_mem_taskFrames {f : OutWsFrame} (hf : f ∈ taskFrames env handle req) :
    f.sessionId = handle.sessionId := by
  cases hhandle : handle.reused with
  | true =>
    rw [taskFrames_reused hhandle, List.mem_singleton] at hf
    rw [hf]
    rfl
  | false =>
    rw [taskFrames_new hhandle, List.mem_pair] at hf
    rcases hf with rfl | rfl <;> rfl

end Heartbeat

namespace History

variable {env : Env} {h : History} {sid : String} {inputs : List TickInput}

/-- Steps only draw further identifiers. -/
theorem step_rngDraws (l : Step) : h.hb.rngDraws ≤ (step env h l).hb.rngDraws := by
  cases l with
  | begin => exact le_refl _
  | finish inp =>
    have hemit : (emitReady h.hb).rngDraws = h.hb.rngDraws := by
      refine foldl_proj (fun hb : Heartbeat => hb.rngDraws) fun hb rid => ?_
      unfold emitCompleted
      split <;> rfl
    have hfinish : (step env h (.finish inp)).hb.rngDraws = (emitReady h.hb).rngDraws := by
      simp only [step, finishTick]
    rw [hfinish, hemit]
  | message m =>
    cases m with
    | request req => exact (@handleRequest_rngDraws env h.hb req ⟨"", false⟩).1
    | response rsp => exact le_of_eq handleResponse_quiet.rngDraws.symm
    | cancel msg => exact le_refl _
    | localComplete c => exact le_refl _
    | localFailed f => exact le_refl _

/-- A generated identifier stays generated. -/
theorem mem_drawn_step {l : Step} (hsid : sid ∈ drawn env h.hb) :
    sid ∈ drawn env (step env h l).hb := by
  obtain ⟨n, hn, hgenerated⟩ := mem_drawn.mp hsid
  exact mem_drawn.mpr ⟨n, lt_of_lt_of_le hn (step_rngDraws l), hgenerated⟩

/-- If the identifiers generated by the end of a step are pairwise distinct, those generated
before it are. -/
theorem drawn_nodup_of_step {l : Step} (hnodup : (drawn env (step env h l).hb).Nodup) :
    (drawn env h.hb).Nodup := by
  have hsub : (drawn env h.hb).Sublist (drawn env (step env h l).hb) :=
    (List.range_sublist.mpr (step_rngDraws l)).map _
  exact hsub.nodup hnodup

/-- The identifier of a new session has not been generated before. -/
theorem not_mem_drawn_of_new {req : TtsRequestMsg} {handle : SessionHandle}
    (hdecision : admission env req h.hb = .onSession handle) (hnew : handle.reused = false)
    (hsid : handle.sessionId = generateSessionId (env.rng h.hb.rngDraws))
    (hnodup : (drawn env (step env h (.message (.request req))).hb).Nodup) :
    handle.sessionId ∉ drawn env h.hb ∧
      handle.sessionId ∈ drawn env (step env h (.message (.request req))).hb := by
  have hlt : h.hb.rngDraws < (step env h (.message (.request req))).hb.rngDraws :=
    (@handleRequest_rngDraws env h.hb req handle).2 hdecision hnew
  refine ⟨fun hmem => ?_, mem_drawn.mpr ⟨_, hlt, hsid.symm⟩⟩
  obtain ⟨n, hn, hgenerated⟩ := mem_drawn.mp hmem
  have heq : n = h.hb.rngDraws := by
    refine List.inj_on_of_nodup_map hnodup ?_ (List.mem_range.mpr hlt) (hgenerated.trans hsid)
    exact List.mem_range.mpr (lt_trans hn hlt)
  omega

/-! ### Frames -/

/-- The frames so far, those of the change set under construction included. -/
def allFrames (h : History) : List OutWsFrame :=
  h.changeSets.flatMap ChangeSet.wsFrames ++ h.hb.changeset.wsFrames

/-- The start of a tick sends nothing. -/
theorem allFrames_begin : (step env h .begin).allFrames = h.allFrames := rfl

/-- The end of a tick sends nothing new. -/
theorem allFrames_finish (inp : TickInput) :
    (step env h (.finish inp)).allFrames = h.allFrames := by
  simp [allFrames, step, finishTick_collects, emitReady_emitted.changeset]

/-- The frames that a message makes the heartbeat send: those of a request that is bound to
a session. -/
def sends (env : Env) (hb : Heartbeat) : Message → List OutWsFrame
  | .request req =>
    match admission env req hb with
    | .onSession handle => taskFrames env handle req
    | _ => []
  | _ => []

/-- Every message appends the frames it sends. -/
theorem wsFrames_message (hwf : h.hb.PoolWf) (m : Message) :
    (step env h (.message m)).hb.changeset.wsFrames =
      h.hb.changeset.wsFrames ++ sends env h.hb m := by
  cases m with
  | request req =>
    have heffect := @handleRequest_effect env h.hb req hwf.wellKeyed hwf.named
    rcases heffect with
      ⟨hdecision, heffect⟩ | ⟨hdecision, heffect⟩ | ⟨handle, s, hdecision, heffect⟩
    · rcases hdecision with hdecision | hdecision <;>
        simp [step, handleMessage, sends, heffect.changeset, hdecision]
    · simp [step, handleMessage, sends, heffect.changeset, hdecision]
    · simp [step, handleMessage, sends, heffect.changeset, hdecision]
  | response rsp =>
    have hquiet : Quiet h.hb (step env h (.message (.response rsp))).hb := handleResponse_quiet
    simp [hquiet.changeset, sends]
  | cancel msg => exact (List.append_nil _).symm
  | localComplete c => exact (List.append_nil _).symm
  | localFailed f => exact (List.append_nil _).symm

/-- The frames of a run after a message. -/
theorem allFrames_message (hwf : h.hb.PoolWf) (m : Message) :
    (step env h (.message m)).allFrames = h.allFrames ++ sends env h.hb m := by
  have hsets : (step env h (.message m)).changeSets = h.changeSets := rfl
  rw [allFrames, wsFrames_message hwf, hsets, allFrames, List.append_assoc]

/-- A message sends nothing, or it binds a request to a session and sends the frames of the
request. -/
theorem sends_cases (hwf : h.hb.PoolWf) (m : Message) :
    sends env h.hb m = [] ∨
      ∃ req handle s, m = .request req ∧ admission env req h.hb = .onSession handle ∧
        OnSession env req handle s h.hb (step env h (.message m)).hb ∧
        sends env h.hb m = taskFrames env handle req := by
  cases m with
  | request req =>
    rcases @handleRequest_effect env h.hb req hwf.wellKeyed hwf.named with
      ⟨hdecision, -⟩ | ⟨hdecision, -⟩ | ⟨handle, s, hdecision, heffect⟩
    · left
      rcases hdecision with hdecision | hdecision <;> simp [sends, hdecision]
    · left
      simp [sends, hdecision]
    · exact Or.inr ⟨req, handle, s, rfl, hdecision, heffect, by simp [sends, hdecision]⟩
  | response rsp => exact Or.inl rfl
  | cancel msg => exact Or.inl rfl
  | localComplete c => exact Or.inl rfl
  | localFailed f => exact Or.inl rfl

/-- A step sends nothing, or it binds a request to a session and sends the frames of the
request. -/
theorem step_allFrames_cases (hwf : h.hb.PoolWf) (l : Step) :
    (step env h l).allFrames = h.allFrames ∨
      ∃ req handle s, l = .message (.request req) ∧ admission env req h.hb = .onSession handle ∧
        OnSession env req handle s h.hb (step env h l).hb ∧
        (step env h l).allFrames = h.allFrames ++ taskFrames env handle req := by
  cases l with
  | begin => exact Or.inl allFrames_begin
  | finish inp => exact Or.inl (allFrames_finish inp)
  | message m =>
    rw [allFrames_message hwf]
    rcases @sends_cases env h hwf m with hnone | ⟨req, handle, s, rfl, hdecision, heffect, hsends⟩
    · left
      rw [hnone, List.append_nil]
    · right
      exact ⟨req, handle, s, rfl, hdecision, heffect, by rw [hsends]⟩

/-- Sessions are started: every session of the pool has been sent its first frame, and frames
and requests only name sessions whose identifier was generated. -/
structure Started (env : Env) (h : History) : Prop where
  poolWf : h.hb.PoolWf
  started : ∀ {sid s}, h.hb.board.sessionPool.get sid = some s →
    ∃ f ∈ h.allFrames, f.sessionId = sid ∧ f.op = .taskStart
  frame_drawn : ∀ {f}, f ∈ h.allFrames → f.sessionId ∈ drawn env h.hb
  pending_drawn : ∀ {rid p}, h.hb.board.pending.get rid = some p →
    p.sessionId = "" ∨ p.sessionId ∈ drawn env h.hb

/-- The sessions of the pool have generated identifiers. -/
theorem Started.session_drawn (hstarted : Started env h) {s : SessionRecord}
    (hs : h.hb.board.sessionPool.get sid = some s) : sid ∈ drawn env h.hb := by
  obtain ⟨f, hf, rfl, -⟩ := hstarted.started hs
  exact hstarted.frame_drawn hf

/-- A step that brings no session and names no other one keeps the sessions started. -/
theorem Started.kept {l : Step} (hstarted : Started env h)
    (hframes : (step env h l).allFrames = h.allFrames)
    (hsession : ∀ {sid s'}, (step env h l).hb.board.sessionPool.get sid = some s' →
      ∃ s, h.hb.board.sessionPool.get sid = some s)
    (hpending : ∀ {rid p'}, (step env h l).hb.board.pending.get rid = some p' →
      p'.sessionId = "" ∨ ∃ p, h.hb.board.pending.get rid = some p ∧ p'.sessionId = p.sessionId) :
    Started env (step env h l) where
  poolWf := step_poolWf hstarted.poolWf l
  started := by
    intro sid s' hs'
    obtain ⟨s, hs⟩ := hsession hs'
    rw [hframes]
    exact hstarted.started hs
  frame_drawn := by
    intro f hf
    rw [hframes] at hf
    exact mem_drawn_step (hstarted.frame_drawn hf)
  pending_drawn := by
    intro rid p' hp'
    rcases hpending hp' with hempty | ⟨p, hp, hsame⟩
    · exact Or.inl hempty
    · rw [hsame]
      exact (hstarted.pending_drawn hp).imp_right mem_drawn_step

/-- A step that only takes away keeps the sessions started. -/
theorem Started.recedes {l : Step} (hstarted : Started env h)
    (hframes : (step env h l).allFrames = h.allFrames)
    (hrecedes : Recedes h.hb (step env h l).hb) : Started env (step env h l) := by
  refine hstarted.kept hframes (fun hs' => ?_) fun hp' => ?_
  · obtain ⟨s, hs, -⟩ := hrecedes.session hs'
    exact ⟨s, hs⟩
  · obtain ⟨p, hp, hsame, -⟩ := hrecedes.pending hp'
    exact Or.inr ⟨p, hp, hsame⟩

/-- The session given to a request has a generated identifier. -/
theorem Started.handle_drawn {req : TtsRequestMsg} {handle : SessionHandle} {s : SessionRecord}
    (hstarted : Started env h) (hdecision : admission env req h.hb = .onSession handle)
    (hacquired : Acquired env h.hb handle s) :
    handle.sessionId ∈ drawn env (step env h (.message (.request req))).hb := by
  rcases hacquired with ⟨-, idle, hidle, -⟩ | ⟨hnew, hsid, -⟩
  · exact mem_drawn_step (hstarted.session_drawn hidle)
  · have hlt : h.hb.rngDraws < (step env h (.message (.request req))).hb.rngDraws :=
      (@handleRequest_rngDraws env h.hb req handle).2 hdecision hnew
    exact mem_drawn.mpr ⟨_, hlt, hsid.symm⟩

/-- Binding a request to a session keeps the sessions started: a new session is sent its first
frame. -/
theorem Started.session_request {req : TtsRequestMsg} {handle : SessionHandle}
    {s : SessionRecord} (hstarted : Started env h)
    (hdecision : admission env req h.hb = .onSession handle)
    (heffect : OnSession env req handle s h.hb (step env h (.message (.request req))).hb) :
    Started env (step env h (.message (.request req))) := by
  have hdrawn := hstarted.handle_drawn hdecision heffect.acquired
  have hframes := @allFrames_message env h hstarted.poolWf (.request req)
  simp only [sends, hdecision] at hframes
  constructor
  · exact step_poolWf hstarted.poolWf _
  · intro sid s' hs'
    rw [hframes]
    rw [heffect.session] at hs'
    split at hs'
    · rename_i heq
      subst heq
      rcases heffect.acquired with ⟨-, idle, hidle, -⟩ | ⟨hnew, -, -⟩
      · obtain ⟨f, hf, hfirst⟩ := hstarted.started hidle
        exact ⟨f, List.mem_append_left _ hf, hfirst⟩
      · rw [taskFrames_new hnew]
        exact ⟨_, List.mem_append_right _ List.mem_cons_self, rfl, rfl⟩
    · obtain ⟨f, hf, hfirst⟩ := hstarted.started hs'
      exact ⟨f, List.mem_append_left _ hf, hfirst⟩
  · intro f hf
    rw [hframes] at hf
    rcases List.mem_append.mp hf with hf | hf
    · exact mem_drawn_step (hstarted.frame_drawn hf)
    · rw [sessionId_of_mem_taskFrames hf]
      exact hdrawn
  · intro rid p hp
    by_cases heq : rid = req.requestId
    · subst heq
      obtain ⟨t, hrecord⟩ := heffect.record
      obtain rfl := Option.some.inj (hrecord.symm.trans hp)
      exact Or.inr hdrawn
    · rw [heffect.others heq] at hp
      exact (hstarted.pending_drawn hp).imp_right mem_drawn_step

/-- A request that changes no session keeps the sessions started. -/
theorem Started.local_request {req : TtsRequestMsg} (hstarted : Started env h)
    (hframes : (step env h (.message (.request req))).allFrames = h.allFrames)
    (heffect : OnLocal env req h.hb (step env h (.message (.request req))).hb) :
    Started env (step env h (.message (.request req))) := by
  refine hstarted.kept hframes (fun {sid s'} hs' => ⟨s', ?_⟩) fun {rid p'} hp' => ?_
  · rw [← heffect.sessionPool]
    exact hs'
  · by_cases heq : rid = req.requestId
    · subst heq
      obtain ⟨p, hp, -, hrecord⟩ := heffect.record
      obtain rfl := Option.some.inj (hp.symm.trans hp')
      cases hold : h.hb.board.pending.get req.requestId with
      | none =>
        rw [hold] at hrecord
        exact Or.inl hrecord.1
      | some old =>
        rw [hold] at hrecord
        exact Or.inr ⟨old, rfl, hrecord.1⟩
    · rw [heffect.others heq] at hp'
      exact Or.inr ⟨p', hp', rfl⟩

/-- Every message keeps the sessions started. -/
theorem Started.message (hstarted : Started env h) (m : Message) :
    Started env (step env h (.message m)) := by
  rcases @step_allFrames_cases env h hstarted.poolWf (.message m) with
    hframes | ⟨req, handle, s, hm, hdecision, heffect, -⟩
  · rcases @step_message_cases env h hstarted.poolWf m with ⟨req, rfl, hadmits⟩ | ⟨hrecedes, -⟩
    · cases hadmits with
      | rejected heffect _ =>
        refine hstarted.kept hframes (fun {sid s'} hs' => ⟨s', ?_⟩)
          fun {rid p'} hp' => Or.inr ⟨p', ?_, rfl⟩
        · rw [← heffect.sessionPool]
          exact hs'
        · rw [← heffect.pending]
          exact hp'
      | onLocal heffect _ => exact hstarted.local_request hframes heffect
      | onSession handle s hdecision heffect _ =>
        exact hstarted.session_request hdecision heffect
    · exact hstarted.recedes hframes hrecedes
  · cases hm
    exact hstarted.session_request hdecision heffect

/-- The start of a tick keeps the sessions started. -/
theorem Started.begin (hstarted : Started env h) : Started env (step env h .begin) :=
  hstarted.recedes allFrames_begin (beginTick_recedes hstarted.poolWf.wellKeyed)

/-- The end of a tick keeps the sessions started. -/
theorem Started.finish (hstarted : Started env h) (inp : TickInput) :
    Started env (step env h (.finish inp)) :=
  hstarted.recedes (allFrames_finish inp) (finishTick_recedes hstarted.poolWf.wellKeyed inp)

/-- Before the first tick there are no sessions. -/
theorem start_started (maxSize : Nat) (idleTimeout maxLifetime : Duration) :
    Started env { hb := start maxSize idleTimeout maxLifetime } where
  poolWf := start_poolWf maxSize idleTimeout maxLifetime
  started := fun hs => by simp [start, DataBoard.empty, SessionPool.get] at hs
  frame_drawn := fun hf => by simp [allFrames, start] at hf
  pending_drawn := fun hp => by simp [start, DataBoard.empty, PendingRequestStore.get] at hp

/-- Every step keeps the sessions started. -/
theorem Started.step (hstarted : Started env h) (l : Step) : Started env (step env h l) := by
  cases l with
  | begin => exact hstarted.begin
  | message m => exact hstarted.message m
  | finish inp => exact hstarted.finish inp

/-! ### The protocol of a session -/

/-- The frames of a session in the order of the protocol: one first frame, and then at least
one frame with a text. -/
def FollowsProtocol (frames : List OutWsFrame) : Prop :=
  ∃ first rest, frames = first :: rest ∧ first.op = .taskStart ∧ rest ≠ [] ∧
    ∀ f ∈ rest, f.op = .taskContinue

/-- The frames sent to a session. -/
def framesFor (sid : String) (frames : List OutWsFrame) : List OutWsFrame :=
  frames.filter fun f => f.sessionId = sid

/-- The frames of a request, seen from one session. -/
theorem framesFor_taskFrames {handle : SessionHandle} {req : TtsRequestMsg} :
    framesFor sid (taskFrames env handle req) =
      if sid = handle.sessionId then taskFrames env handle req else [] := by
  unfold framesFor
  split
  · rename_i heq
    rw [List.filter_eq_self]
    intro f hf
    simp [sessionId_of_mem_taskFrames hf, heq]
  · rename_i hne
    rw [List.filter_eq_nil_iff]
    intro f hf
    simpa [sessionId_of_mem_taskFrames hf] using Ne.symm hne

/-- Every session has followed the protocol so far. -/
def OnProtocol (h : History) : Prop :=
  ∀ sid, framesFor sid h.allFrames = [] ∨ FollowsProtocol (framesFor sid h.allFrames)

/-- A request keeps every session on the protocol, if its session identifier is new when it
gets a new session. -/
theorem OnProtocol.request {req : TtsRequestMsg} {handle : SessionHandle} {s : SessionRecord}
    (hprotocol : OnProtocol h) (hstarted : Started env h)
    (hacquired : Acquired env h.hb handle s)
    (hunused : handle.reused = false → handle.sessionId ∉ drawn env h.hb) :
    ∀ sid, framesFor sid (h.allFrames ++ taskFrames env handle req) = [] ∨
      FollowsProtocol (framesFor sid (h.allFrames ++ taskFrames env handle req)) := by
  intro sid
  have hsplit : framesFor sid (h.allFrames ++ taskFrames env handle req) =
      framesFor sid h.allFrames ++ framesFor sid (taskFrames env handle req) :=
    List.filter_append _ _
  rw [hsplit, framesFor_taskFrames]
  by_cases heq : sid = handle.sessionId
  · subst heq
    rw [if_pos rfl]
    right
    rcases hacquired with ⟨hreused, idle, hidle, -⟩ | ⟨hnew, -, -⟩
    · -- the session is in the pool, so its first frame has been sent
      rw [taskFrames_reused hreused]
      obtain ⟨f, hf, hsid, -⟩ := hstarted.started hidle
      have hmem : f ∈ framesFor handle.sessionId h.allFrames :=
        List.mem_filter.mpr ⟨hf, by simp [hsid]⟩
      rcases hprotocol handle.sessionId with hnone | ⟨first, rest, hframes, hfirst, hne, hrest⟩
      · rw [hnone] at hmem
        cases hmem
      · refine ⟨first, rest ++ [continueFrame env handle.sessionId req], ?_, hfirst, ?_, ?_⟩
        · rw [hframes, List.cons_append]
        · simp
        · intro f hf
          rcases List.mem_append.mp hf with hf | hf
          · exact hrest f hf
          · rw [List.mem_singleton.mp hf]
            rfl
    · have hnone : framesFor handle.sessionId h.allFrames = [] := by
        rw [framesFor, List.filter_eq_nil_iff]
        intro f hf hsid
        have hdrawn := hstarted.frame_drawn hf
        rw [of_decide_eq_true hsid] at hdrawn
        exact hunused hnew hdrawn
      rw [hnone, taskFrames_new hnew, List.nil_append]
      refine ⟨_, _, rfl, rfl, List.cons_ne_nil _ _, fun f hf => ?_⟩
      rw [List.mem_singleton.mp hf]
      rfl
  · rw [if_neg heq, List.append_nil]
    exact hprotocol sid

/-- Every step keeps every session on the protocol, as long as no session identifier is
generated twice. -/
theorem OnProtocol.step (hstarted : Started env h)
    (hprotocol : (drawn env h.hb).Nodup → OnProtocol h) (l : Step)
    (hnodup : (drawn env (step env h l).hb).Nodup) : OnProtocol (step env h l) := by
  have hbefore := hprotocol (drawn_nodup_of_step hnodup)
  unfold OnProtocol
  rcases @step_allFrames_cases env h hstarted.poolWf l with
    hframes | ⟨req, handle, s, rfl, hdecision, heffect, hframes⟩
  · rw [hframes]
    exact hbefore
  · rw [hframes]
    refine hbefore.request hstarted heffect.acquired fun hnew => ?_
    rcases heffect.acquired with ⟨hreused, -⟩ | ⟨-, hsid, -⟩
    · rw [hnew] at hreused
      cases hreused
    · exact (not_mem_drawn_of_new hdecision hnew hsid hnodup).1

/-- A run that generates no session identifier twice follows the protocol on every session. -/
theorem onProtocol_of (maxSize : Nat) (idleTimeout maxLifetime : Duration) :
    Started env (of env (start maxSize idleTimeout maxLifetime) inputs) ∧
      ((drawn env (of env (start maxSize idleTimeout maxLifetime) inputs).hb).Nodup →
        OnProtocol (of env (start maxSize idleTimeout maxLifetime) inputs)) := by
  have hstep : ∀ (h : History) (l : Step),
      (Started env h ∧ ((drawn env h.hb).Nodup → OnProtocol h)) →
        Started env (History.step env h l) ∧
          ((drawn env (History.step env h l).hb).Nodup → OnProtocol (History.step env h l)) :=
    fun h l hh => ⟨hh.1.step l, OnProtocol.step hh.1 hh.2 l⟩
  refine of_invariant ⟨start_started maxSize idleTimeout maxLifetime, ?_⟩
    (fun h hh => hstep h _ hh) (fun h m hh => hstep h _ hh) fun h inp hh => hstep h _ hh
  intro _ sid
  exact Or.inl rfl

/-- The frames of a run are those of its change sets. -/
theorem allFrames_of (maxSize : Nat) (idleTimeout maxLifetime : Duration) :
    (of env (start maxSize idleTimeout maxLifetime) inputs).allFrames =
      (run env (start maxSize idleTimeout maxLifetime) inputs).1.flatMap ChangeSet.wsFrames := by
  obtain ⟨hhb, hsets⟩ := @of_eq_run env (start maxSize idleTimeout maxLifetime) inputs
  have hcollector := (@betweenTicks_run env inputs maxSize idleTimeout maxLifetime).collector
  rw [allFrames, hhb, hsets, hcollector, List.append_nil]

/-- In every run from an empty board in which no session identifier is generated twice, the
frames sent to a session are one `task_start` followed by one or more `task_continue`, if there
are any. -/
theorem session_protocol {maxSize : Nat} {idleTimeout maxLifetime : Duration}
    (hfresh : (drawn env (run env (start maxSize idleTimeout maxLifetime) inputs).2).Nodup)
    (sid : String) :
    let frames := (run env (start maxSize idleTimeout maxLifetime) inputs).1.flatMap
      ChangeSet.wsFrames
    framesFor sid frames = [] ∨ FollowsProtocol (framesFor sid frames) := by
  have hprotocol := (@onProtocol_of env inputs maxSize idleTimeout maxLifetime).2
  rw [of_eq_run.1, OnProtocol, allFrames_of] at hprotocol
  exact hprotocol hfresh sid

/-- A request that reuses the session of another one with a different voice, and a request that
gets a session of its own. -/
def reusingRun : List TickInput :=
  [{ requests := [.request { requestId := "a" }] },
   { events := [.response { sessionId := "s-0000000000000000", kind := .connected }] },
   { requests := [.request { requestId := "b", voice := { voiceId := "female-shaonv" } },
      .request { requestId := "c" }] }]

/-- The session that is reused in this run gets three frames. -/
theorem session_protocol_reusingRun :
    let frames := (run sampleEnv (start 16 (seconds 60) (seconds 3600)) reusingRun).1.flatMap
      ChangeSet.wsFrames
    (framesFor "s-0000000000000000" frames).length = 3 ∧
      (framesFor "s-0000000000000000" frames = [] ∨
        FollowsProtocol (framesFor "s-0000000000000000" frames)) :=
  ⟨by decide +kernel, session_protocol (by decide +kernel) _⟩

/-! ### The settings of a session -/

/-- The frames that a step appends to the change set, with the request that is handled. -/
def sentBy (env : Env) (h : History) : Step → List (OutWsFrame × TtsRequestMsg)
  | .message (.request req) =>
    ((handleMessage env h.hb (.request req)).changeset.wsFrames.drop
      h.hb.changeset.wsFrames.length).map fun f => (f, req)
  | _ => []

/-- The small steps of a run with a log of the frames, each with its request. -/
def tagged (env : Env) :
    History × List (OutWsFrame × TtsRequestMsg) → Step →
      History × List (OutWsFrame × TtsRequestMsg) :=
  logged (step env) (sentBy env)

/-- The frames that a run sends, each with the request that was being handled. -/
def sentFrames (env : Env) (hb : Heartbeat) (inputs : List TickInput) :
    List (OutWsFrame × TtsRequestMsg) :=
  ((stepsOf inputs).foldl (tagged env) ({ hb := hb }, [])).2

/-- The most recent first frame of a session. -/
def lastStart (sent : List (OutWsFrame × TtsRequestMsg)) (sid : String) :
    Option (OutWsFrame × TtsRequestMsg) :=
  (sent.filter fun e => e.1.sessionId = sid ∧ e.1.op = .taskStart).getLast?

/-- Every text was sent on a session whose most recent first frame carries the settings of the
request. -/
def OwnSettings (env : Env) (sent : List (OutWsFrame × TtsRequestMsg)) : Prop :=
  ∀ before e after, sent = before ++ e :: after → e.1.op = .taskContinue →
    ∃ first, lastStart before e.1.sessionId = some first ∧
      first.1.payloadJson = startPayload env e.2

/-- A request that is admitted upstream when a ready session can be reused has the settings of
the request for which that session was last started. -/
def KeepsSettings (env : Env) (x : History × List (OutWsFrame × TtsRequestMsg)) : Step → Prop
  | .message (.request req) =>
    (evaluate env x.1.hb.board.metrics).1.admitted = true → shouldUseLocal env req = false →
      ∀ idle ∈ x.1.hb.board.sessionPool.findIdleLeastRecentlyUsed,
        ∀ first ∈ lastStart x.2 idle.sessionId, startPayload env first.2 = startPayload env req
  | _ => True

instance (env : Env) (x : History × List (OutWsFrame × TtsRequestMsg)) :
    ∀ l, Decidable (KeepsSettings env x l)
  | .message (.request _) => inferInstanceAs (Decidable (_ → _ → ∀ idle ∈ _, ∀ first ∈ _, _))
  | .message (.response _) => .isTrue trivial
  | .message (.cancel _) => .isTrue trivial
  | .message (.localComplete _) => .isTrue trivial
  | .message (.localFailed _) => .isTrue trivial
  | .begin => .isTrue trivial
  | .finish _ => .isTrue trivial

/-- The last frame is the only new one to be judged. -/
theorem ownSettings_concat {sent : List (OutWsFrame × TtsRequestMsg)}
    {e : OutWsFrame × TtsRequestMsg} :
    OwnSettings env (sent ++ [e]) ↔ OwnSettings env sent ∧
      (e.1.op = .taskContinue → ∃ first, lastStart sent e.1.sessionId = some first ∧
        first.1.payloadJson = startPayload env e.2) := by
  constructor
  · intro hown
    refine ⟨fun before e' after hsplit => ?_, hown sent e [] rfl⟩
    exact hown before e' (after ++ [e]) (by simp [hsplit])
  · rintro ⟨hown, hlast⟩ before e' after hsplit
    rcases List.eq_nil_or_concat after with rfl | ⟨after, e'', rfl⟩
    · obtain ⟨rfl, heq⟩ := List.append_inj' hsplit rfl
      obtain rfl := List.singleton_inj.mp heq
      exact hlast
    · have hsplit' : sent ++ [e] = (before ++ e' :: after) ++ [e''] := by simpa using hsplit
      exact hown before e' after (List.append_inj' hsplit' rfl).1

/-- A first frame is the most recent one of its session. -/
theorem lastStart_concat {sent : List (OutWsFrame × TtsRequestMsg)} {req : TtsRequestMsg} :
    lastStart (sent ++ [(startFrame env sid req, req)]) sid =
      some (startFrame env sid req, req) := by
  simp [lastStart, startFrame]

/-- The frames of a step, with the request being handled. -/
theorem sentBy_request (hwf : h.hb.PoolWf) (req : TtsRequestMsg) :
    sentBy env h (.message (.request req)) =
      (sends env h.hb (.request req)).map fun f => (f, req) := by
  have hframes : (handleMessage env h.hb (.request req)).changeset.wsFrames = _ :=
    wsFrames_message hwf (.request req)
  rw [sentBy, hframes, List.drop_left]

/-- The log of a step is what the step sends. -/
theorem allFrames_step (hwf : h.hb.PoolWf) (l : Step) :
    (step env h l).allFrames = h.allFrames ++ (sentBy env h l).map Prod.fst := by
  cases l with
  | begin => exact (List.append_nil _).symm
  | finish inp => exact (allFrames_finish inp).trans (List.append_nil _).symm
  | message m =>
    rw [allFrames_message hwf]
    cases m with
    | request req =>
      have htags : (fun f : OutWsFrame => (f, req).1) = id := rfl
      rw [sentBy_request hwf, List.map_map, Function.comp_def, htags, List.map_id]
    | response rsp => rfl
    | cancel msg => rfl
    | localComplete c => rfl
    | localFailed f => rfl

/-- A step that binds no request sends nothing; one that does sends the frames of the
request. -/
theorem sentBy_cases (hwf : h.hb.PoolWf) (l : Step) :
    sentBy env h l = [] ∨
      ∃ req handle s, l = .message (.request req) ∧ admission env req h.hb = .onSession handle ∧
        OnSession env req handle s h.hb (step env h l).hb ∧
        sentBy env h l = (taskFrames env handle req).map fun f => (f, req) := by
  rcases @step_allFrames_cases env h hwf l with
    hframes | ⟨req, handle, s, rfl, hdecision, heffect, -⟩
  · left
    rw [allFrames_step hwf, List.append_right_eq_self, List.map_eq_nil_iff] at hframes
    exact hframes
  · right
    refine ⟨req, handle, s, rfl, hdecision, heffect, ?_⟩
    simp [sentBy_request hwf, sends, hdecision]

/-- The log is the frames of the run, and its first frames carry the settings of the request
they were sent for. -/
structure Tagged (env : Env) (x : History × List (OutWsFrame × TtsRequestMsg)) : Prop where
  started : Started env x.1
  frames : x.2.map Prod.fst = x.1.allFrames
  payload : ∀ {e}, e ∈ x.2 → e.1.op = .taskStart → e.1.payloadJson = startPayload env e.2

variable {x : History × List (OutWsFrame × TtsRequestMsg)}

/-- A session of the pool has a most recent first frame, with the settings of its request. -/
theorem Tagged.exists_lastStart (htagged : Tagged env x) {s : SessionRecord}
    (hs : x.1.hb.board.sessionPool.get sid = some s) :
    ∃ first, lastStart x.2 sid = some first ∧ first.1.payloadJson = startPayload env first.2 := by
  obtain ⟨f, hf, hsid, hop⟩ := htagged.started.started hs
  rw [← htagged.frames] at hf
  obtain ⟨e, he, rfl⟩ := List.mem_map.mp hf
  have hmem : e ∈ x.2.filter fun e => e.1.sessionId = sid ∧ e.1.op = .taskStart :=
    List.mem_filter.mpr ⟨he, by simp [hsid, hop]⟩
  have hne := List.ne_nil_of_mem hmem
  refine ⟨_, List.getLast?_eq_some_getLast hne, ?_⟩
  obtain ⟨hlast, htest⟩ := List.mem_filter.mp (List.getLast_mem hne)
  simp only [decide_eq_true_eq] at htest
  exact htagged.payload hlast htest.2

/-- Every step keeps the log. -/
theorem Tagged.step (htagged : Tagged env x) (l : Step) : Tagged env (tagged env x l) := by
  have hwf := htagged.started.poolWf
  refine ⟨htagged.started.step l, ?_, ?_⟩
  · simp only [tagged, logged, List.map_append, htagged.frames, allFrames_step hwf]
  · intro e he hop
    rcases List.mem_append.mp he with he | he
    · exact htagged.payload he hop
    · rcases @sentBy_cases env x.1 hwf l with hnone | ⟨req, handle, s, rfl, -, -, hsent⟩
      · rw [hnone] at he
        cases he
      · rw [hsent] at he
        obtain ⟨f, hf, rfl⟩ := List.mem_map.mp he
        cases hhandle : handle.reused with
        | true =>
          rw [taskFrames_reused hhandle, List.mem_singleton] at hf
          rw [hf] at hop
          cases hop
        | false =>
          rw [taskFrames_new hhandle, List.mem_pair] at hf
          rcases hf with rfl | rfl
          · rfl
          · cases hop

/-- What the condition says of a request that is bound to a session. -/
theorem keepsSettings_request_iff {req : TtsRequestMsg} (hwf : x.1.hb.PoolWf) :
    KeepsSettings env x (.message (.request req)) ↔
      ∀ handle, admission env req x.1.hb = .onSession handle → handle.reused = true →
        ∀ first ∈ lastStart x.2 handle.sessionId,
          startPayload env first.2 = startPayload env req := by
  constructor
  · intro hkeeps handle hdecision hreused
    obtain ⟨hadmitted, hlocal, hacquire, -⟩ := admission_eq_onSession_iff.mp hdecision
    obtain ⟨idle, hidle, hsid⟩ := idle_of_acquire_reused hacquire hreused
    rw [← hsid]
    exact hkeeps hadmitted hlocal idle hidle
  · intro hkeeps hadmitted hlocal idle hidle
    have hacquire := @acquire_fst_of_idle env x.1.hb idle hidle
    obtain ⟨id, hget, -⟩ := SessionPool.findIdleLeastRecentlyUsed_some hidle
    have hid : idle.sessionId = id := hwf.wellKeyed.sessionId_eq hget
    have hnamed : idle.sessionId ≠ "" := hid ▸ hwf.named hget
    have hdecision := admission_eq_onSession_iff.mpr ⟨hadmitted, hlocal, hacquire, hnamed⟩
    exact hkeeps _ hdecision rfl

/-- A step that sends nothing meets the condition. -/
theorem keepsSettings_of_sentBy_nil (hwf : x.1.hb.PoolWf) {l : Step}
    (hnone : sentBy env x.1 l = []) : KeepsSettings env x l := by
  cases l with
  | begin => trivial
  | finish inp => trivial
  | message m =>
    cases m with
    | request req =>
      rw [keepsSettings_request_iff hwf]
      intro handle hdecision hreused
      rw [sentBy_request hwf, List.map_eq_nil_iff] at hnone
      simp [sends, hdecision, taskFrames_reused hreused] at hnone
    | response rsp => trivial
    | cancel msg => trivial
    | localComplete c => trivial
    | localFailed f => trivial

/-- A step keeps every text on its own settings exactly when it meets the condition. -/
theorem ownSettings_step (htagged : Tagged env x) (l : Step) :
    OwnSettings env (tagged env x l).2 ↔ OwnSettings env x.2 ∧ KeepsSettings env x l := by
  have hwf := htagged.started.poolWf
  have hlog : (tagged env x l).2 = x.2 ++ sentBy env x.1 l := rfl
  rw [hlog]
  rcases @sentBy_cases env x.1 hwf l with
    hnone | ⟨req, handle, s, rfl, hdecision, heffect, hsent⟩
  · rw [hnone, List.append_nil]
    exact ⟨fun hown => ⟨hown, keepsSettings_of_sentBy_nil hwf hnone⟩, And.left⟩
  · rw [hsent, keepsSettings_request_iff hwf]
    cases hhandle : handle.reused with
    | true =>
      obtain ⟨idle, hidle⟩ : ∃ idle, x.1.hb.board.sessionPool.get handle.sessionId = some idle := by
        rcases heffect.acquired with ⟨-, idle, hidle, -⟩ | ⟨hnew, -⟩
        · exact ⟨idle, hidle⟩
        · rw [hhandle] at hnew
          cases hnew
      obtain ⟨first, hfirst, hpayload⟩ := htagged.exists_lastStart hidle
      rw [taskFrames_reused hhandle, List.map_singleton, ownSettings_concat]
      refine and_congr_right fun _ => ⟨fun hlast handle' hdecision' _ first' hfirst' => ?_,
        fun hkeeps _ =>
          ⟨first, hfirst, hpayload.trans (hkeeps handle hdecision hhandle first hfirst)⟩⟩
      cases hdecision.symm.trans hdecision'
      obtain ⟨first'', hfirst'', hown⟩ := hlast rfl
      obtain rfl := Option.some.inj (hfirst.symm.trans hfirst')
      obtain rfl := Option.some.inj (hfirst.symm.trans hfirst'')
      exact hpayload.symm.trans hown
    | false =>
      have hpair : x.2 ++ (taskFrames env handle req).map (fun f => (f, req)) =
          x.2 ++ [(startFrame env handle.sessionId req, req)] ++
            [(continueFrame env handle.sessionId req, req)] := by
        simp [taskFrames_new hhandle]
      rw [hpair, ownSettings_concat, ownSettings_concat]
      constructor
      · rintro ⟨⟨hown, -⟩, -⟩
        refine ⟨hown, fun handle' hdecision' hreused => ?_⟩
        cases hdecision.symm.trans hdecision'
        rw [hhandle] at hreused
        cases hreused
      · rintro ⟨hown, -⟩
        exact ⟨⟨hown, fun hop => by cases hop⟩, fun _ => ⟨_, lastStart_concat, rfl⟩⟩

/-- The frames of a run from an empty board are those of its change sets, and every text goes
out under the settings of its own request exactly when every request that reuses a session has
the settings of the request for which that session was last started. -/
theorem own_settings_iff (env : Env) (maxSize : Nat) (idleTimeout maxLifetime : Duration)
    (inputs : List TickInput) :
    (sentFrames env (start maxSize idleTimeout maxLifetime) inputs).map Prod.fst =
        (run env (start maxSize idleTimeout maxLifetime) inputs).1.flatMap ChangeSet.wsFrames ∧
      (OwnSettings env (sentFrames env (start maxSize idleTimeout maxLifetime) inputs) ↔
        Along (tagged env) (KeepsSettings env)
          ({ hb := start maxSize idleTimeout maxLifetime }, []) (stepsOf inputs)) := by
  have hstart : Tagged env ({ hb := start maxSize idleTimeout maxLifetime }, []) :=
    ⟨start_started maxSize idleTimeout maxLifetime, rfl, fun he => by cases he⟩
  constructor
  · have hend : Tagged env ((stepsOf inputs).foldl (tagged env)
        ({ hb := start maxSize idleTimeout maxLifetime }, [])) :=
      List.foldlRecOn (stepsOf inputs) (tagged env) hstart fun x hx l _ => hx.step l
    have hrun : ((stepsOf inputs).foldl (tagged env)
        ({ hb := start maxSize idleTimeout maxLifetime }, [])).1 =
          of env (start maxSize idleTimeout maxLifetime) inputs := foldl_logged_fst
    rw [sentFrames, hend.frames, hrun, allFrames_of]
  · have hiff := @foldl_iff_along _ _ (tagged env) (KeepsSettings env) _ (stepsOf inputs)
      (Tagged env) (fun x => OwnSettings env x.2) hstart (fun x l hx => hx.step l)
      fun x l hx => ownSettings_step hx l
    refine hiff.trans ⟨And.right, fun hkeeps => ⟨?_, hkeeps⟩⟩
    rintro before e after hsplit
    simp at hsplit

/-- An environment whose frames are readable: the voice of a first frame is its payload. -/
def voicedEnv : Env :=
  { sampleEnv with
    dump := fun
      | .obj (_ :: _ :: (_, .obj ((_, .str voice) :: _)) :: _) => voice
      | _ => "" }

/-- In the sample run the request with the other voice is synthesised with the voice of the
request that started its session. -/
theorem reusingRun_foreign_settings :
    ¬OwnSettings voicedEnv
      (sentFrames voicedEnv (start 16 (seconds 60) (seconds 3600)) reusingRun) := by
  let a : TtsRequestMsg := { requestId := "a" }
  let b : TtsRequestMsg := { requestId := "b", voice := { voiceId := "female-shaonv" } }
  let c : TtsRequestMsg := { requestId := "c" }
  let sid := "s-0000000000000000"
  let other := "s-0000000000000001"
  intro hown
  have hsent : sentFrames voicedEnv (start 16 (seconds 60) (seconds 3600)) reusingRun =
      [(startFrame voicedEnv sid a, a), (continueFrame voicedEnv sid a, a)] ++
        (continueFrame voicedEnv sid b, b) ::
          [(startFrame voicedEnv other c, c), (continueFrame voicedEnv other c, c)] := by
    decide +kernel
  obtain ⟨first, hfirst, hpayload⟩ := hown _ _ _ hsent rfl
  have hstarted : lastStart [(startFrame voicedEnv sid a, a), (continueFrame voicedEnv sid a, a)]
      sid = some (startFrame voicedEnv sid a, a) := by decide +kernel
  obtain rfl := Option.some.inj (hstarted.symm.trans hfirst)
  exact absurd hpayload (by decide +kernel)

end History

end TtsServer
