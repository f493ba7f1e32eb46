import TtsServer.Routing

/-!
# The states of a session

The documented life of a session leads from `cold` over `connecting`, `ready`,
`streaming` and `draining` to `closed`, and from every live state to `errored`, after
which the session is removed. The operations of the pool set the new state without
looking at the old one, so the order of events decides whether this is what happens.
Two kinds of step can leave the documented machine: a connection that is reported for
a session beyond `ready`, and the emission of a request whose session is not streaming.
-/

namespace TtsServer

open Lib Heartbeat

namespace SessionState

/-- The states of a session that is in use. -/
def live : SessionState → Bool
  | .connecting | .ready | .streaming | .draining => true
  | .cold | .closed | .errored => false

/-- The edges of the documented machine. -/
def edge : SessionState → SessionState → Bool
  | .cold, .connecting => true
  | .connecting, .ready => true
  | .ready, .streaming => true
  | .streaming, .draining => true
  | .draining, .closed => true
  | s, .errored => s.live
  | _, _ => false

/-- A state is kept or left along an edge. -/
def Moves (s s' : SessionState) : Prop := s' = s ∨ s.edge s' = true

instance (s s' : SessionState) : Decidable (Moves s s') := inferInstanceAs (Decidable (_ ∨ _))

/-- The machine becomes ready only from `connecting`. -/
theorem moves_ready_iff {s : SessionState} : s.Moves .ready ↔ s = .connecting ∨ s = .ready := by
  cases s <;> decide

/-- The machine drains only from `streaming`. -/
theorem moves_draining_iff {s : SessionState} :
    s.Moves .draining ↔ s = .streaming ∨ s = .draining := by
  cases s <;> decide

/-- The machine fails from every live state. -/
theorem moves_errored_iff {s : SessionState} :
    s.Moves .errored ↔ s.live = true ∨ s = .errored := by
  cases s <;> decide

end SessionState

namespace Heartbeat

/-- The session that a message creates. -/
def createdBy (env : Env) (hb : Heartbeat) : Message → List String
  | .request req =>
    match admission env req hb with
    | .onSession handle => if handle.reused then [] else [handle.sessionId]
    | _ => []
  | _ => []

end Heartbeat

/-- The state a session had before a step: a session created by the step was `cold`. -/
def SessionPool.stateBefore (pool : SessionPool) (created : List String) (sid : String) :
    SessionState :=
  if sid ∈ created then .cold else ((pool.get sid).map SessionRecord.state).getD .cold

/-- Every session has kept its state or left it along an edge. -/
def SessionPool.Follows (created : List String) (pool pool' : SessionPool) : Prop :=
  ∀ sid s', pool'.get sid = some s' → (pool.stateBefore created sid).Moves s'.state

instance (created : List String) (pool pool' : SessionPool) :
    Decidable (pool.Follows created pool') :=
  decidable_of_iff (∀ sid ∈ pool'.sessions.keys, ∀ s' ∈ pool'.get sid,
    (pool.stateBefore created sid).Moves s'.state) <| by
      refine ⟨fun hkeys sid s' hs' => ?_, fun hfollows sid _ s' hs' => hfollows sid s' hs'⟩
      exact hkeys sid (AList.mem_keys.mp (Table.mem_iff_lookup.mpr ⟨s', hs'⟩)) s' hs'

/-- The state before a step of a session that the step does not create. -/
theorem SessionPool.stateBefore_of_get {pool : SessionPool} {created : List String} {sid : String}
    {s : SessionRecord} (hs : pool.get sid = some s) (hnot : sid ∉ created) :
    pool.stateBefore created sid = s.state := by
  simp [SessionPool.stateBefore, hs, hnot]

namespace History

variable {env : Env} {h : History} {sid : String} {s s' : SessionRecord}
  {inputs : List TickInput}

/-- A step of the documented machine on every session. The end of a tick is judged after the
emission pass and again after the evolution of the board. -/
def Conforms (env : Env) (h : History) : Step → Prop
  | .begin => True
  | .message m => h.hb.board.sessionPool.Follows (createdBy env h.hb m)
      (step env h (.message m)).hb.board.sessionPool
  | .finish inp => h.hb.board.sessionPool.Follows [] (emitReady h.hb).board.sessionPool ∧
      (emitReady h.hb).board.sessionPool.Follows []
        (step env h (.finish inp)).hb.board.sessionPool

instance (env : Env) (h : History) : ∀ l, Decidable (Conforms env h l)
  | .begin => .isTrue trivial
  | .message _ => inferInstanceAs (Decidable (SessionPool.Follows _ _ _))
  | .finish _ => inferInstanceAs (Decidable (SessionPool.Follows _ _ _ ∧ SessionPool.Follows _ _ _))

/-- A step in whose order the documented machine works: a connection is only reported for a
session that is connecting or ready, and when a tick ends, the requests that are ready to be
emitted are on sessions that are streaming or draining. Sessions that are not in the pool do
not matter. -/
def InTurn (h : History) : Step → Prop
  | .message (.response rsp) => rsp.kind = .connected →
      ∀ s ∈ h.hb.board.sessionPool.get rsp.sessionId, s.state = .connecting ∨ s.state = .ready
  | .finish _ => ∀ rid ∈ h.hb.board.pending.findReadyToEmit, ∀ p ∈ h.hb.board.pending.get rid,
      ∀ s ∈ h.hb.board.sessionPool.get p.sessionId, s.state = .streaming ∨ s.state = .draining
  | _ => True

/-- What a message does to the state of a session: it creates the session, or it changes the
state by reuse, by a connection or by a failure, or it leaves it. It never sets the creation
time. -/
theorem step_message_state (hwf : h.hb.PoolWf) {m : Message}
    (hs' : (step env h (.message m)).hb.board.sessionPool.get sid = some s') :
    (sid ∈ createdBy env h.hb m ∧ s'.createdAt = 0 ∧ s'.state = .connecting) ∨
      (sid ∉ createdBy env h.hb m ∧ ∃ s, h.hb.board.sessionPool.get sid = some s ∧
        s'.createdAt = s.createdAt ∧
        (s'.state = s.state ∨ (s.state = .ready ∧ s'.state = .streaming) ∨
          ∃ rsp, m = .response rsp ∧ rsp.sessionId = sid ∧
            ((rsp.kind = .connected ∧ s'.state = .ready) ∨
              (rsp.kind = .taskFailed ∧ s'.state = .errored)))) := by
  cases m with
  | request req =>
    rcases @handleRequest_effect env h.hb req hwf.wellKeyed hwf.named with
      ⟨hdecision, heffect⟩ | ⟨hdecision, heffect⟩ | ⟨handle, s, hdecision, heffect⟩
    · have hnone : createdBy env h.hb (.request req) = [] := by
        rcases hdecision with hdecision | hdecision <;> simp [createdBy, hdecision]
      rw [hnone]
      simp only [step, handleMessage] at hs'
      rw [heffect.sessionPool] at hs'
      exact Or.inr ⟨List.not_mem_nil, s', hs', rfl, Or.inl rfl⟩
    · have hnone : createdBy env h.hb (.request req) = [] := by simp [createdBy, hdecision]
      rw [hnone]
      simp only [step, handleMessage] at hs'
      rw [heffect.sessionPool] at hs'
      exact Or.inr ⟨List.not_mem_nil, s', hs', rfl, Or.inl rfl⟩
    · simp only [step, handleMessage] at hs'
      rw [heffect.session] at hs'
      simp only [createdBy, hdecision]
      rcases heffect.acquired with ⟨hreused, idle, hidle, hready, rfl⟩ | ⟨hnew, -, rfl⟩
      · rw [hreused, if_pos rfl]
        refine Or.inr ⟨List.not_mem_nil, ?_⟩
        split at hs'
        · rename_i heq
          subst heq
          obtain rfl := Option.some.inj hs'
          exact ⟨idle, hidle, rfl, Or.inr (Or.inl ⟨hready, rfl⟩)⟩
        · exact ⟨s', hs', rfl, Or.inl rfl⟩
      · simp only [hnew, Bool.false_eq_true, if_false, List.mem_singleton]
        split at hs'
        · rename_i heq
          obtain rfl := Option.some.inj hs'
          exact Or.inl ⟨heq, rfl, rfl⟩
        · rename_i hne
          exact Or.inr ⟨hne, s', hs', rfl, Or.inl rfl⟩
  | response rsp =>
    right
    refine ⟨List.not_mem_nil, ?_⟩
    simp only [step, handleMessage] at hs'
    rw [handleResponse_get_session] at hs'
    split at hs'
    · rename_i hkind
      split at hs'
      · rename_i heq
        obtain ⟨s, hs, rfl⟩ := Option.map_eq_some_iff.mp hs'
        exact ⟨s, hs, rfl, Or.inr (Or.inr ⟨rsp, rfl, heq.symm, Or.inl ⟨hkind, rfl⟩⟩)⟩
      · exact ⟨s', hs', rfl, Or.inl rfl⟩
    · rename_i hkind
      split at hs'
      · rename_i heq
        obtain ⟨s, hs, rfl⟩ := Option.map_eq_some_iff.mp hs'
        exact ⟨s, hs, rfl, Or.inr (Or.inr ⟨rsp, rfl, heq.symm, Or.inr ⟨hkind, rfl⟩⟩)⟩
      · exact ⟨s', hs', rfl, Or.inl rfl⟩
    · split at hs'
      · cases hs'
      · exact ⟨s', hs', rfl, Or.inl rfl⟩
    · exact ⟨s', hs', rfl, Or.inl rfl⟩
  | cancel msg => exact Or.inr ⟨List.not_mem_nil, s', hs', rfl, Or.inl rfl⟩
  | localComplete c => exact Or.inr ⟨List.not_mem_nil, s', hs', rfl, Or.inl rfl⟩
  | localFailed f => exact Or.inr ⟨List.not_mem_nil, s', hs', rfl, Or.inl rfl⟩

/-- The sessions of the pool are live or have failed. -/
structure Populated (h : History) : Prop where
  poolWf : h.hb.PoolWf
  state : ∀ {sid s}, h.hb.board.sessionPool.get sid = some s →
    s.state.live = true ∨ s.state = .errored

/-- The sessions after the emission pass: those of emitted requests drain. -/
theorem emitReady_state (hs' : (emitReady h.hb).board.sessionPool.get sid = some s') :
    ∃ s, h.hb.board.sessionPool.get sid = some s ∧
      (s'.state = s.state ∨ (s'.state = .draining ∧
        ∃ rid p, rid ∈ h.hb.board.pending.findReadyToEmit ∧
          h.hb.board.pending.get rid = some p ∧ p.sessionId = sid)) := by
  rw [emitReady_emitted.session] at hs'
  obtain ⟨s, hs, rfl⟩ := Option.map_eq_some_iff.mp hs'
  refine ⟨s, hs, ?_⟩
  split
  · rename_i hmem
    obtain ⟨⟨rid, p⟩, hemission, hsid⟩ := List.mem_map.mp hmem
    obtain ⟨hp, hready⟩ := mem_emissions.mp hemission
    exact Or.inr
      ⟨rfl, rid, p, PendingRequestStore.mem_findReadyToEmit.mpr ⟨p, hp, hready⟩, hp, hsid⟩
  · exact Or.inl rfl

/-- Every step keeps the sessions live or failed. -/
theorem Populated.step (hpop : h.Populated) (l : Step) : (step env h l).Populated := by
  refine ⟨step_poolWf hpop.poolWf l, fun {sid s'} hs' => ?_⟩
  cases l with
  | begin => exact hpop.state hs'
  | finish inp =>
    obtain ⟨hs', -⟩ := (finishTick_get_session hpop.poolWf.wellKeyed).mp hs'
    obtain ⟨s, hs, hsame | ⟨hdrains, -⟩⟩ := emitReady_state hs'
    · rw [hsame]
      exact hpop.state hs
    · rw [hdrains]
      exact Or.inl rfl
  | message m =>
    rcases step_message_state hpop.poolWf hs' with ⟨-, -, hnew⟩ | ⟨-, s, hs, -, hchange⟩
    · rw [hnew]
      exact Or.inl rfl
    · rcases hchange with hsame | ⟨-, hreused⟩ | ⟨rsp, -, -, ⟨-, hready⟩ | ⟨-, herrored⟩⟩
      · rw [hsame]
        exact hpop.state hs
      · rw [hreused]
        exact Or.inl rfl
      · rw [hready]
        exact Or.inl rfl
      · exact Or.inr herrored

/-- The end of a tick follows the machine exactly when it comes in turn. -/
theorem conforms_finish_iff (hwf : h.hb.PoolWf) (inp : TickInput) :
    Conforms env h (.finish inp) ↔ InTurn h (.finish inp) := by
  constructor
  · rintro ⟨hemits, -⟩ rid hrid p hp s hs
    obtain ⟨p', hp', hready⟩ := PendingRequestStore.mem_findReadyToEmit.mp hrid
    obtain rfl := Option.some.inj (hp.symm.trans hp')
    have hmem : p.sessionId ∈ (emissions h.hb).map fun e => e.2.sessionId :=
      List.mem_map.mpr ⟨(rid, p), mem_emissions.mpr ⟨hp, hready⟩, rfl⟩
    have hdrains : (emitReady h.hb).board.sessionPool.get p.sessionId =
        some { s with state := .draining } := by
      rw [emitReady_emitted.session, hs, Option.map_some, if_pos hmem]
    have hmoves := hemits p.sessionId _ hdrains
    rw [SessionPool.stateBefore_of_get hs List.not_mem_nil] at hmoves
    exact SessionState.moves_draining_iff.mp hmoves
  · intro hturn
    constructor
    · intro sid s' hs'
      obtain ⟨s, hs, hchange⟩ := emitReady_state hs'
      rw [SessionPool.stateBefore_of_get hs List.not_mem_nil]
      rcases hchange with hsame | ⟨hdrains, rid, p, hrid, hp, rfl⟩
      · exact Or.inl hsame
      · rw [hdrains]
        exact SessionState.moves_draining_iff.mpr (hturn rid hrid p hp s hs)
    · -- evolution closes sessions and leaves the records of the others
      intro sid s' hs'
      obtain ⟨hs', -⟩ := (finishTick_get_session hwf.wellKeyed).mp hs'
      rw [SessionPool.stateBefore_of_get hs' List.not_mem_nil]
      exact Or.inl rfl

/-- A message follows the machine exactly when it comes in turn. -/
theorem conforms_message_iff (hpop : h.Populated) (m : Message) :
    Conforms env h (.message m) ↔ InTurn h (.message m) := by
  constructor
  · intro hfollows
    cases m with
    | response rsp =>
      intro hkind s hs
      have hready : (step env h (.message (.response rsp))).hb.board.sessionPool.get rsp.sessionId =
          some { s with state := .ready, lastActiveAt := env.steadyClock h.hb.steadyReads } := by
        simp only [step, handleMessage]
        rw [handleResponse_get_session, hkind]
        simp [Option.mem_def.mp hs]
      have hnot : rsp.sessionId ∉ createdBy env h.hb (.response rsp) := List.not_mem_nil
      have hmoves := hfollows rsp.sessionId _ hready
      rw [SessionPool.stateBefore_of_get hs hnot] at hmoves
      exact SessionState.moves_ready_iff.mp hmoves
    | request req => trivial
    | cancel msg => trivial
    | localComplete c => trivial
    | localFailed f => trivial
  · intro hturn sid s' hs'
    rcases step_message_state hpop.poolWf hs' with ⟨hcreated, -, hnew⟩ | ⟨hnot, s, hs, -, hchange⟩
    · rw [SessionPool.stateBefore, if_pos hcreated, hnew]
      exact Or.inr rfl
    · rw [SessionPool.stateBefore_of_get hs hnot]
      rcases hchange with
        hsame | ⟨hready, hreused⟩ | ⟨rsp, rfl, rfl, ⟨hkind, hready⟩ | ⟨-, herrored⟩⟩
      · exact Or.inl hsame
      · rw [hready, hreused]
        exact Or.inr rfl
      · rw [hready]
        exact SessionState.moves_ready_iff.mpr (hturn hkind s hs)
      · rw [herrored]
        exact SessionState.moves_errored_iff.mpr (hpop.state hs)

/-- A run from an empty board follows the documented machine on every session exactly when its
connections and emissions come in turn. -/
theorem state_machine_iff (env : Env) (maxSize : Nat) (idleTimeout maxLifetime : Duration)
    (inputs : List TickInput) :
    Along (step env) (Conforms env) { hb := start maxSize idleTimeout maxLifetime }
        (stepsOf inputs) ↔
      Along (step env) InTurn { hb := start maxSize idleTimeout maxLifetime } (stepsOf inputs) := by
  have hstart : Populated { hb := start maxSize idleTimeout maxLifetime } :=
    ⟨start_poolWf maxSize idleTimeout maxLifetime, fun hs => by
      simp [start, DataBoard.empty, SessionPool.get] at hs⟩
  refine along_congr_of_invariant hstart (fun h l hpop _ => hpop.step l) fun h l hpop => ?_
  cases l with
  | begin => exact Iff.rfl
  | message m => exact conforms_message_iff hpop m
  | finish inp => exact conforms_finish_iff hpop.poolWf inp

/-- A session that fails and then reports a connection in the same tick. -/
def revivedRun : List TickInput :=
  [{ requests := [.request { requestId := "a" }] },
   { events := [.response { sessionId := "s-0000000000000000", kind := .taskFailed },
      .response { sessionId := "s-0000000000000000", kind := .connected }] }]

/-- The failed session is ready again after this run. -/
theorem revivedRun_leaves_machine :
    ¬Along (step sampleEnv) (Conforms sampleEnv) { hb := start 16 (seconds 60) (seconds 3600) }
      (stepsOf revivedRun) ∧
    ((run sampleEnv (start 16 (seconds 60) (seconds 3600)) revivedRun).2.board.sessionPool.get
      "s-0000000000000000").map SessionRecord.state = some .ready :=
  ⟨by decide +kernel, by decide +kernel⟩

end History

end TtsServer
