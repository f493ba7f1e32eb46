import TtsServer.ChunkAssembly

/-!
# Cleanup after a lost connection

When a tick has handled the loss of a session, the session is gone from the pool and
no request is bound to it: the handler removes the session and fails its requests,
and the sweep at the end of the tick drops them. The bystanders of such a tick are
the pending requests that no message names. A failed or lost session reaches
requests through their binding, so a bystander is safe from it, but a chunk reaches
the request that its session names, and a request that was admitted twice is still
named by the session it was bound to first.
-/

namespace TtsServer

open Lib History

/-- The message carries the identifier of the request. -/
def Message.NamesRequest (rid : String) : Message → Prop
  | .request req => req.requestId = rid
  | .response rsp => rsp.requestId = rid
  | .cancel msg => msg.requestId = rid
  | .localComplete c => c.requestId = rid
  | .localFailed f => f.requestId = rid

/-- The message carries the identifier of the session; an answer of the local engine whose
field is empty names none. -/
def Message.NamesSession (sid : String) : Message → Prop
  | .response rsp => rsp.sessionId = sid
  | .localComplete c => c.sessionId = sid ∧ sid ≠ ""
  | .localFailed f => f.sessionId = sid ∧ sid ≠ ""
  | _ => False

namespace Heartbeat

/-- A pending request that no message of a batch names, and neither its session. -/
structure Bystander (hb : Heartbeat) (batch : List Message) (rid : String) (p : PendingRequest) :
    Prop where
  pending : hb.board.pending.get rid = some p
  unnamed : ∀ m ∈ batch, ¬m.NamesRequest rid ∧ ¬m.NamesSession p.sessionId

/-- What is to hold after a tick that has handled the loss of a session. -/
structure CleanedUp (sid : String) (batch : List Message) (hb hb' : Heartbeat) : Prop where
  absent : hb'.board.sessionPool.get sid = none
  unlisted : sid ∉ hb'.board.sessionPool.lru
  unbound : ∀ {rid p}, hb'.board.pending.get rid = some p → p.sessionId ≠ sid
  bystanders : ∀ {rid p}, Bystander hb batch rid p → ∃ p',
    hb'.board.pending.get rid = some p' ∧ p'.state = p.state ∧ p'.sessionId = p.sessionId ∧
      p'.accumulatedAudio = p.accumulatedAudio

/-- The message, handled in the second state, hands no bystander of the first any audio, nor
the final chunk that a streaming request waits for. -/
def SparesBystanders (hb₀ : Heartbeat) (batch : List Message) (hb : Heartbeat) (m : Message) :
    Prop :=
  ∀ rid p, Bystander hb₀ batch rid p → ∀ e ∈ hb.heardFrom rid m,
    e.audio = [] ∧ (e.isFinal = true → p.state ≠ .streaming)

variable {env : Env} {hb : Heartbeat} {rid sid : String} {p : PendingRequest} {inp : TickInput}
  {e : TtsResponseMsg} {ms : List Message}

/-! ### The lost session -/

/-- The session is gone, and the requests that were bound to it are about to be swept. -/
structure Gone (sid : String) (hb : Heartbeat) : Prop where
  absent : hb.board.sessionPool.get sid = none
  unlisted : sid ∉ hb.board.sessionPool.lru
  ended : ∀ {rid p}, hb.board.pending.get rid = some p → p.sessionId = sid →
    p.state.terminal = true

/-- An upstream event lists no session that is not in the pool. -/
theorem handleResponse_unlisted (habsent : hb.board.sessionPool.get sid = none)
    (hunlisted : sid ∉ hb.board.sessionPool.lru) :
    sid ∉ (handleResponse env e hb).board.sessionPool.lru := by
  by_cases hkind : e.kind = .connected
  · simp only [handleResponse, hkind, SessionPool.markReady, SessionPool.markAndPromote]
    cases hget : hb.board.sessionPool.get e.sessionId with
    | none => exact hunlisted
    | some s =>
      have hother : sid ≠ e.sessionId := by
        rintro rfl
        rw [habsent] at hget
        cases hget
      simp [SessionPool.moveToFrontLocked, SessionPool.mark, hother, hunlisted]
  · rw [handleResponse_sessionPool hkind]
    cases e.kind <;>
      simp [SessionPool.markErrored, SessionPool.mark, SessionPool.markClosed, hunlisted]

/-- The loss of a session removes it and ends its requests. -/
theorem gone_of_disconnected (hkind : e.kind = .disconnected) :
    Gone e.sessionId (handleResponse env e hb) where
  absent := by simp [handleResponse_get_session, hkind]
  unlisted := by
    rw [handleResponse_sessionPool (by simp [hkind]), hkind]
    simp [SessionPool.markClosed]
  ended := by
    intro rid p hp hsession
    obtain ⟨p₀, hp₀, hsame, -⟩ := exists_pending_of_handleResponse hp
    refine handleResponse_ended (fun q hq => ?_) p hp
    obtain rfl := Option.some.inj (hp₀.symm.trans hq)
    simp [TtsResponseMsg.ends, hsame.trans hsession, hkind]

/-- Later events leave it so. -/
theorem Gone.response (h : Gone sid hb) : Gone sid (handleResponse env e hb) where
  absent := by
    rw [handleResponse_get_session, h.absent]
    cases e.kind <;> simp
  unlisted := handleResponse_unlisted h.absent h.unlisted
  ended := by
    intro rid p hp hsession
    obtain ⟨p₀, hp₀, hsame, hkept⟩ := exists_pending_of_handleResponse hp
    exact hkept (h.ended hp₀ (hsame.trans hsession))

/-- The end of the tick sweeps the requests of the lost session. -/
theorem Gone.finish (h : Gone sid hb) (hpool : hb.board.sessionPool.WellKeyed) :
    (finishTick inp hb).2.board.sessionPool.get sid = none ∧
      sid ∉ (finishTick inp hb).2.board.sessionPool.lru ∧
      ∀ {rid p}, (finishTick inp hb).2.board.pending.get rid = some p → p.sessionId ≠ sid := by
  refine ⟨?_, ?_, fun {rid p} hp hsession => ?_⟩
  · rw [Option.eq_none_iff_forall_ne_some]
    intro s hs
    have hemitted := ((finishTick_get_session hpool).mp hs).1
    rw [emitReady_emitted.session, h.absent] at hemitted
    cases hemitted
  · have hlru : (emitReady hb).board.sessionPool.lru = hb.board.sessionPool.lru := by
      refine foldl_proj (fun hb : Heartbeat => hb.board.sessionPool.lru) fun hb rid => ?_
      unfold emitCompleted
      cases hb.board.pending.get rid <;> rfl
    rw [finishTick_board.2.1, evolved, evolve_lru (emitReady_emitted.wellKeyed hpool), hlru]
    exact fun hmem => h.unlisted (List.mem_of_mem_filter hmem)
  · obtain ⟨hp, -, hterminal⟩ := finishTick_get_pending.mp hp
    rw [h.ended hp hsession] at hterminal
    cases hterminal

/-- A batch that ends with events, the loss of the session among them. -/
theorem gone_of_batch {events : List Message}
    (hevents : ∀ m ∈ events, ∃ rsp, m = .response rsp) (hkind : e.kind = .disconnected)
    (hmem : .response e ∈ events) :
    Gone e.sessionId (events.foldl (handleMessage env) hb) := by
  obtain ⟨before, after, rfl⟩ := List.append_of_mem hmem
  rw [List.foldl_append, List.foldl_cons]
  have hafter : ∀ m ∈ after, ∃ rsp, m = .response rsp :=
    fun m hm => hevents m (List.mem_append_right _ (List.mem_cons_of_mem _ hm))
  have hgone : Gone e.sessionId
      (handleMessage env (before.foldl (handleMessage env) hb) (.response e)) :=
    gone_of_disconnected hkind
  generalize handleMessage env (before.foldl (handleMessage env) hb) (.response e) = hb' at hgone
  clear hevents hmem
  induction after generalizing hb' with
  | nil => exact hgone
  | cons m after ih =>
    obtain ⟨rsp, rfl⟩ := hafter m List.mem_cons_self
    exact ih (fun m hm => hafter m (List.mem_cons_of_mem _ hm)) _ hgone.response

/-! ### The bystanders -/

/-- A property of the chunks received, read message by message. -/
theorem forall_mem_received {P : TtsResponseMsg → Prop} :
    (∀ e ∈ received env rid hb ms, P e) ↔
      Along (handleMessage env) (fun hb m => ∀ e ∈ hb.heardFrom rid m, P e) hb ms := by
  induction ms generalizing hb with
  | nil => simp [received, Along]
  | cons m ms ih => simp [received, Along, or_imp, forall_and, ih]

/-- A batch that spares a request hands it chunks and nothing else. -/
theorem Heard.batch {chunks : List TtsResponseMsg} (h : Heard rid p chunks hb) (hwf : hb.PoolWf)
    (hms : ∀ m ∈ ms, Spares rid p.sessionId m) :
    Heard rid p (chunks ++ received env rid hb ms) (ms.foldl (handleMessage env) hb) := by
  induction ms generalizing hb chunks with
  | nil => simpa [received] using h
  | cons m ms ih =>
    have hnext := @Heard.message env _ _ _ _ m h hwf.wellKeyed (hms m List.mem_cons_self)
    have hrest := ih hnext (handleMessage_poolWf hwf m)
      fun m' hm' => hms m' (List.mem_cons_of_mem _ hm')
    rwa [List.append_assoc] at hrest

/-- The messages of a batch spare its bystanders and their sessions. -/
theorem Bystander.spares (h : Bystander hb ms rid p) :
    ∀ m ∈ ms, Spares rid p.sessionId m := by
  intro m hm
  obtain ⟨hrequest, hsession⟩ := h.unnamed m hm
  refine ⟨?_, ?_, ?_, fun rsp hrsp heq => ?_⟩
  · cases m <;> simp_all [Message.requestId?, Message.NamesRequest]
  · cases m <;> simp_all [Message.answerId?, Message.NamesRequest]
  · cases m <;> simp_all [Message.cancelId?, Message.NamesRequest]
  · subst hrsp
    exact absurd heq hsession

/-- A bystander survives the end of the tick as it was exactly if the chunks it has received
bring no audio and do not complete it. -/
theorem Heard.undisturbed_iff {got : List TtsResponseMsg} (h : Heard rid p got hb)
    (hready : p.readyToEmit = false) (hterminal : p.state.terminal = false) :
    (∃ p', (finishTick inp hb).2.board.pending.get rid = some p' ∧ p'.state = p.state ∧
      p'.sessionId = p.sessionId ∧ p'.accumulatedAudio = p.accumulatedAudio) ↔
      ∀ e ∈ got, e.audio = [] ∧ (e.isFinal = true → p.state ≠ .streaming) := by
  obtain ⟨q, hq, huntimed⟩ := Option.map_eq_some_iff.mp h
  have hstate : q.state = p.state := by
    change q.untimed.state = (p.hear got).state
    rw [huntimed]
  have hsession : q.sessionId = p.sessionId := by
    change q.untimed.sessionId = (p.hear got).sessionId
    rw [huntimed]
  have haudio : q.accumulatedAudio = p.accumulatedAudio ++ got.flatMap TtsResponseMsg.audio :=
    congrArg PendingRequest.accumulatedAudio huntimed
  have hfinal : q.finalReceived = (p.finalReceived || got.any (·.isFinal)) :=
    congrArg PendingRequest.finalReceived huntimed
  have hqready : q.readyToEmit = false ↔ ∀ e ∈ got, e.isFinal = true → p.state ≠ .streaming := by
    simp only [PendingRequest.readyToEmit, hstate, hfinal] at hready ⊢
    by_cases hstreaming : p.state = .streaming
    · simp_all
    · simp [hstreaming]
  have hsilent : q.accumulatedAudio = p.accumulatedAudio ↔ ∀ e ∈ got, e.audio = [] := by
    simp [haudio]
  rw [forall₂_and, ← hqready, ← hsilent]
  constructor
  · rintro ⟨p', hp', -, -, hsame⟩
    obtain ⟨hget, hnot, -⟩ := finishTick_get_pending.mp hp'
    obtain rfl := Option.some.inj (hq.symm.trans hget)
    exact ⟨hsame, hnot⟩
  · rintro ⟨hsame, hnot⟩
    exact ⟨q, finishTick_get_pending.mpr ⟨hq, hnot, hstate ▸ hterminal⟩, hstate, hsession, hsame⟩

/-- Between ticks no request is ready to be emitted. -/
theorem run_not_readyToEmit {maxSize : Nat} {idleTimeout maxLifetime : Duration}
    {inputs : List TickInput}
    (hp : (run env (start maxSize idleTimeout maxLifetime) inputs).2.board.pending.get rid =
      some p) :
    p.readyToEmit = false := by
  rw [run_eq_foldl] at hp
  rcases List.eq_nil_or_concat inputs with rfl | ⟨inputs, inp, rfl⟩
  · simp [start, DataBoard.empty, PendingRequestStore.get] at hp
  · rw [List.concat_eq_append, List.foldl_append] at hp
    exact (finishTick_get_pending.mp hp).2.1

/-- Disconnect cleanup: the lost session is gone with its requests, and the bystanders are as
they were exactly if no chunk of the batch disturbs one of them. -/
theorem disconnect_cleanup_iff (env : Env) (maxSize : Nat) (idleTimeout maxLifetime : Duration)
    (inputs : List TickInput) (inp : TickInput) (e : TtsResponseMsg)
    (hevents : ∀ m ∈ inp.events, ∃ rsp, m = .response rsp) (hkind : e.kind = .disconnected)
    (hmem : .response e ∈ inp.events) :
    let hb := (run env (start maxSize idleTimeout maxLifetime) inputs).2
    CleanedUp e.sessionId inp.batch hb (tick env inp hb).2 ↔
      Along (handleMessage env) (SparesBystanders hb inp.batch) hb.beginTick inp.batch := by
  intro hb
  have hbetween : BetweenTicks hb := betweenTicks_run maxSize idleTimeout maxLifetime
  have hwf : hb.beginTick.PoolWf := hbetween.poolWf.beginTick
  have hmid := @foldl_handleMessage_poolWf env hb.beginTick hwf inp.batch
  have hgone : Gone e.sessionId (inp.batch.foldl (handleMessage env) hb.beginTick) := by
    rw [TickInput.batch, List.foldl_append]
    exact gone_of_batch hevents hkind hmem
  have hbystander : ∀ {rid p}, Bystander hb inp.batch rid p →
      ((∃ p', (tick env inp hb).2.board.pending.get rid = some p' ∧ p'.state = p.state ∧
        p'.sessionId = p.sessionId ∧ p'.accumulatedAudio = p.accumulatedAudio) ↔
        Along (handleMessage env) (fun hb m => ∀ e ∈ hb.heardFrom rid m,
          e.audio = [] ∧ (e.isFinal = true → p.state ≠ .streaming)) hb.beginTick inp.batch) := by
    intro rid p hstands
    have hheard : Heard rid p [] hb.beginTick := by
      rw [Heard, show hb.beginTick.board = hb.board from rfl, hstands.pending, Option.map_some,
        PendingRequest.hear_nil]
    rw [← forall_mem_received]
    exact (hheard.batch hwf hstands.spares).undisturbed_iff (run_not_readyToEmit hstands.pending)
      (hbetween.alive hstands.pending)
  have hspares_iff : Along (handleMessage env) (SparesBystanders hb inp.batch) hb.beginTick
      inp.batch ↔ ∀ rid p, Bystander hb inp.batch rid p → Along (handleMessage env)
        (fun hb m => ∀ e ∈ hb.heardFrom rid m,
          e.audio = [] ∧ (e.isFinal = true → p.state ≠ .streaming)) hb.beginTick inp.batch :=
    along_forall.trans (forall_congr' fun _ => along_forall.trans (forall_congr' fun _ =>
      along_forall))
  rw [hspares_iff]
  obtain ⟨habsent, hunlisted, hunbound⟩ := @Gone.finish _ _ inp hgone hmid.wellKeyed
  constructor
  · intro hcleaned rid p hstands
    exact (hbystander hstands).mp (hcleaned.bystanders hstands)
  · intro hspares
    exact ⟨habsent, hunlisted, hunbound,
      fun hstands => (hbystander hstands).mpr (hspares _ _ hstands)⟩

/-- Two requests, each on a session of its own. -/
def twoSessions : List TickInput :=
  [{ requests := [.request { requestId := "a" }, .request { requestId := "b" }] }]

/-- One request identifier admitted twice, as a client stream does it for its second chunk. -/
def admittedTwice : List TickInput :=
  [{ requests := [.request { requestId := "cli-1" }, .request { requestId := "cli-1" }] }]

/-- The loss of the first session that was created. -/
def firstLost : TtsResponseMsg := { sessionId := "s-0000000000000000", kind := .disconnected }

/-- The loss of one session leaves the request on the other alone. -/
theorem disconnect_cleanup_twoSessions :
    let hb := (run sampleEnv (start 16 (seconds 60) (seconds 3600)) twoSessions).2
    CleanedUp "s-0000000000000000" [.response firstLost] hb
      (tick sampleEnv { events := [.response firstLost] } hb).2 := by
  refine (disconnect_cleanup_iff sampleEnv 16 (seconds 60) (seconds 3600) twoSessions
    { events := [.response firstLost] } firstLost (by simp) rfl (by simp)).mpr ⟨?_, trivial⟩
  intro rid p _ e he
  simp [heardFrom, firstLost] at he

/-- After a second admission under the same identifier, a chunk on the first session changes
the audio of the request, although the request is bound to the other session. -/
theorem admittedTwice_disturbed :
    let hb := (run sampleEnv (start 16 (seconds 60) (seconds 3600)) admittedTwice).2
    let inp : TickInput := { events := [
      .response { sessionId := "s-0000000000000000", audioHex := ascii "0a" },
      .response firstLost] }
    ¬CleanedUp "s-0000000000000000" inp.batch hb (tick sampleEnv inp hb).2 := by
  intro hb inp hcleaned
  have hstands : ∃ p, Bystander hb inp.batch "cli-1" p ∧ p.accumulatedAudio = [] := by
    have hget : ∃ p, hb.board.pending.get "cli-1" = some p ∧
        p.sessionId = "s-0000000000000001" ∧ p.accumulatedAudio = [] := ⟨_, rfl, rfl, rfl⟩
    obtain ⟨p, hp, hsession, haudio⟩ := hget
    refine ⟨p, ⟨hp, fun m hm => ?_⟩, haudio⟩
    rw [hsession]
    simp only [inp, TickInput.batch, List.nil_append, List.mem_cons, List.not_mem_nil, or_false]
      at hm
    rcases hm with rfl | rfl <;> simp [Message.NamesRequest, Message.NamesSession, firstLost]
  obtain ⟨p, hstands, haudio⟩ := hstands
  obtain ⟨p', hp', -, -, hsame⟩ := hcleaned.bystanders hstands
  have hchanged : ((tick sampleEnv inp hb).2.board.pending.get "cli-1").map
      (·.accumulatedAudio) = some [0x0a] := by decide +kernel
  rw [hp', Option.map_some, hsame, haudio] at hchanged
  cases hchanged

end Heartbeat

end TtsServer
