import Mathlib.Data.UInt
import TtsServer.Routing

/-!
# The bytes written to clients

The length of the audio of a pending request is kept twice, in the audio itself and
in a counter beside it. Chunks extend both, a request that is admitted again keeps
or resets both, and the emission pass reports the counter. The metric of emitted
bytes is fed from the audio of a local answer and from the counter of an emission;
it is the total length of all audio written so far, modulo the width of the metric.
-/

namespace TtsServer

open Lib Heartbeat

/-- The number of bytes of audio in a list of writes. -/
def audioLength (ws : List WriteToClient) : Nat := (ws.map fun w => w.audio.length).sum

/-- The audio of consecutive writes. -/
@[simp] theorem audioLength_append (ws ws' : List WriteToClient) :
    audioLength (ws ++ ws') = audioLength ws + audioLength ws' := by
  simp [audioLength]

/-- A pending request whose counter is the length of its audio. -/
def PendingRequest.Measured (p : PendingRequest) : Prop :=
  p.cumulativeBytes = p.accumulatedAudio.length

/-- A write that reports the length of its audio. -/
def WriteToClient.Measured (w : WriteToClient) : Prop := w.cumulativeBytes = w.audio.length

namespace Heartbeat

variable {env : Env} {hb : Heartbeat} {req : TtsRequestMsg} {rid : String}

/-! ### Handlers -/

/-- A request moves no gauge but the backpressure level and the inflight counter. -/
theorem handleRequest_metrics (env : Env) (req : TtsRequestMsg) (hb : Heartbeat) :
    ∃ level inflight, (handleRequest env req hb).board.metrics =
      { hb.board.metrics with backpressure := level, inflight := inflight } := by
  obtain ⟨level, hlevel⟩ := evaluate_metrics env hb.board.metrics
  refine ⟨level, ?_⟩
  unfold handleRequest
  simp only [hlevel]
  split
  · exact ⟨hb.board.metrics.inflight, rfl⟩
  · split
    · exact ⟨hb.board.metrics.inflight + 1, rfl⟩
    · obtain ⟨pool, reads, draws, hframe, -, -⟩ := acquire_frame env
        { hb with board.metrics := hb.board.metrics.setBackpressureLevel level }
      unfold admitUpstream
      simp only [hframe]
      split
      · exact ⟨hb.board.metrics.inflight, rfl⟩
      · exact ⟨hb.board.metrics.inflight + 1, rfl⟩

/-- An upstream event does not touch the byte metric. -/
theorem handleResponse_audioBytes {rsp : TtsResponseMsg} :
    (handleResponse env rsp hb).board.metrics.audioBytes = hb.board.metrics.audioBytes := by
  unfold handleResponse
  cases rsp.kind with
  | connected => rfl
  | taskStarted => rfl
  | audioChunk =>
    simp only [handleAudioChunk]
    split <;> rfl
  | taskFinished => rfl
  | taskFailed =>
    exact foldl_proj (fun hb : Heartbeat => hb.board.metrics.audioBytes) fun _ _ => rfl
  | disconnected =>
    exact foldl_proj (fun hb : Heartbeat => hb.board.metrics.audioBytes) fun _ _ => rfl

/-- A message adds to the metric the audio of the write with which it answers a job. -/
theorem handleMessage_audioBytes (m : Message) :
    (handleMessage env hb m).board.metrics.audioBytes =
      hb.board.metrics.audioBytes + UInt64.ofNat (audioLength (answerWrite m).toList) := by
  cases m with
  | request req =>
    obtain ⟨level, inflight, hmetrics⟩ := handleRequest_metrics env req hb
    simp [handleMessage, hmetrics, answerWrite, audioLength]
  | response rsp => simp [handleMessage, handleResponse_audioBytes, answerWrite, audioLength]
  | cancel msg => simp [handleMessage, handleCancel, answerWrite, audioLength]
  | localComplete c =>
    simp [handleMessage, handleLocalComplete, MetricsSnapshot.addAudioBytes,
      MetricsSnapshot.decInflight, answerWrite, audioLength, completeWrite]
  | localFailed f =>
    -- the one emitter that does not touch the metric: its write carries no audio
    simp [handleMessage, handleLocalFailed, MetricsSnapshot.incFailedRequests,
      MetricsSnapshot.decInflight, answerWrite, audioLength, failedWrite]

/-- The answers of the local engine report the length of their audio. -/
theorem answerWrite_measured {m : Message} {w : WriteToClient} (hw : answerWrite m = some w) :
    w.Measured := by
  cases m with
  | localComplete c =>
    obtain rfl := Option.some.inj hw
    rfl
  | localFailed f =>
    obtain rfl := Option.some.inj hw
    rfl
  | request req => cases hw
  | response rsp => cases hw
  | cancel msg => cases hw

/-- Every pending request is measured. -/
def AllMeasured (hb : Heartbeat) : Prop :=
  ∀ rid p, hb.board.pending.get rid = some p → p.Measured

/-- The local branch of `handle_request` keeps the audio of a request it finds. -/
theorem admitLocal_measured (hall : hb.AllMeasured) : (admitLocal env req hb).AllMeasured := by
  intro rid p hp
  unfold admitLocal at hp
  cases hget : hb.board.pending.get req.requestId with
  | none =>
    simp only [hget, PendingRequestStore.get_add] at hp
    split at hp
    · obtain rfl := Option.some.inj hp
      rfl
    · exact hall rid p hp
  | some old =>
    simp only [hget, PendingRequestStore.get_update] at hp
    split at hp
    · obtain ⟨old, hold, rfl⟩ := Option.map_eq_some_iff.mp hp
      exact hall rid old hold
    · exact hall rid p hp

/-- The upstream branch of `handle_request` stores a request without audio. -/
theorem admitUpstream_measured (hall : hb.AllMeasured) :
    (admitUpstream env req hb).AllMeasured := by
  obtain ⟨pool, reads, draws, hframe, -, -⟩ := acquire_frame env hb
  intro rid p hp
  unfold admitUpstream at hp
  simp only [hframe] at hp
  split at hp
  · exact hall rid p hp
  · simp only [bindRequest, PendingRequestStore.get_add] at hp
    split at hp
    · obtain rfl := Option.some.inj hp
      rfl
    · exact hall rid p hp

/-- A request keeps every pending request measured, also one that it replaces. -/
theorem handleRequest_measured (hall : hb.AllMeasured) :
    (handleRequest env req hb).AllMeasured := by
  have hleveled : AllMeasured { hb with board.metrics := (evaluate env hb.board.metrics).2 } :=
    hall
  unfold handleRequest
  simp only
  split
  · exact hleveled
  · split
    · exact admitLocal_measured hleveled
    · exact admitUpstream_measured hleveled

/-- An upstream event keeps every pending request measured: a chunk extends the audio and
the counter by the same length. -/
theorem handleResponse_measured {rsp : TtsResponseMsg} (hall : hb.AllMeasured) :
    (handleResponse env rsp hb).AllMeasured := by
  intro rid p' hp'
  rw [handleResponse_get_pending] at hp'
  split at hp'
  · split at hp'
    · obtain ⟨p, hp, rfl⟩ := Option.map_eq_some_iff.mp hp'
      have hp : p.cumulativeBytes = p.accumulatedAudio.length := hall rid p hp
      simp [PendingRequest.Measured, PendingRequest.append, hp]
    · exact hall rid p' hp'
  · obtain ⟨p, hp, rfl⟩ := Option.map_eq_some_iff.mp hp'
    split <;> exact hall rid p hp
  · obtain ⟨p, hp, rfl⟩ := Option.map_eq_some_iff.mp hp'
    split <;> exact hall rid p hp
  · exact hall rid p' hp'

/-- Every message keeps every pending request measured. -/
theorem handleMessage_measured (hall : hb.AllMeasured) (m : Message) :
    (handleMessage env hb m).AllMeasured := by
  cases m with
  | request req => exact handleRequest_measured hall
  | response rsp => exact handleResponse_measured hall
  | cancel msg =>
    intro rid p' hp'
    simp only [handleMessage, handleCancel_get_pending] at hp'
    split at hp'
    · obtain ⟨p, hp, rfl⟩ := Option.map_eq_some_iff.mp hp'
      exact hall rid p hp
    · exact hall rid p' hp'
  | localComplete c =>
    intro rid p hp
    simp only [handleMessage, handleLocalComplete, PendingRequestStore.get_remove] at hp
    split at hp
    · cases hp
    · exact hall rid p hp
  | localFailed f =>
    intro rid p hp
    simp only [handleMessage, handleLocalFailed, PendingRequestStore.get_remove] at hp
    split at hp
    · cases hp
    · exact hall rid p hp

/-! ### Emission -/

/-- Emitting requests adds their counters to the metric. -/
theorem foldl_emitCompleted_audioBytes {ids : List String} (hids : ids.Nodup) :
    (ids.foldl emitCompleted hb).board.metrics.audioBytes = hb.board.metrics.audioBytes +
      ((recordsOf hb ids).map fun e => UInt64.ofInt e.2.cumulativeBytes).sum := by
  induction ids generalizing hb with
  | nil => simp [recordsOf]
  | cons id ids ih =>
    obtain ⟨hnot, hids⟩ := List.nodup_cons.mp hids
    rw [List.foldl_cons, ih hids, recordsOf_emitCompleted hnot]
    cases hget : hb.board.pending.get id with
    | none => simp [emitCompleted, recordsOf, hget]
    | some p =>
      simp [emitCompleted, recordsOf, hget, MetricsSnapshot.addAudioBytes,
        MetricsSnapshot.decInflight, UInt64.add_assoc]

/-- If the counters are right, emission adds the length of the emitted audio. -/
theorem finishTick_audioBytes (hall : hb.AllMeasured) (inp : TickInput) :
    (finishTick inp hb).2.board.metrics.audioBytes = hb.board.metrics.audioBytes +
      UInt64.ofNat (audioLength ((emissions hb).map fun e => completedWrite e.1 e.2)) := by
  have hmetrics : (finishTick inp hb).2.board.metrics.audioBytes =
      (emitReady hb).board.metrics.audioBytes := rfl
  have hsum : ∀ es : List (String × PendingRequest), (∀ e ∈ es, e.2.Measured) →
      (es.map fun e => UInt64.ofInt e.2.cumulativeBytes).sum =
        UInt64.ofNat (audioLength (es.map fun e => completedWrite e.1 e.2)) := by
    intro es hes
    induction es with
    | nil => rfl
    | cons e es ih =>
      obtain ⟨he, hes⟩ := List.forall_mem_cons.mp hes
      have hhead : e.2.cumulativeBytes = e.2.accumulatedAudio.length := he
      rw [List.map_cons, List.sum_cons, ih hes, hhead]
      simp [audioLength, completedWrite, UInt64.ofNat_add, ofInt_natCast]
  have hmeasured : ∀ e ∈ emissions hb, e.2.Measured := by
    rintro ⟨rid, p⟩ hmem
    exact hall rid p (mem_emissions.mp hmem).1
  have hnodup : hb.board.pending.findReadyToEmit.Nodup := Table.nodup_collect _ _
  rw [hmetrics, emitReady, foldl_emitCompleted_audioBytes hnodup, ← hsum _ hmeasured, emissions]

end Heartbeat

namespace History

variable {env : Env} {h : History} {inputs : List TickInput}

/-! ### Runs -/

/-- The writes so far, those of the change set under construction included. -/
def allWrites (h : History) : List WriteToClient :=
  h.clientWrites ++ h.hb.changeset.clientWrites

/-- The bytes are accounted for: in the store, in every write, and in the metric. -/
structure Counted (h : History) : Prop where
  poolWf : h.hb.PoolWf
  pending : h.hb.AllMeasured
  writes : ∀ w ∈ h.allWrites, w.Measured
  total : h.hb.board.metrics.audioBytes = UInt64.ofNat (audioLength h.allWrites)

/-- A step that adds measured writes and counts them keeps the account. -/
theorem Counted.extend {h' : History} {ws : List WriteToClient} (hcounted : h.Counted)
    (hwf : h'.hb.PoolWf) (hall : h'.hb.AllMeasured) (hwrites : h'.allWrites = h.allWrites ++ ws)
    (hws : ∀ w ∈ ws, w.Measured)
    (hbytes : h'.hb.board.metrics.audioBytes =
      h.hb.board.metrics.audioBytes + UInt64.ofNat (audioLength ws)) : h'.Counted where
  poolWf := hwf
  pending := hall
  writes := by
    rw [hwrites]
    exact List.forall_mem_append.mpr ⟨hcounted.writes, hws⟩
  total := by rw [hbytes, hcounted.total, hwrites, audioLength_append, UInt64.ofNat_add]

/-- A message keeps the account. -/
theorem Counted.message (hcounted : h.Counted) (m : Message) :
    (step env h (.message m)).Counted := by
  refine hcounted.extend (step_poolWf hcounted.poolWf _)
    (handleMessage_measured hcounted.pending m) ?_ (fun w hw => ?_) (handleMessage_audioBytes m)
  · rw [allWrites, step_clientWrites m, ← List.append_assoc]
    rfl
  · exact answerWrite_measured (Option.mem_toList.mp hw)

/-- The end of a tick keeps the account. -/
theorem Counted.finish (hcounted : h.Counted) (inp : TickInput) :
    (step env h (.finish inp)).Counted := by
  refine hcounted.extend (step_poolWf hcounted.poolWf _) ?_ ?_ ?_
    (finishTick_audioBytes hcounted.pending inp)
  · intro rid p hp
    exact hcounted.pending rid p (finishTick_get_pending.mp hp).1
  · simp [allWrites, clientWrites, step, finishTick_clientWrites]
  · intro w hw
    obtain ⟨⟨rid, p⟩, hmem, rfl⟩ := List.mem_map.mp hw
    exact hcounted.pending rid p (mem_emissions.mp hmem).1

/-- Every run keeps the account. -/
theorem counted_of (maxSize : Nat) (idleTimeout maxLifetime : Duration) :
    (of env (start maxSize idleTimeout maxLifetime) inputs).Counted := by
  refine of_invariant ?_ ?_ (fun _ m hcounted => hcounted.message m)
    fun _ inp hcounted => hcounted.finish inp
  · refine ⟨start_poolWf _ _ _, fun rid p hp => ?_, fun w hw => ?_, rfl⟩
    · simp [start, DataBoard.empty, PendingRequestStore.get] at hp
    · simp [allWrites, clientWrites, start] at hw
  · intro h hcounted
    exact ⟨step_poolWf hcounted.poolWf .begin, hcounted.pending, hcounted.writes, hcounted.total⟩

/-- In every run from an empty board, whatever its messages, every write reports the length
of its audio, and after every tick the metric of emitted bytes is the total length of the
audio written so far, modulo `2 ^ 64`. -/
theorem byte_accounting (env : Env) (maxSize : Nat) (idleTimeout maxLifetime : Duration)
    (inputs : List TickInput) :
    let r := run env (start maxSize idleTimeout maxLifetime) inputs
    (∀ cs ∈ r.1, ∀ w ∈ cs.clientWrites, w.cumulativeBytes = w.audio.length) ∧
      r.2.board.metrics.audioBytes.toNat =
        (r.1.map fun cs => audioLength cs.clientWrites).sum % 2 ^ 64 := by
  have hcounted := @counted_of env inputs maxSize idleTimeout maxLifetime
  obtain ⟨hhb, hsets⟩ := @of_eq_run env (start maxSize idleTimeout maxLifetime) inputs
  have hcollector := (@betweenTicks_run env inputs maxSize idleTimeout maxLifetime).collector
  have hall : (of env (start maxSize idleTimeout maxLifetime) inputs).allWrites =
      (run env (start maxSize idleTimeout maxLifetime) inputs).1.flatMap
        ChangeSet.clientWrites := by
    rw [allWrites, clientWrites, hhb, hsets, hcollector, List.append_nil]
  have hlength : ∀ sets : List ChangeSet, audioLength (sets.flatMap ChangeSet.clientWrites) =
      (sets.map fun cs => audioLength cs.clientWrites).sum := by
    intro sets
    induction sets with
    | nil => rfl
    | cons cs sets ih => simp [ih]
  constructor
  · intro cs hcs w hw
    refine hcounted.writes w ?_
    rw [hall]
    exact List.mem_flatMap.mpr ⟨cs, hcs, hw⟩
  · rw [← hhb, hcounted.total, hall, hlength, UInt64.toNat_ofNat']

end History

end TtsServer
