import TtsServer.Routing

/-!
# The inflight counter

The counter is incremented for every admitted request and decremented for every
answer of the local engine. In a run whose requests are pairwise distinct and whose
answers belong to distinct emitted jobs, it therefore counts the local jobs that
have not been answered, and all requests that were ever bound to a session: the
sweep of ended requests does not give their slots back. The pending requests are
among those counted, so the counter never wraps and bounds the store, but it only
returns to zero if no bound request is ended.
-/

namespace TtsServer

open Lib Heartbeat

namespace History

variable {env : Env} {h h' : History} {inputs : List TickInput}
  {maxSize : Nat} {idleTimeout maxLifetime : Duration}

/-- The local jobs so far, those of the change set under construction included. -/
def jobs (h : History) : List String :=
  h.emittedJobs ++ h.hb.changeset.localJobs.map LocalSynthJob.requestId

/-- Only a request adds a job. -/
theorem jobs_message {m : Message} (hm : m.requestId? = none) :
    (step env h (.message m)).jobs = h.jobs := by
  cases m with
  | request req => cases hm
  | response rsp =>
    have hquiet := @handleResponse_quiet env h.hb rsp
    simp only [jobs, emittedJobs, step, handleMessage, hquiet.changeset]
  | cancel msg => rfl
  | localComplete c => rfl
  | localFailed f => rfl

/-- The end of a tick hands over the jobs of its change set. -/
theorem jobs_finish (inp : TickInput) : (step env h (.finish inp)).jobs = h.jobs := by
  simp [jobs, emittedJobs, step, finishTick_localJobs]

/-- A message that brings a new request, or the only answer to an emitted job, if any. -/
structure Legal (h : History) (m : Message) : Prop where
  fresh : h.Fresh m
  once : ∀ id, m.answerId? = some id → id ∉ h.answerIds
  emitted : ∀ id, m.answerId? = some id → id ∈ h.emittedJobs

/-- The balance of the inflight counter. -/
structure Balanced (env : Env) (h : History) : Prop where
  routed : h.Routed
  /-- No request is admitted twice. -/
  nodup : (h.upstream ++ h.jobs).Nodup
  jobs_seen : ∀ {id}, id ∈ h.jobs → id ∈ h.requestIds
  once : h.answerIds.Nodup
  answered : ∀ {id}, id ∈ h.answerIds → id ∈ h.jobs
  /-- Pending requests have been admitted and not been answered. -/
  pending : ∀ {rid p}, h.hb.board.pending.get rid = some p →
    rid ∈ h.upstream ++ h.jobs ∧ rid ∉ h.answerIds
  count : h.hb.board.metrics.inflight.toNat + h.answerIds.length =
    h.upstream.length + h.jobs.length
  bounded : h.hb.board.metrics.inflight ≤ env.highWatermark
  queued : h.hb.board.metrics.queued = 0

/-- Steps that neither admit nor answer keep the balance. -/
theorem Balanced.unadmitted (hbal : Balanced env h) (hrouted : h'.Routed)
    (hpending : ∀ {rid p'}, h'.hb.board.pending.get rid = some p' →
      ∃ p, h.hb.board.pending.get rid = some p)
    (hjobs : h'.jobs = h.jobs) (hupstream : h'.upstream = h.upstream)
    (hanswers : h'.answerIds = h.answerIds)
    (hseen : ∀ id ∈ h.requestIds, id ∈ h'.requestIds)
    (hinflight : h'.hb.board.metrics.inflight = h.hb.board.metrics.inflight)
    (hqueued : h'.hb.board.metrics.queued = h.hb.board.metrics.queued) : Balanced env h' where
  routed := hrouted
  nodup := by
    rw [hupstream, hjobs]
    exact hbal.nodup
  jobs_seen := by
    intro id hid
    rw [hjobs] at hid
    exact hseen id (hbal.jobs_seen hid)
  once := hanswers ▸ hbal.once
  answered := by
    intro id hid
    rw [hanswers] at hid
    rw [hjobs]
    exact hbal.answered hid
  pending := by
    intro rid p' hp'
    obtain ⟨p, hp⟩ := hpending hp'
    rw [hupstream, hjobs, hanswers]
    exact hbal.pending hp
  count := by
    rw [hinflight, hanswers, hupstream, hjobs]
    exact hbal.count
  bounded := hinflight ▸ hbal.bounded
  queued := hqueued.trans hbal.queued

/-- Admitting a new request keeps the balance. -/
theorem Balanced.admitted (hbal : Balanced env h) (hrouted : h'.Routed) {rid : String}
    (hfresh : rid ∉ h.requestIds) (hids : h'.requestIds = h.requestIds ++ [rid])
    (hadmitted : (h'.upstream ++ h'.jobs).Perm (rid :: (h.upstream ++ h.jobs)))
    (hjobs : ∀ id ∈ h'.jobs, id = rid ∨ id ∈ h.jobs) (hkept : ∀ id ∈ h.jobs, id ∈ h'.jobs)
    (hanswers : h'.answerIds = h.answerIds)
    (hothers : ∀ {id}, id ≠ rid → h'.hb.board.pending.get id = h.hb.board.pending.get id)
    (hbelow : h.hb.board.metrics.inflight < env.highWatermark)
    (hinflight : h'.hb.board.metrics.inflight = h.hb.board.metrics.inflight + 1)
    (hqueued : h'.hb.board.metrics.queued = h.hb.board.metrics.queued) : Balanced env h' where
  routed := hrouted
  nodup := by
    rw [hadmitted.nodup_iff, List.nodup_cons]
    refine ⟨fun hmem => hfresh ?_, hbal.nodup⟩
    rcases List.mem_append.mp hmem with hmem | hmem
    · exact hbal.routed.upstream_seen hmem
    · exact hbal.jobs_seen hmem
  jobs_seen := by
    intro id hid
    rw [hids, List.mem_append, List.mem_singleton]
    rcases hjobs id hid with rfl | hid
    · exact Or.inr rfl
    · exact Or.inl (hbal.jobs_seen hid)
  once := hanswers ▸ hbal.once
  answered := by
    intro id hid
    rw [hanswers] at hid
    exact hkept id (hbal.answered hid)
  pending := by
    intro id p hp
    rw [hadmitted.mem_iff, hanswers, List.mem_cons]
    by_cases heq : id = rid
    · subst heq
      exact ⟨Or.inl rfl, fun hid => hfresh (hbal.jobs_seen (hbal.answered hid))⟩
    · rw [hothers heq] at hp
      obtain ⟨hknown, hopen⟩ := hbal.pending hp
      exact ⟨Or.inr hknown, hopen⟩
  count := by
    have hlength := hadmitted.length_eq
    have hcount := hbal.count
    rw [List.length_cons, List.length_append, List.length_append] at hlength
    rw [hinflight, toNat_add_one_of_lt hbelow, hanswers]
    omega
  bounded := by
    rw [hinflight, UInt64.le_iff_toNat_le, toNat_add_one_of_lt hbelow]
    exact UInt64.lt_iff_toNat_lt.mp hbelow
  queued := hqueued.trans hbal.queued

/-- An emitted job that has not been answered holds a slot. -/
theorem Balanced.slot (hbal : Balanced env h) {id : String} (hjob : id ∈ h.jobs)
    (hopen : id ∉ h.answerIds) : 0 < h.hb.board.metrics.inflight.toNat := by
  have hnodup : (id :: h.answerIds).Nodup := List.nodup_cons.mpr ⟨hopen, hbal.once⟩
  have hsub : id :: h.answerIds ⊆ h.jobs := by
    intro id' hid'
    rcases List.mem_cons.mp hid' with rfl | hid'
    · exact hjob
    · exact hbal.answered hid'
  have hlength := (List.subperm_of_subset hnodup hsub).length_le
  have hcount := hbal.count
  rw [List.length_cons] at hlength
  omega

/-- The first answer to a job keeps the balance. -/
theorem Balanced.answer (hbal : Balanced env h) (hrouted : h'.Routed) {id : String}
    {w : WriteToClient} (heffect : Answered id w h.hb h'.hb) (hjob : id ∈ h.jobs)
    (hopen : id ∉ h.answerIds) (hsets : h'.changeSets = h.changeSets)
    (hupstream : h'.upstream = h.upstream) (hids : h'.requestIds = h.requestIds)
    (hanswers : h'.answerIds = h.answerIds ++ [id]) : Balanced env h' := by
  have hjobs : h'.jobs = h.jobs := by simp [jobs, emittedJobs, hsets, heffect.changeset]
  have hslot := hbal.slot hjob hopen
  have hdec := toNat_sub_one_of_pos hslot
  constructor
  case routed => exact hrouted
  case nodup =>
    rw [hupstream, hjobs]
    exact hbal.nodup
  case jobs_seen =>
    intro id' hid'
    rw [hjobs] at hid'
    rw [hids]
    exact hbal.jobs_seen hid'
  case once =>
    rw [hanswers, List.nodup_append]
    refine ⟨hbal.once, List.nodup_singleton id, fun a ha b hb => ?_⟩
    rintro rfl
    exact hopen (List.mem_singleton.mp hb ▸ ha)
  case answered =>
    intro id' hid'
    rw [hanswers, List.mem_append, List.mem_singleton] at hid'
    rw [hjobs]
    rcases hid' with hid' | rfl
    · exact hbal.answered hid'
    · exact hjob
  case pending =>
    intro rid p hp
    rw [heffect.pending, PendingRequestStore.get_remove] at hp
    split at hp
    · cases hp
    · rename_i hne
      obtain ⟨hknown, hnot⟩ := hbal.pending hp
      rw [hupstream, hjobs, hanswers]
      refine ⟨hknown, fun hmem => ?_⟩
      rcases List.mem_append.mp hmem with hmem | hmem
      · exact hnot hmem
      · exact hne (List.mem_singleton.mp hmem)
  case count =>
    have hcount := hbal.count
    rw [heffect.inflight, hdec, hanswers, hupstream, hjobs, List.length_append,
      List.length_singleton]
    omega
  case bounded =>
    have hbounded := UInt64.le_iff_toNat_le.mp hbal.bounded
    rw [heffect.inflight, UInt64.le_iff_toNat_le, hdec]
    omega
  case queued => exact heffect.queued.trans hbal.queued

/-- A new request keeps the balance: if it is admitted, it takes a slot. -/
theorem Balanced.request (hbal : Balanced env h) {req : TtsRequestMsg}
    (hlegal : Legal h (.request req)) : Balanced env (step env h (.message (.request req))) := by
  have hrouted : (step env h (.message (.request req))).Routed := hbal.routed.message hlegal.fresh
  have hrequests := @requestIds_message env h (.request req)
  have hanswers : (step env h (.message (.request req))).answerIds = h.answerIds :=
    (answerIds_message _).trans (List.append_nil _)
  have hfresh := hlegal.fresh req.requestId rfl
  cases @step_request env h hbal.routed.poolWf req with
  | rejected heffect hupstream =>
    refine hbal.unadmitted hrouted ?_ ?_ hupstream hanswers ?_ heffect.inflight heffect.queued
    · intro rid p' hp'
      exact ⟨p', heffect.pending ▸ hp'⟩
    · simp only [jobs, heffect.changeset]
      rfl
    · intro id hid
      rw [hrequests]
      exact List.mem_append_left _ hid
  | onLocal heffect hupstream =>
    have hjobs : (step env h (.message (.request req))).jobs = h.jobs ++ [req.requestId] := by
      simp only [jobs, heffect.changeset, List.map_append, List.append_assoc]
      rfl
    refine hbal.admitted hrouted hfresh hrequests ?_ ?_ ?_ hanswers heffect.others heffect.below
      heffect.inflight heffect.queued
    · rw [hupstream, hjobs, ← List.append_assoc]
      exact List.perm_append_singleton _ _
    · intro id hid
      rw [hjobs, List.mem_append, List.mem_singleton] at hid
      exact hid.symm
    · intro id hid
      rw [hjobs]
      exact List.mem_append_left _ hid
  | onSession handle s hdecision heffect hupstream =>
    have hjobs : (step env h (.message (.request req))).jobs = h.jobs := by
      simp only [jobs, heffect.changeset]
      rfl
    refine hbal.admitted hrouted hfresh hrequests ?_ ?_ ?_ hanswers heffect.others heffect.below
      heffect.inflight heffect.queued
    · rw [hupstream, hjobs, List.append_assoc]
      exact List.perm_middle
    · intro id hid
      rw [hjobs] at hid
      exact Or.inr hid
    · intro id hid
      rw [hjobs]
      exact hid

/-- A message that takes no slot and gives none back keeps the balance. -/
theorem Balanced.recedes (hbal : Balanced env h) {m : Message} (hlegal : Legal h m)
    (hrequest : m.requestId? = none) (hanswer : m.answerId? = none)
    (hquiet : Quiet h.hb (step env h (.message m)).hb) :
    Balanced env (step env h (.message m)) := by
  obtain ⟨hrecedes, hupstream⟩ := @step_message_recedes env h hbal.routed.poolWf m hrequest
  refine hbal.unadmitted (hbal.routed.message hlegal.fresh) ?_ ?_ hupstream ?_ ?_ hquiet.inflight
    hquiet.queued
  · intro rid p' hp'
    obtain ⟨p, hp, -⟩ := hrecedes.pending hp'
    exact ⟨p, hp⟩
  · exact jobs_message hrequest
  · rw [answerIds_message, hanswer]
    exact List.append_nil _
  · intro id hid
    rw [requestIds_message]
    exact List.mem_append_left _ hid

/-- A legal message keeps the balance. -/
theorem Balanced.message (hbal : Balanced env h) {m : Message} (hlegal : Legal h m) :
    Balanced env (step env h (.message m)) := by
  have hanswered {w : WriteToClient} (hw : answerWrite m = some w)
      (hupstream : (step env h (.message m)).upstream = h.upstream)
      (hrequest : m.requestId? = none) : Balanced env (step env h (.message m)) := by
    obtain ⟨hid, heffect⟩ := @answer_effect env h.hb m w hw
    have hjob := List.mem_append_left (h.hb.changeset.localJobs.map LocalSynthJob.requestId)
      (hlegal.emitted w.requestId hid)
    have hrequests : (step env h (.message m)).requestIds = h.requestIds := by
      rw [requestIds_message, hrequest]
      exact List.append_nil _
    have hanswers : (step env h (.message m)).answerIds = h.answerIds ++ [w.requestId] := by
      rw [answerIds_message, hid]
      rfl
    exact hbal.answer (hbal.routed.message hlegal.fresh) heffect hjob
      (hlegal.once w.requestId hid) rfl hupstream hrequests hanswers
  cases m with
  | request req => exact hbal.request hlegal
  | response rsp => exact hbal.recedes hlegal rfl rfl handleResponse_quiet
  | cancel msg => exact hbal.recedes hlegal rfl rfl ⟨rfl, rfl, rfl, rfl, rfl⟩
  | localComplete c => exact hanswered rfl (List.append_nil _) rfl
  | localFailed f => exact hanswered rfl (List.append_nil _) rfl

/-- The start of a tick keeps the balance. -/
theorem Balanced.begin (hbal : Balanced env h) : Balanced env (step env h .begin) :=
  hbal.unadmitted hbal.routed.begin (fun hp => ⟨_, hp⟩) rfl rfl rfl (fun _ hid => hid) rfl rfl

/-- The end of a tick keeps the balance: it emits nothing and sweeps without giving back
slots. -/
theorem Balanced.finish (hbal : Balanced env h) (inp : TickInput) :
    Balanced env (step env h (.finish inp)) := by
  have hinflight : (step env h (.finish inp)).hb.board.metrics.inflight =
      h.hb.board.metrics.inflight := by
    have hfinish := @finishTick_inflight h.hb inp
    rw [hbal.routed.emissions_eq_nil] at hfinish
    simpa [step] using hfinish
  refine hbal.unadmitted (hbal.routed.finish inp) ?_ (jobs_finish inp) (upstream_finish inp)
    (answerIds_finish inp) ?_ hinflight finishTick_queued
  · intro rid p hp
    exact ⟨p, (finishTick_get_pending.mp hp).1⟩
  · intro id hid
    rw [requestIds_finish]
    exact hid

/-- A run starts balanced. -/
theorem start_balanced (maxSize : Nat) (idleTimeout maxLifetime : Duration) :
    Balanced env { hb := start maxSize idleTimeout maxLifetime } where
  routed := start_routed maxSize idleTimeout maxLifetime
  nodup := List.nodup_nil
  jobs_seen := fun hid => absurd hid List.not_mem_nil
  once := List.nodup_nil
  answered := fun hid => absurd hid List.not_mem_nil
  pending := fun hp => by simp [start, DataBoard.empty, PendingRequestStore.get] at hp
  count := rfl
  bounded := by
    rw [UInt64.le_iff_toNat_le]
    exact Nat.zero_le _
  queued := rfl

/-- In a balanced state the pending requests are among those in flight. -/
theorem Balanced.size_le (hbal : Balanced env h) :
    h.hb.board.pending.size ≤ h.hb.board.metrics.inflight.toNat := by
  have hlength : h.hb.board.pending.store.keys.length + h.answerIds.length ≤
      (h.upstream ++ h.jobs).length := by
    refine Table.length_keys_add_le hbal.once ?_ ?_ ?_
    · intro id hid hmem
      obtain ⟨p, hp⟩ := Table.mem_iff_lookup.mp hmem
      exact (hbal.pending hp).2 hid
    · intro id hmem
      obtain ⟨p, hp⟩ := Table.mem_iff_lookup.mp hmem
      exact (hbal.pending hp).1
    · intro id hid
      exact List.mem_append_right _ (hbal.answered hid)
  have hcount := hbal.count
  rw [List.length_append] at hlength
  unfold PendingRequestStore.size
  omega

/-- A run whose requests have pairwise distinct identifiers and whose local answers belong to
jobs that an earlier tick has emitted, at most one to each. -/
structure LegalRun (env : Env) (hb : Heartbeat) (inputs : List TickInput) : Prop where
  distinct : ((messagesOf inputs).filterMap Message.requestId?).Nodup
  once : ((messagesOf inputs).filterMap Message.answerId?).Nodup
  emitted : Handles env hb inputs fun h m => ∀ id ∈ m.answerId?, id ∈ h.emittedJobs

/-- The messages of a legal run are legal. -/
theorem LegalRun.handles {hb : Heartbeat} (hrun : LegalRun env hb inputs) :
    Handles env hb inputs Legal := by
  have hall := ((handles_fresh Message.requestId? hrun.distinct).and
    (handles_fresh Message.answerId? hrun.once)).and hrun.emitted
  exact hall.mono fun h m hm => ⟨hm.1.1, hm.1.2, hm.2⟩

/-- A legal run is balanced when any of its messages is handled, and at its end. -/
theorem LegalRun.balanced (hrun : LegalRun env (start maxSize idleTimeout maxLifetime) inputs) :
    Handles env (start maxSize idleTimeout maxLifetime) inputs
      (fun h m => Balanced env h ∧ Legal h m) ∧
    Balanced env (of env (start maxSize idleTimeout maxLifetime) inputs) :=
  hrun.handles.invariant (start_balanced maxSize idleTimeout maxLifetime)
    (fun _ hbal => hbal.begin) (fun _ _ hbal hlegal => hbal.message hlegal)
    (fun _ inp hbal => hbal.finish inp)

/-! ### Bounded admission -/

/-- How often a step decrements the inflight counter. -/
def decrements (h : History) : Step → Nat
  | .begin => 0
  | .message m => m.answerId?.toList.length
  | .finish _ => (emissions h.hb).length

/-- A step that does not let the inflight counter wrap, and after which the counter bounds
the pending requests and is bounded by the high watermark. -/
structure InflightSound (env : Env) (h : History) (l : Step) : Prop where
  noWrap : h.decrements l ≤ h.hb.board.metrics.inflight.toNat
  size_le : (step env h l).hb.board.pending.size ≤
    (step env h l).hb.board.metrics.inflight.toNat
  inflight_le : (step env h l).hb.board.metrics.inflight ≤ env.highWatermark

/-- In every legal run the inflight counter never wraps, and after every step it lies
between the number of pending requests and the high watermark. -/
theorem bounded_admission (hrun : LegalRun env (start maxSize idleTimeout maxLifetime) inputs) :
    Along (step env) (InflightSound env) { hb := start maxSize idleTimeout maxLifetime }
      (stepsOf inputs) := by
  refine Along.of_invariant (I := Balanced env) hrun.handles
    (start_balanced maxSize idleTimeout maxLifetime) ?_ ?_
  · intro h l hbal hlegal
    cases l with
    | begin => exact hbal.begin
    | message m => exact hbal.message (hlegal m rfl)
    | finish inp => exact hbal.finish inp
  · intro h l hbal hlegal
    cases l with
    | begin =>
      have hnext := hbal.begin
      exact ⟨Nat.zero_le _, hnext.size_le, hnext.bounded⟩
    | message m =>
      have hnext := hbal.message (hlegal m rfl)
      refine ⟨?_, hnext.size_le, hnext.bounded⟩
      cases hanswer : m.answerId? with
      | none => simp [decrements, hanswer]
      | some id =>
        have hjob : id ∈ h.jobs := List.mem_append_left _ ((hlegal m rfl).emitted id hanswer)
        have hslot := hbal.slot hjob ((hlegal m rfl).once id hanswer)
        simp only [decrements, hanswer, Option.toList_some, List.length_singleton]
        exact hslot
    | finish inp =>
      have hnext := hbal.finish inp
      refine ⟨?_, hnext.size_le, hnext.bounded⟩
      simp [decrements, hbal.routed.emissions_eq_nil]

/-- One request for the local engine and one for a session; the first is answered, the
second is cancelled. -/
def mixedRun : List TickInput :=
  [{ requests := [.request { requestId := "a" },
      .request { requestId := "b", backend := .upstream }] },
   { requests := [.localComplete { requestId := "a" }, .cancel { requestId := "b" }] }]

/-- The counter stays sound in this run. -/
theorem bounded_admission_mixedRun :
    Along (step sampleLocalEnv) (InflightSound sampleLocalEnv)
      { hb := start 16 (seconds 60) (seconds 3600) } (stepsOf mixedRun) :=
  bounded_admission ⟨by decide, by decide, by decide +kernel⟩

/-! ### At most one answer -/

/-- The writes so far, those of the change set under construction included, are the answers
of the local engine. -/
structure Written (h : History) : Prop where
  routed : h.Routed
  ids : (h.clientWrites ++ h.hb.changeset.clientWrites).map WriteToClient.requestId = h.answerIds
  final : ∀ w ∈ h.clientWrites ++ h.hb.changeset.clientWrites, w.isFinal = true

/-- A message writes at most an answer. -/
theorem Written.message (hwritten : h.Written) {m : Message} (hfresh : h.Fresh m) :
    (step env h (.message m)).Written := by
  have hwrites : (step env h (.message m)).clientWrites ++
      (step env h (.message m)).hb.changeset.clientWrites =
        h.clientWrites ++ h.hb.changeset.clientWrites ++ (answerWrite m).toList := by
    rw [step_clientWrites, List.append_assoc]
    rfl
  refine ⟨hwritten.routed.message hfresh, ?_, ?_⟩
  · rw [hwrites, List.map_append, hwritten.ids]
    cases m <;> simp [answerIds, step, answerWrite, Message.answerId?, completeWrite, failedWrite]
  · intro w hw
    rw [hwrites, List.mem_append, Option.mem_toList] at hw
    rcases hw with hw | hw
    · exact hwritten.final w hw
    · exact (@answer_effect env h.hb m w hw).2.write.2

/-- The end of a tick hands over the writes of its change set and emits no others. -/
theorem Written.finish (hwritten : h.Written) (inp : TickInput) :
    (step env h (.finish inp)).Written := by
  have hwrites : (step env h (.finish inp)).clientWrites ++
      (step env h (.finish inp)).hb.changeset.clientWrites =
        h.clientWrites ++ h.hb.changeset.clientWrites := by
    simp [clientWrites, step, finishTick_clientWrites, hwritten.routed.emissions_eq_nil]
  refine ⟨hwritten.routed.finish inp, ?_, ?_⟩
  · rw [hwrites, answerIds_finish]
    exact hwritten.ids
  · rw [hwrites]
    exact hwritten.final

/-- In a run whose requests have pairwise distinct identifiers and whose local jobs are
answered at most once, all writes of all change sets have pairwise distinct request
identifiers and are final. -/
theorem at_most_one_answer
    (hdistinct : ((messagesOf inputs).filterMap Message.requestId?).Nodup)
    (honce : ((messagesOf inputs).filterMap Message.answerId?).Nodup) :
    let writes := (run env (start maxSize idleTimeout maxLifetime) inputs).1.flatMap
      ChangeSet.clientWrites
    (writes.map WriteToClient.requestId).Nodup ∧ ∀ w ∈ writes, w.isFinal = true := by
  intro writes
  have hstart : Written { hb := start maxSize idleTimeout maxLifetime } :=
    ⟨start_routed maxSize idleTimeout maxLifetime, rfl, fun w hw => absurd hw List.not_mem_nil⟩
  obtain ⟨-, hend⟩ := Handles.invariant (handles_fresh Message.requestId? hdistinct) hstart
    (fun h (hwritten : h.Written) => ⟨hwritten.routed.begin, hwritten.ids, hwritten.final⟩)
    (fun h m hwritten hfresh => hwritten.message hfresh)
    (fun h inp hwritten => hwritten.finish inp)
  have hwrites : (of env (start maxSize idleTimeout maxLifetime) inputs).clientWrites = writes := by
    rw [clientWrites, of_eq_run.2]
  have hanswers : (of env (start maxSize idleTimeout maxLifetime) inputs).answerIds =
      (messagesOf inputs).filterMap Message.answerId? := by
    rw [answerIds, of_handled]
  rw [← hwrites]
  constructor
  · have hids := hend.ids
    rw [List.map_append, hanswers] at hids
    exact (List.nodup_append.mp (hids ▸ honce)).1
  · intro w hw
    exact hend.final w (List.mem_append_left _ hw)

/-- The writes of the mixed run are distinct and final. -/
theorem at_most_one_answer_mixedRun :
    let writes := (run sampleLocalEnv (start 16 (seconds 60) (seconds 3600)) mixedRun).1.flatMap
      ChangeSet.clientWrites
    (writes.map WriteToClient.requestId).Nodup ∧ ∀ w ∈ writes, w.isFinal = true :=
  at_most_one_answer (by decide) (by decide)

/-! ### Leaked slots -/

/-- A message that ends no request bound to a session. -/
def SparesBound (h : History) (m : Message) : Prop :=
  ∀ rid p, h.hb.board.pending.get rid = some p → p.sessionId ≠ "" → ¬EndsBy m rid p

/-- Whether a message spares the bound requests can be decided from the pending ones. -/
instance (h : History) (m : Message) : Decidable (h.SparesBound m) :=
  decidable_of_iff (h.hb.board.pending.store.collect
      (fun rid p => p.sessionId ≠ "" && decide (EndsBy m rid p)) = []) (by
    simp only [List.eq_nil_iff_forall_not_mem, Table.mem_collect, SparesBound,
      PendingRequestStore.get, Bool.and_eq_true, decide_eq_true_eq, not_exists, not_and])

/-- Nothing is pending, and every emitted job has been answered. -/
structure Quiescent (h : History) : Prop where
  pending : h.hb.board.pending.size = 0
  answered : ∀ id ∈ h.emittedJobs, id ∈ h.answerIds

/-- No slot is taken, and the backpressure controller admits the next request. -/
def SlotsFree (env : Env) (metrics : MetricsSnapshot) : Prop :=
  metrics.inflight = 0 ∧ (0 < env.highWatermark → 0 < env.queueHighWatermark →
    (evaluate env metrics).1.admitted = true)

/-- Every request that was bound to a session still waits for it. -/
structure AllWaiting (env : Env) (h : History) : Prop where
  balanced : Balanced env h
  waiting : ∀ rid ∈ h.upstream, ∃ p, h.hb.board.pending.get rid = some p ∧
    p.state = .awaitingSession

/-- While no bound request is ended, all of them wait. -/
theorem AllWaiting.message (hall : AllWaiting env h) {m : Message} (hlegal : Legal h m)
    (hspares : h.SparesBound m) : AllWaiting env (step env h (.message m)) where
  balanced := hall.balanced.message hlegal
  waiting := by
    have hrouted := hall.balanced.routed
    have hkept : ∀ rid ∈ h.upstream, ∃ p,
        (step env h (.message m)).hb.board.pending.get rid = some p ∧
          p.state = .awaitingSession := by
      intro rid hrid
      obtain ⟨p, hp, hstate⟩ := hall.waiting rid hrid
      have hrequest : m.requestId? ≠ some rid := fun hm =>
        hlegal.fresh rid hm (hrouted.upstream_seen hrid)
      have hanswer : m.answerId? ≠ some rid := by
        intro hm
        have hjob : rid ∈ h.jobs := List.mem_append_left _ (hlegal.emitted rid hm)
        exact (List.nodup_append.mp hall.balanced.nodup).2.2 rid hrid rid hjob rfl
      obtain ⟨p', hp', -, hstate'⟩ := step_pending_kept hrouted.poolWf hp hrequest hanswer
      have hbound := (hrouted.onSession hp hrid).1
      exact ⟨p', hp', (hstate' (hspares rid p hp hbound)).trans hstate⟩
    intro rid hrid
    rcases @step_message_cases env h hrouted.poolWf m with ⟨req, rfl, hadmits⟩ | ⟨-, hupstream⟩
    · cases hadmits with
      | rejected heffect hupstream => exact hkept rid (hupstream ▸ hrid)
      | onLocal heffect hupstream => exact hkept rid (hupstream ▸ hrid)
      | onSession handle s hdecision heffect hupstream =>
        rw [hupstream, List.mem_append, List.mem_singleton] at hrid
        rcases hrid with hrid | rfl
        · exact hkept rid hrid
        · obtain ⟨t, hrecord⟩ := heffect.record
          exact ⟨_, hrecord, rfl⟩
    · rw [hupstream] at hrid
      exact hkept rid hrid

/-- A waiting request is neither emitted nor swept. -/
theorem AllWaiting.finish (hall : AllWaiting env h) (inp : TickInput) :
    AllWaiting env (step env h (.finish inp)) where
  balanced := hall.balanced.finish inp
  waiting := by
    intro rid hrid
    rw [upstream_finish] at hrid
    obtain ⟨p, hp, hstate⟩ := hall.waiting rid hrid
    refine ⟨p, finishTick_get_pending.mpr ⟨hp, ?_, ?_⟩, hstate⟩
    · simp [PendingRequest.readyToEmit, hstate]
    · simp [PendingState.terminal, hstate]

/-- When everything is answered, the inflight counter counts the requests that were bound to
a session. -/
theorem Balanced.inflight_eq (hbal : Balanced env h) (hquiescent : h.Quiescent)
    (hcollector : h.hb.changeset = {}) :
    h.hb.board.metrics.inflight.toNat = h.upstream.length := by
  have hjobs : h.jobs = h.emittedJobs := by simp [jobs, hcollector]
  have hnodup := (List.nodup_append.mp hbal.nodup).2.1
  have hle : h.jobs.length ≤ h.answerIds.length :=
    (List.subperm_of_subset hnodup fun id hid => hquiescent.answered id (hjobs ▸ hid)).length_le
  have hge : h.answerIds.length ≤ h.jobs.length :=
    (List.subperm_of_subset hbal.once fun id hid => hbal.answered hid).length_le
  have hcount := hbal.count
  omega

/-- Bound requests are remembered. -/
theorem upstream_subset (ls : List Step) :
    h.upstream ⊆ (ls.foldl (step env) h).upstream := by
  induction ls generalizing h with
  | nil => exact List.Subset.refl _
  | cons l ls ih =>
    rw [List.foldl_cons]
    refine List.Subset.trans ?_ ih
    cases l with
    | begin => exact List.Subset.refl _
    | message m => exact List.subset_append_left _ _
    | finish inp =>
      rw [upstream_finish]
      exact List.Subset.refl _

/-- In a legal run that ends with nothing pending and every job answered, all slots are free
if and only if no message of the run has ended a request that was bound to a session. -/
theorem no_leaked_slot_iff
    (hrun : LegalRun env (start maxSize idleTimeout maxLifetime) inputs)
    (hquiescent : (of env (start maxSize idleTimeout maxLifetime) inputs).Quiescent) :
    SlotsFree env (run env (start maxSize idleTimeout maxLifetime) inputs).2.board.metrics ↔
      Handles env (start maxSize idleTimeout maxLifetime) inputs SparesBound := by
  obtain ⟨hduring, hend⟩ := hrun.balanced
  have hcollector : (of env (start maxSize idleTimeout maxLifetime) inputs).hb.changeset = {} := by
    rw [of_eq_run.1]
    exact (betweenTicks_run maxSize idleTimeout maxLifetime).collector
  have hinflight := hend.inflight_eq hquiescent hcollector
  have hqueued := hend.queued
  rw [of_eq_run.1] at hinflight hqueued
  constructor
  · rintro ⟨hzero, -⟩
    have hnone : (of env (start maxSize idleTimeout maxLifetime) inputs).upstream = [] := by
      rw [hzero] at hinflight
      exact List.length_eq_zero_iff.mp hinflight.symm
    refine along_iff_forall_split.mpr fun pre l post hsplit m hm rid p hp hbound => ?_
    obtain ⟨hbal, -⟩ := along_iff_forall_split.mp hduring pre l post hsplit m hm
    have hrid : rid ∉ (pre.foldl (step env)
        { hb := start maxSize idleTimeout maxLifetime }).upstream := by
      intro hmem
      have hlater := @upstream_subset env _ (l :: post) rid hmem
      rw [← List.foldl_append, ← hsplit] at hlater
      rw [show ((stepsOf inputs).foldl (step env) _).upstream = [] from hnone] at hlater
      cases hlater
    exact absurd (hbal.routed.onLocal hp hrid).1 hbound
  · intro hspares
    have hstart : AllWaiting env { hb := start maxSize idleTimeout maxLifetime } :=
      ⟨start_balanced maxSize idleTimeout maxLifetime, fun rid hrid => by cases hrid⟩
    obtain ⟨-, hwaiting⟩ := (hrun.handles.and hspares).invariant hstart
      (fun _ hall => ⟨hall.balanced.begin, hall.waiting⟩)
      (fun _ _ hall hm => hall.message hm.1 hm.2) (fun _ inp hall => hall.finish inp)
    have hnone : (of env (start maxSize idleTimeout maxLifetime) inputs).upstream = [] := by
      rw [List.eq_nil_iff_forall_not_mem]
      intro rid hrid
      obtain ⟨p, hp, -⟩ := hwaiting.waiting rid hrid
      rw [PendingRequestStore.size_eq_zero_iff.mp hquiescent.pending rid] at hp
      cases hp
    rw [hnone] at hinflight
    have hzero : (run env (start maxSize idleTimeout maxLifetime)
        inputs).2.board.metrics.inflight = 0 := UInt64.toNat_inj.mp hinflight
    refine ⟨hzero, fun hhigh hqueue => evaluate_admitted.mpr ⟨?_, ?_⟩⟩
    · rw [hzero]
      exact hhigh
    · rw [hqueued]
      exact hqueue

/-- A request that the local engine answers. -/
def answeredRun : List TickInput :=
  [{ requests := [.request { requestId := "a" }] },
   { requests := [.localComplete { requestId := "a" }] }]

/-- Its slot is free again. -/
theorem no_leaked_slot_answeredRun :
    SlotsFree sampleLocalEnv
      (run sampleLocalEnv (start 16 (seconds 60) (seconds 3600)) answeredRun).2.board.metrics :=
  (no_leaked_slot_iff ⟨by decide, by decide, by decide +kernel⟩
    ⟨by decide +kernel, by decide +kernel⟩).mpr (by decide +kernel)

/-- A request for a session that its client gives up. -/
def cancelledRun : List TickInput :=
  [{ requests := [.request { requestId := "r" }] }, { requests := [.cancel { requestId := "r" }] }]

/-- Its slot is never given back. -/
theorem cancelledRun_leaks :
    LegalRun sampleEnv (start 16 (seconds 60) (seconds 3600)) cancelledRun ∧
      (of sampleEnv (start 16 (seconds 60) (seconds 3600)) cancelledRun).Quiescent ∧
      (run sampleEnv (start 16 (seconds 60) (seconds 3600)) cancelledRun).2.board.metrics.inflight ≠
        0 :=
  ⟨⟨by decide, by decide, by decide +kernel⟩, ⟨by decide +kernel, by decide +kernel⟩,
    by decide +kernel⟩

end History

end TtsServer
