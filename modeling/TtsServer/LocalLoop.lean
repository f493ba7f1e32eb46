import Mathlib.Data.List.Induction
import TtsServer.Routing

/-!
# The closed loop of the local engine

The heartbeat thread ticks, runs the local engine on every job of the change set
in order, and sends one answer for each job back on the request channel, before it
ticks again. Requests arrive on the same channel at any moment. The loop is
therefore modelled as a system with two kinds of events: an arrival, and one move
of the heartbeat thread, which runs the next job if there is one and ticks
otherwise. Between ticks the answers in the channel and the jobs not yet run make
up the requests admitted in the last tick.
-/

namespace TtsServer

open Lib Heartbeat

/-- The bytes of a buffer of 16-bit samples in memory, least significant byte first. -/
def sampleBytes (samples : List (BitVec 16)) : Bytes :=
  samples.flatMap fun s => [UInt8.ofNat (s.toNat % 256), UInt8.ofNat (s.toNat / 256)]

/-- The message that the heartbeat thread sends after running a job. -/
def runJob (engine : LocalTtsEngine) (job : LocalSynthJob) : Message :=
  let r := engine.synthesize job.text job.voiceId job.speed
  if r.statusCode ≠ 0 then
    .localFailed {
      requestId := job.requestId, statusCode := r.statusCode, statusMsg := r.statusMsg }
  else
    .localComplete
      { requestId := job.requestId, audio := sampleBytes r.samples, sampleRate := r.sampleRate,
        channels := r.channels, format := .pcm, usageMs := r.durationMs,
        statusCode := r.statusCode, statusMsg := r.statusMsg }

/-- The requests of a batch that are admitted when it is handled. -/
def admissions (env : Env) : Heartbeat → List Message → List TtsRequestMsg
  | _, [] => []
  | hb, m :: ms =>
    (match m with
      | .request req =>
        match admission env req hb with
        | .onLocal => [req]
        | .onSession _ => [req]
        | _ => []
      | _ => []) ++ admissions env (handleMessage env hb m) ms

/-- What is observed of one tick. -/
structure TickRecord where
  admitted : List TtsRequestMsg
  changeset : ChangeSet
  /-- The inflight counter after the tick. -/
  inflight : UInt64

/-- The heartbeat thread and the request channel. -/
structure MainLoop where
  hb : Heartbeat
  requestChannel : List Message := []
  /-- The jobs of the last change set that have not been run yet. -/
  localJobs : List LocalSynthJob := []
  log : List TickRecord := []

/-- The events of the loop: a request arrives, or the heartbeat thread makes a move, a tick
among them reading the clock three times. -/
inductive LoopEvent where
  | arrive (req : TtsRequestMsg)
  | advance (startedAt now endedAt : TimePoint)

/-- The request that an event brings. -/
def LoopEvent.arrival? : LoopEvent → Option TtsRequestMsg
  | .arrive req => some req
  | .advance _ _ _ => none

namespace MainLoop

/-- The tick of the heartbeat thread: the channel is drained, and the jobs of the change set
become the jobs to run. -/
def tick (env : Env) (loop : MainLoop) (startedAt now endedAt : TimePoint) : MainLoop :=
  let inp : TickInput := { requests := loop.requestChannel, startedAt, now, endedAt }
  let r := Heartbeat.tick env inp loop.hb
  { hb := r.2
    localJobs := r.1.localJobs
    log := loop.log ++ [⟨admissions env loop.hb.beginTick inp.batch, r.1,
      r.2.board.metrics.inflight⟩] }

/-- One event of the loop. -/
def step (env : Env) (loop : MainLoop) : LoopEvent → MainLoop
  | .arrive req => { loop with requestChannel := loop.requestChannel ++ [.request req] }
  | .advance startedAt now endedAt =>
    match loop.localJobs with
    | [] => loop.tick env startedAt now endedAt
    | job :: jobs =>
      match env.localEngine with
      | none => { loop with localJobs := jobs }
      | some engine => { loop with
          localJobs := jobs
          requestChannel := loop.requestChannel ++ [runJob engine job] }

/-- The loop after a sequence of events. -/
def run (env : Env) (hb : Heartbeat) (events : List LoopEvent) : MainLoop :=
  events.foldl (step env) { hb := hb }

/-- The writes of all ticks. -/
def clientWrites (loop : MainLoop) : List WriteToClient :=
  loop.log.flatMap fun t => t.changeset.clientWrites

end MainLoop

/-- The requests that arrive in a sequence of events. -/
def arrivals (events : List LoopEvent) : List TtsRequestMsg :=
  events.filterMap LoopEvent.arrival?

/-- The engine's result for a request: a speed that is not positive means normal speed. -/
def engineResult (engine : LocalTtsEngine) (req : TtsRequestMsg) : LocalTtsResult :=
  engine.synthesize req.text req.voice.voiceId
    (if req.voice.speed.isPos then req.voice.speed else .one)

/-- A write that answers a request with the engine's result. -/
structure AnswersRequest (engine : LocalTtsEngine) (req : TtsRequestMsg) (w : WriteToClient) :
    Prop where
  requestId : w.requestId = req.requestId
  isFinal : w.isFinal = true
  audio : w.audio = if (engineResult engine req).statusCode = 0
    then sampleBytes (engineResult engine req).samples else []
  status : w.statusCode = (engineResult engine req).statusCode ∧
    w.statusMsg = (engineResult engine req).statusMsg

/-! ### One batch -/

section Batch

variable {env : Env} {hb : Heartbeat}

/-- A message of the local loop: a request for the local engine or an answer of it. -/
def LocalMessage (env : Env) : Message → Prop
  | .request req => shouldUseLocal env req = true
  | .localComplete _ => True
  | .localFailed _ => True
  | _ => False

/-- A heartbeat on which no chunk has arrived. -/
structure LocalOnly (hb : Heartbeat) : Prop where
  poolWf : hb.PoolWf
  noFinal : ∀ {rid p}, hb.board.pending.get rid = some p → p.finalReceived = false

/-- The effect of handling a batch of the local loop: every answer is written, every
admitted request becomes a job, and the inflight counter counts both. -/
structure BatchEffect (env : Env) (ms : List Message) (hb hb' : Heartbeat) : Prop where
  localOnly : LocalOnly hb'
  clientWrites : hb'.changeset.clientWrites =
    hb.changeset.clientWrites ++ ms.filterMap answerWrite
  localJobs : hb'.changeset.localJobs =
    hb.changeset.localJobs ++ (admissions env hb ms).map localJob
  inflight : hb'.board.metrics.inflight.toNat + (ms.filterMap answerWrite).length =
    hb.board.metrics.inflight.toNat + (admissions env hb ms).length

/-- A batch of the local loop handled in two parts. -/
theorem admissions_append (ms ms' : List Message) :
    admissions env hb (ms ++ ms') =
      admissions env hb ms ++ admissions env (ms.foldl (handleMessage env) hb) ms' := by
  induction ms generalizing hb with
  | nil => rfl
  | cons m ms ih => simp only [admissions, List.cons_append, List.foldl_cons, ih, List.append_assoc]

/-- One request of the local loop. -/
private theorem request_batch {req : TtsRequestMsg} (hreq : shouldUseLocal env req = true)
    (hlocal : LocalOnly hb) : BatchEffect env [.request req] hb (handleRequest env req hb) := by
  have hkept {hb' : Heartbeat} (h : Rejected hb hb') : LocalOnly hb' := by
    exact ⟨hlocal.poolWf.of_eq h.sessionPool, fun hp => hlocal.noFinal (h.pending ▸ hp)⟩
  rcases @handleRequest_effect env hb req hlocal.poolWf.wellKeyed hlocal.poolWf.named with
    ⟨hdecision, heffect⟩ | ⟨hdecision, heffect⟩ | ⟨handle, s, -, heffect⟩
  · have hnone : admissions env hb [.request req] = [] := by
      rcases hdecision with hdecision | hdecision <;> simp [admissions, hdecision]
    refine ⟨hkept heffect, ?_, ?_, ?_⟩
    · simp [heffect.changeset, answerWrite]
    · simp [heffect.changeset, hnone]
    · simp [heffect.inflight, hnone, answerWrite]
  · have hone : admissions env hb [.request req] = [req] := by simp [admissions, hdecision]
    refine ⟨⟨hlocal.poolWf.of_eq heffect.sessionPool, heffect.finalReceived hlocal.noFinal⟩,
      ?_, ?_, ?_⟩
    · simp [heffect.changeset, answerWrite]
    · simp [heffect.changeset, hone]
    · simp [heffect.inflight, hone, answerWrite, toNat_add_one_of_lt heffect.below]
  · have huse := heffect.useLocal
    rw [hreq] at huse
    cases huse

/-- One answer of the local loop. -/
private theorem answer_batch {m : Message} {w : WriteToClient} (hw : answerWrite m = some w)
    (hlocal : LocalOnly hb) (hcount : 0 < hb.board.metrics.inflight.toNat) :
    BatchEffect env [m] hb (handleMessage env hb m) := by
  obtain ⟨hid, heffect⟩ := @answer_effect env hb m w hw
  have hnone : admissions env hb [m] = [] := by
    cases m <;> simp [answerWrite] at hw <;> rfl
  refine ⟨⟨hlocal.poolWf.of_eq heffect.sessionPool, fun {rid p} hp => ?_⟩, ?_, ?_, ?_⟩
  · rw [heffect.pending, PendingRequestStore.get_remove] at hp
    split at hp
    · cases hp
    · exact hlocal.noFinal hp
  · simp [heffect.changeset, hw]
  · simp [heffect.changeset, hnone]
  · have hdec := toNat_sub_one_of_pos hcount
    simp only [heffect.inflight, hnone, hdec, List.filterMap_cons, hw, List.filterMap_nil,
      List.length_singleton, List.length_nil]
    omega

/-- The parts of a batch compose. -/
theorem BatchEffect.cons {m : Message} {ms : List Message} {hb₁ hb₂ : Heartbeat}
    (h : BatchEffect env [m] hb hb₁) (hstep : handleMessage env hb m = hb₁)
    (h' : BatchEffect env ms hb₁ hb₂) : BatchEffect env (m :: ms) hb hb₂ := by
  have hadmissions : admissions env hb (m :: ms) =
      admissions env hb [m] ++ admissions env hb₁ ms := by
    rw [← hstep]
    exact admissions_append [m] ms
  have hanswers : (m :: ms).filterMap answerWrite =
      [m].filterMap answerWrite ++ ms.filterMap answerWrite := by
    rw [← List.filterMap_append, List.singleton_append]
  refine ⟨h'.localOnly, ?_, ?_, ?_⟩
  · rw [h'.clientWrites, h.clientWrites, hanswers, List.append_assoc]
  · rw [h'.localJobs, h.localJobs, hadmissions, List.map_append, List.append_assoc]
  · have hfirst := h.inflight
    have hrest := h'.inflight
    rw [hanswers, hadmissions, List.length_append, List.length_append]
    omega

/-- A batch of the local loop that holds at most as many answers as requests are in
flight. -/
theorem foldl_handleMessage_batch {ms : List Message} (hms : ∀ m ∈ ms, LocalMessage env m)
    (hlocal : LocalOnly hb)
    (hcount : (ms.filterMap answerWrite).length ≤ hb.board.metrics.inflight.toNat) :
    BatchEffect env ms hb (ms.foldl (handleMessage env) hb) := by
  induction ms generalizing hb with
  | nil => exact ⟨hlocal, by simp, by simp [admissions], by simp [admissions]⟩
  | cons m ms ih =>
    have hm : LocalMessage env m := hms m List.mem_cons_self
    have hrest : ∀ m ∈ ms, LocalMessage env m := fun m hmem => hms m (List.mem_cons_of_mem _ hmem)
    have hfirst : BatchEffect env [m] hb (handleMessage env hb m) := by
      cases hw : answerWrite m with
      | none =>
        cases m with
        | request req => exact request_batch hm hlocal
        | response rsp => exact hm.elim
        | cancel msg => exact hm.elim
        | localComplete c => cases hw
        | localFailed f => cases hw
      | some w =>
        rw [List.filterMap_cons_some hw, List.length_cons] at hcount
        exact answer_batch hw hlocal (by omega)
    refine hfirst.cons rfl (ih hrest hfirst.localOnly ?_)
    have hnext := hfirst.inflight
    cases hw : answerWrite m with
    | none =>
      rw [List.filterMap_cons_none hw] at hcount
      simp only [List.filterMap_cons, hw, List.filterMap_nil, List.length_nil] at hnext
      omega
    | some w =>
      have hnone : admissions env hb [m] = [] := by
        cases m <;> simp [answerWrite] at hw <;> rfl
      rw [List.filterMap_cons_some hw, List.length_cons] at hcount
      simp only [List.filterMap_cons, hw, List.filterMap_nil, List.length_singleton, hnone,
        List.length_nil] at hnext
      omega

/-- A tick of the local loop: the writes are the answers of the batch, and the jobs and the
inflight counter are those of the requests it admits. -/
theorem tick_batch {inp : TickInput} (hms : ∀ m ∈ inp.batch, LocalMessage env m)
    (hlocal : LocalOnly hb) (hcollector : hb.changeset = {})
    (hcount : (inp.batch.filterMap answerWrite).length = hb.board.metrics.inflight.toNat) :
    LocalOnly (Heartbeat.tick env inp hb).2 ∧
      (Heartbeat.tick env inp hb).2.changeset = {} ∧
      (Heartbeat.tick env inp hb).1.clientWrites = inp.batch.filterMap answerWrite ∧
      (Heartbeat.tick env inp hb).1.localJobs =
        (admissions env hb.beginTick inp.batch).map localJob ∧
      (Heartbeat.tick env inp hb).2.board.metrics.inflight.toNat =
        (admissions env hb.beginTick inp.batch).length := by
  have hbegin : LocalOnly hb.beginTick :=
    ⟨hlocal.poolWf.beginTick, hlocal.noFinal⟩
  have hbatch := foldl_handleMessage_batch hms hbegin hcount.le
  set hb' := inp.batch.foldl (handleMessage env) hb.beginTick with hhb'
  have hnone : emissions hb' = [] := by
    rw [List.eq_nil_iff_forall_not_mem]
    rintro ⟨rid, p⟩ hmem
    obtain ⟨hp, hready⟩ := mem_emissions.mp hmem
    simp [PendingRequest.readyToEmit, hbatch.localOnly.noFinal hp] at hready
  have htick : Heartbeat.tick env inp hb = finishTick inp hb' := rfl
  rw [htick]
  refine ⟨⟨?_, fun hp => ?_⟩, rfl, ?_, ?_, ?_⟩
  · exact hbatch.localOnly.poolWf.finishTick inp
  · exact hbatch.localOnly.noFinal (finishTick_get_pending.mp hp).1
  · rw [finishTick_clientWrites, hnone, hbatch.clientWrites]
    simp [beginTick, hcollector]
  · rw [finishTick_localJobs, hbatch.localJobs]
    simp [beginTick, hcollector]
  · have hinflight : hb.beginTick.board.metrics.inflight = hb.board.metrics.inflight := rfl
    have hcounts := hbatch.inflight
    rw [hinflight] at hcounts
    have hkept : hb'.board.metrics.inflight - UInt64.ofNat 0 = hb'.board.metrics.inflight := by
      simp
    rw [finishTick_inflight, hnone, List.length_nil, hkept]
    omega

end Batch

/-! ### The loop -/

/-- The write that answers a job. -/
def jobWrite (engine : LocalTtsEngine) (job : LocalSynthJob) : WriteToClient :=
  let r := engine.synthesize job.text job.voiceId job.speed
  if r.statusCode ≠ 0 then
    failedWrite { requestId := job.requestId, statusCode := r.statusCode, statusMsg := r.statusMsg }
  else
    completeWrite
      { requestId := job.requestId, audio := sampleBytes r.samples, sampleRate := r.sampleRate,
        channels := r.channels, format := .pcm, usageMs := r.durationMs,
        statusCode := r.statusCode, statusMsg := r.statusMsg }

/-- The answer to a job is written as such. -/
theorem answerWrite_runJob (engine : LocalTtsEngine) (job : LocalSynthJob) :
    answerWrite (runJob engine job) = some (jobWrite engine job) := by
  unfold runJob jobWrite
  simp only
  split <;> rfl

/-- The write for the job of a request answers the request. -/
theorem jobWrite_answers (engine : LocalTtsEngine) (req : TtsRequestMsg) :
    AnswersRequest engine req (jobWrite engine (localJob req)) := by
  have hresult : engine.synthesize (localJob req).text (localJob req).voiceId
      (localJob req).speed = engineResult engine req := rfl
  unfold jobWrite
  rw [hresult]
  by_cases hstatus : (engineResult engine req).statusCode = 0
  · simp only [hstatus, ne_eq, not_true_eq_false, if_false]
    exact ⟨rfl, rfl, by simp [hstatus, completeWrite], by simp [hstatus, completeWrite]⟩
  · simp only [hstatus, ne_eq, not_false_eq_true, if_true]
    exact ⟨rfl, rfl, by simp [hstatus, failedWrite], by simp [failedWrite]⟩

/-- The request that a message carries. -/
def Message.request? : Message → Option TtsRequestMsg
  | .request req => some req
  | _ => none

/-- Admissions are requests of the batch, in order. -/
theorem admissions_sublist (env : Env) (hb : Heartbeat) (ms : List Message) :
    (admissions env hb ms).Sublist (ms.filterMap Message.request?) := by
  induction ms generalizing hb with
  | nil => exact List.Sublist.refl _
  | cons m ms ih =>
    have hrest := ih (handleMessage env hb m)
    cases m with
    | request req =>
      have hone : (Message.request req :: ms).filterMap Message.request? =
          req :: ms.filterMap Message.request? := rfl
      rw [hone, admissions]
      cases admission env req hb with
      | refused => exact hrest.cons _
      | noSession => exact hrest.cons _
      | onLocal => exact hrest.cons_cons _
      | onSession handle => exact hrest.cons_cons _
    | response rsp => exact hrest
    | cancel msg => exact hrest
    | localComplete c => exact hrest
    | localFailed f => exact hrest

namespace MainLoop

variable {env : Env} {engine : LocalTtsEngine} {loop : MainLoop} {events : List LoopEvent}

/-- The requests admitted in the last tick. -/
def lastAdmitted (loop : MainLoop) : List TtsRequestMsg :=
  (loop.log.getLast?.map TickRecord.admitted).getD []

/-- The write with which the engine answers a request. -/
def writeFor (engine : LocalTtsEngine) (req : TtsRequestMsg) : WriteToClient :=
  jobWrite engine (localJob req)

/-- What holds between the moves of the loop, after a sequence of events. -/
structure Inv (env : Env) (engine : LocalTtsEngine) (events : List LoopEvent)
    (loop : MainLoop) : Prop where
  localOnly : LocalOnly loop.hb
  collector : loop.hb.changeset = {}
  channel : ∀ m ∈ loop.requestChannel, LocalMessage env m
  /-- The answers in the channel and the jobs to run make up the last admissions. -/
  answers : loop.requestChannel.filterMap answerWrite ++ loop.localJobs.map (jobWrite engine) =
    loop.lastAdmitted.map (writeFor engine)
  inflight : loop.hb.board.metrics.inflight.toNat = loop.lastAdmitted.length
  counted : ∀ t ∈ loop.log, t.inflight.toNat = t.admitted.length
  /-- The writes of each tick answer the admissions of the tick before. -/
  shifted : loop.log.map (fun t => t.changeset.clientWrites) ++
      [loop.lastAdmitted.map (writeFor engine)] =
    [] :: loop.log.map fun t => t.admitted.map (writeFor engine)
  /-- Requests are admitted at most once, in the order of their arrival. -/
  ordered : (loop.log.flatMap TickRecord.admitted ++
    loop.requestChannel.filterMap Message.request?).Sublist (arrivals events)

/-- The loop starts with nothing to do. -/
theorem inv_start (maxSize : Nat) (idleTimeout maxLifetime : Duration) :
    Inv env engine [] { hb := start maxSize idleTimeout maxLifetime } where
  localOnly := ⟨History.start_poolWf maxSize idleTimeout maxLifetime, fun hp => by
    simp [start, DataBoard.empty, PendingRequestStore.get] at hp⟩
  collector := rfl
  channel := fun m hm => by cases hm
  answers := rfl
  inflight := rfl
  counted := fun t ht => by cases ht
  shifted := rfl
  ordered := List.Sublist.refl _

/-- An arrival keeps the invariant. -/
theorem Inv.arrive {req : TtsRequestMsg} (h : Inv env engine events loop)
    (hreq : shouldUseLocal env req = true) :
    Inv env engine (events ++ [.arrive req]) (loop.step env (.arrive req)) where
  localOnly := h.localOnly
  collector := h.collector
  channel := by
    intro m hm
    rcases List.mem_append.mp hm with hm | hm
    · exact h.channel m hm
    · obtain rfl := List.mem_singleton.mp hm
      exact hreq
  answers := by
    have hnone : [Message.request req].filterMap answerWrite = [] := rfl
    simp only [step, List.filterMap_append, hnone, List.append_nil]
    exact h.answers
  inflight := h.inflight
  counted := h.counted
  shifted := h.shifted
  ordered := by
    have hone : arrivals (events ++ [.arrive req]) = arrivals events ++ [req] := by
      simp [arrivals, LoopEvent.arrival?]
    simp only [step, List.filterMap_append, ← List.append_assoc, hone]
    exact h.ordered.append (List.Sublist.refl _)

/-- Running a job keeps the invariant. -/
theorem Inv.runJob {job : LocalSynthJob} {jobs : List LocalSynthJob}
    (h : Inv env engine events loop) (hjobs : loop.localJobs = job :: jobs) :
    Inv env engine events { loop with
      localJobs := jobs
      requestChannel := loop.requestChannel ++ [runJob engine job] } where
  localOnly := h.localOnly
  collector := h.collector
  channel := by
    intro m hm
    rcases List.mem_append.mp hm with hm | hm
    · exact h.channel m hm
    · obtain rfl := List.mem_singleton.mp hm
      unfold TtsServer.runJob
      simp only
      split <;> trivial
  answers := by
    have hone : [TtsServer.runJob engine job].filterMap answerWrite = [jobWrite engine job] := by
      rw [List.filterMap_cons_some (answerWrite_runJob engine job), List.filterMap_nil]
    have hlast := h.answers
    rw [hjobs, List.map_cons] at hlast
    rw [List.filterMap_append, hone, List.append_assoc, List.singleton_append]
    exact hlast
  inflight := h.inflight
  counted := h.counted
  shifted := h.shifted
  ordered := by
    have hnone : [TtsServer.runJob engine job].filterMap Message.request? = [] := by
      unfold TtsServer.runJob
      simp only
      split <;> rfl
    rw [List.filterMap_append, hnone, List.append_nil]
    exact h.ordered

/-- A tick keeps the invariant. -/
theorem Inv.tick (h : Inv env engine events loop) (hjobs : loop.localJobs = [])
    (startedAt now endedAt : TimePoint) :
    Inv env engine events (loop.tick env startedAt now endedAt) := by
  set inp : TickInput := { requests := loop.requestChannel, startedAt, now, endedAt } with hinp
  have hbatch : inp.batch = loop.requestChannel := List.append_nil _
  have hanswers : loop.requestChannel.filterMap answerWrite =
      loop.lastAdmitted.map (writeFor engine) := by
    have hlast := h.answers
    rw [hjobs, List.map_nil, List.append_nil] at hlast
    exact hlast
  have hcount : (inp.batch.filterMap answerWrite).length =
      loop.hb.board.metrics.inflight.toNat := by
    rw [hbatch, hanswers, List.length_map, h.inflight]
  have hchannel : ∀ m ∈ inp.batch, LocalMessage env m := hbatch ▸ h.channel
  obtain ⟨hlocal, hcollector, hwrites, hlocalJobs, hinflight⟩ :=
    tick_batch hchannel h.localOnly h.collector hcount
  rw [hbatch, hanswers] at hwrites
  have hlast : (loop.tick env startedAt now endedAt).lastAdmitted =
      admissions env loop.hb.beginTick inp.batch := by
    simp [lastAdmitted, MainLoop.tick, hinp]
  refine
    { localOnly := hlocal, collector := hcollector
      channel := fun m hm => absurd hm List.not_mem_nil
      answers := ?_, inflight := ?_, counted := ?_, shifted := ?_, ordered := ?_ }
  · rw [hlast]
    simp only [MainLoop.tick, List.filterMap_nil, List.nil_append]
    rw [hlocalJobs, List.map_map]
    rfl
  · rw [hlast]
    exact hinflight
  · intro t ht
    rcases List.mem_append.mp ht with ht | ht
    · exact h.counted t ht
    · obtain rfl := List.mem_singleton.mp ht
      exact hinflight
  · rw [hlast]
    simp only [MainLoop.tick, List.map_append, List.map_cons, List.map_nil]
    rw [hwrites, h.shifted, List.cons_append]
  · have hadmitted := admissions_sublist env loop.hb.beginTick inp.batch
    rw [congrArg (List.filterMap Message.request?) hbatch] at hadmitted
    simp only [MainLoop.tick, List.flatMap_append, List.flatMap_cons, List.flatMap_nil,
      List.append_nil, List.filterMap_nil]
    exact ((List.Sublist.refl _).append hadmitted).trans h.ordered

/-- The invariant holds after every sequence of events. -/
theorem inv_run (hengine : env.localEngine = some engine)
    (hlocal : ∀ req ∈ arrivals events, shouldUseLocal env req = true)
    (maxSize : Nat) (idleTimeout maxLifetime : Duration) :
    Inv env engine events (run env (start maxSize idleTimeout maxLifetime) events) := by
  induction events using List.reverseRecOn with
  | nil => exact inv_start maxSize idleTimeout maxLifetime
  | append_singleton events event ih =>
    have harrivals : arrivals (events ++ [event]) = arrivals events ++ event.arrival?.toList := by
      cases event <;> simp [arrivals, LoopEvent.arrival?]
    have hprevious := ih fun req hreq => hlocal req (harrivals ▸ List.mem_append_left _ hreq)
    rw [run, List.foldl_append]
    cases event with
    | arrive req =>
      exact hprevious.arrive (hlocal req (harrivals ▸ List.mem_append_right _ (by
        simp [LoopEvent.arrival?])))
    | advance startedAt now endedAt =>
      have hsame : arrivals (events ++ [.advance startedAt now endedAt]) = arrivals events := by
        rw [harrivals]
        exact List.append_nil _
      have hadvance : Inv env engine events
          (step env (run env (start maxSize idleTimeout maxLifetime) events)
            (.advance startedAt now endedAt)) := by
        unfold step
        cases hjobs : (run env (start maxSize idleTimeout maxLifetime) events).localJobs with
        | nil => exact hprevious.tick hjobs startedAt now endedAt
        | cons job jobs =>
          simp only [hengine]
          exact hprevious.runJob hjobs
      exact { hadvance with ordered := hsame ▸ hadvance.ordered }

/-- The records of a log with distinct identifiers answer each request once. -/
private theorem filter_requestId {ws : List WriteToClient} {w : WriteToClient}
    (hnodup : (ws.map WriteToClient.requestId).Nodup) (hw : w ∈ ws) :
    ws.filter (fun w' => w'.requestId = w.requestId) = [w] := by
  induction ws with
  | nil => cases hw
  | cons w' ws ih =>
    rw [List.map_cons, List.nodup_cons] at hnodup
    obtain ⟨hnot, hnodup⟩ := hnodup
    rcases List.mem_cons.mp hw with rfl | hw
    · have hnone : ws.filter (fun w' => w'.requestId = w.requestId) = [] := by
        rw [List.filter_eq_nil_iff]
        intro w' hw' heq
        exact hnot (of_decide_eq_true heq ▸ List.mem_map_of_mem hw')
      simp [hnone]
    · have hne : w'.requestId ≠ w.requestId := fun heq =>
        hnot (heq ▸ List.mem_map_of_mem hw)
      simp [hne, ih hnodup hw]

/-- The identifiers of all writes are pairwise distinct if those of the arrivals are. -/
theorem Inv.nodup_clientWrites (h : Inv env engine events loop)
    (hdistinct : ((arrivals events).map TtsRequestMsg.requestId).Nodup) :
    (loop.clientWrites.map WriteToClient.requestId).Nodup := by
  have hadmitted : ((loop.log.flatMap TickRecord.admitted).map TtsRequestMsg.requestId).Nodup := by
    have hsub := (List.sublist_append_left _ _).trans h.ordered
    exact (hsub.map TtsRequestMsg.requestId).nodup hdistinct
  have hflat : loop.clientWrites ++ loop.lastAdmitted.map (writeFor engine) =
      (loop.log.flatMap TickRecord.admitted).map (writeFor engine) := by
    have hshifted := congrArg List.flatten h.shifted
    simpa [clientWrites, List.flatMap_def, List.map_flatten, Function.comp_def] using hshifted
  have hids : ((loop.log.flatMap TickRecord.admitted).map (writeFor engine)).map
      WriteToClient.requestId =
        (loop.log.flatMap TickRecord.admitted).map TtsRequestMsg.requestId := by
    rw [List.map_map]
    exact List.map_congr_left fun req _ => (jobWrite_answers engine req).requestId
  rw [← hids, ← hflat, List.map_append] at hadmitted
  exact (List.nodup_append.mp hadmitted).1

/-- The closed loop of the local backend: the writes of each tick answer, in order, the
requests admitted in the tick before, with the engine's results; each of these requests has
this one write in the whole run; and the inflight counter after a tick counts the requests
that the tick has admitted. -/
theorem local_closed_loop (hengine : env.localEngine = some engine)
    (hlocal : ∀ req ∈ arrivals events, shouldUseLocal env req = true)
    (hdistinct : ((arrivals events).map TtsRequestMsg.requestId).Nodup)
    {maxSize : Nat} {idleTimeout maxLifetime : Duration} :
    let loop := run env (start maxSize idleTimeout maxLifetime) events
    (∀ {t}, loop.log[0]? = some t → t.changeset.clientWrites = []) ∧
    ∀ {k t t'}, loop.log[k]? = some t → loop.log[k + 1]? = some t' →
      List.Forall₂ (AnswersRequest engine) t.admitted t'.changeset.clientWrites ∧
      (∀ req ∈ t.admitted, ∃ w ∈ t'.changeset.clientWrites,
        loop.clientWrites.filter (fun w => w.requestId = req.requestId) = [w]) ∧
      t'.inflight.toNat = t'.admitted.length := by
  intro loop
  have hinv : Inv env engine events loop :=
    inv_run hengine hlocal maxSize idleTimeout maxLifetime
  have hnodup := hinv.nodup_clientWrites hdistinct
  constructor
  · intro t ht
    have hshifted := congrArg (·[0]?) hinv.shifted
    rw [List.getElem?_append_left] at hshifted
    · simpa [ht] using hshifted
    · simpa using (List.getElem?_eq_some_iff.mp ht).1
  · intro k t t' ht ht'
    have hwrites : t'.changeset.clientWrites = t.admitted.map (writeFor engine) := by
      have hshifted := congrArg (·[k + 1]?) hinv.shifted
      rw [List.getElem?_append_left] at hshifted
      · simpa [ht, ht'] using hshifted
      · simpa using (List.getElem?_eq_some_iff.mp ht').1
    refine ⟨?_, ?_, hinv.counted t' (List.mem_of_getElem? ht')⟩
    · rw [hwrites, List.forall₂_map_right_iff, List.forall₂_same]
      exact fun req _ => jobWrite_answers engine req
    · intro req hreq
      have hmem : writeFor engine req ∈ t'.changeset.clientWrites :=
        hwrites ▸ List.mem_map_of_mem hreq
      refine ⟨writeFor engine req, hmem, ?_⟩
      have hlogged : writeFor engine req ∈ loop.clientWrites :=
        List.mem_flatMap.mpr ⟨t', List.mem_of_getElem? ht', hmem⟩
      rw [← (jobWrite_answers engine req).requestId]
      exact filter_requestId hnodup hlogged

/-- An engine that speaks the characters of a text and refuses the empty text. -/
def sampleEngine : LocalTtsEngine where
  isReady := true
  synthesize := fun text _ _ =>
    if text = "" then { statusCode := 3, statusMsg := "empty" }
    else { samples := text.toList.map fun c => BitVec.ofNat 16 c.toNat }

/-- Two requests, a tick, the first job, a third request, the second job, and a tick. -/
def sampleEvents : List LoopEvent :=
  [.arrive { requestId := "a", text := "hi" }, .arrive { requestId := "b" }, .advance 0 0 0,
   .advance 0 0 0, .arrive { requestId := "c", text := "ok" }, .advance 0 0 0, .advance 0 0 0]

/-- The sample environment with this engine. -/
def speakingEnv : Env := { sampleEnv with localEngine := some sampleEngine }

/-- The first tick of the sample admits two requests, which the second tick answers. -/
theorem local_closed_loop_sample :
    ∃ t t', (run speakingEnv (start 16 (seconds 60) (seconds 3600)) sampleEvents).log = [t, t'] ∧
      t.admitted.map TtsRequestMsg.requestId = ["a", "b"] ∧
      List.Forall₂ (AnswersRequest sampleEngine) t.admitted t'.changeset.clientWrites := by
  obtain ⟨-, hnext⟩ := @local_closed_loop speakingEnv sampleEngine sampleEvents rfl (by decide)
    (by decide) 16 (seconds 60) (seconds 3600)
  obtain ⟨t, t', hlog, hids⟩ : ∃ t t', (run speakingEnv (start 16 (seconds 60) (seconds 3600))
      sampleEvents).log = [t, t'] ∧ t.admitted.map TtsRequestMsg.requestId = ["a", "b"] :=
    ⟨_, _, rfl, rfl⟩
  refine ⟨t, t', hlog, hids, (@hnext 0 t t' ?_ ?_).1⟩
  · rw [hlog, List.getElem?_cons_zero]
  · rw [hlog, List.getElem?_cons_succ, List.getElem?_cons_zero]

end MainLoop

end TtsServer
