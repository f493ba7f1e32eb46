import TtsServer.StreamAnswers
import TtsServer.Lib.LeadsTo

/-!
# Stream calls are served

Once the request of a stream call has become a job while its handler drains its queue, the
answer passes from stage to stage: the job is run, a tick takes the answer up, the response
is looked up and handed to the queue, and the handler writes it. Each of these happens
sooner or later if the heartbeat thread and the handler go on, however the other calls and
the upstream sessions are interleaved with them.
-/

namespace TtsServer

open Lib Heartbeat History

namespace Server

variable {env : Env} {engine : LocalTtsEngine} {rid : String} {σ : Server} {call : StreamCall}
  {w : WriteToClient} {addressee : Addressee} {k : Nat}

/-- The handler of the call drains its queue, which is empty. -/
def Awaits (rid : String) (req : TtsRequestMsg) (σ : Server) : Prop :=
  ∃ call, σ.streams.lookup rid = some call ∧ call.phase = .serving ∧ call.request = req ∧
    call.localQueue = []

/-- The moves of the heartbeat thread. -/
def IsAdvance (ev : ServerEvent) : Prop :=
  ∃ startedAt now endedAt, ev = .advance startedAt now endedAt

/-- The number of moves of the heartbeat thread before its next tick. -/
def untilTick (σ : Server) : Nat :=
  σ.inHand.toList.length + 2 * σ.clientWrites.length + σ.localJobs.length

variable {req : TtsRequestMsg} {ev : ServerEvent}

/-- The heartbeat thread keeps its own data to itself; the others send to its channels. -/
theorem step_frame (hev : ¬IsAdvance ev) :
    (σ.step env ev).localJobs = σ.localJobs ∧ (σ.step env ev).clientWrites = σ.clientWrites ∧
      (σ.step env ev).inHand = σ.inHand ∧
      ∃ ms, (σ.step env ev).requestChannel = σ.requestChannel ++ ms := by
  cases ev with
  | advance startedAt now endedAt => exact absurd ⟨startedAt, now, endedAt, rfl⟩ hev
  | openStream parsed => cases parsed <;> exact ⟨rfl, rfl, rfl, [], (List.append_nil _).symm⟩
  | send id => exact ⟨rfl, rfl, rfl, _, rfl⟩
  | clientChunk id req => exact ⟨rfl, rfl, rfl, _, rfl⟩
  | registerQueue id => exact ⟨rfl, rfl, rfl, [], (List.append_nil _).symm⟩
  | registerWriter id => exact ⟨rfl, rfl, rfl, [], (List.append_nil _).symm⟩
  | drain id accepted => exact ⟨rfl, rfl, rfl, [], (List.append_nil _).symm⟩
  | abandon id => exact ⟨rfl, rfl, rfl, [], (List.append_nil _).symm⟩
  | openClient => exact ⟨rfl, rfl, rfl, [], (List.append_nil _).symm⟩
  | upstreamEvent rsp => exact ⟨rfl, rfl, rfl, [], (List.append_nil _).symm⟩

/-- The record of a call whose handler is in its drain loop, after a move that is neither one of
the heartbeat thread nor one of the handler. -/
theorem Orderly.lookup_of_serving (h : Orderly σ) (hcall : σ.streams.lookup rid = some call)
    (hserving : call.phase = .serving) (hev : ¬IsAdvance ev)
    (hhandler : ev ≠ .abandon rid ∧ ∀ n, ev ≠ .drain rid n) :
    (σ.step env ev).streams.lookup rid = some call := by
  have hproceed {id : String} {phase : StreamPhase} {f : StreamCall → StreamCall}
      (hother : ¬(rid = id ∧ call.phase = phase)) :
      (σ.proceed id phase f).streams.lookup rid = some call := by
    rw [lookup_proceed, hcall, Option.map_some, if_neg hother]
  cases ev with
  | advance startedAt now endedAt => exact absurd ⟨startedAt, now, endedAt, rfl⟩ hev
  | openStream parsed =>
    cases parsed with
    | none => exact hcall
    | some req =>
      obtain ⟨-, n, hn, hrid⟩ := h.named hcall
      refine (AList.lookup_insert_ne fun heq => ?_).trans hcall
      have hctr := generateRequestId_injective (hrid.symm.trans heq)
      omega
  | send id => exact hproceed (by simp [hserving])
  | registerQueue id => exact hproceed (by simp [hserving])
  | registerWriter id => exact hproceed (by simp [hserving])
  | drain id accepted =>
    exact hproceed fun hboth => hhandler.2 accepted (by rw [hboth.1])
  | abandon id => exact hproceed fun hboth => hhandler.1 (by rw [hboth.1])
  | openClient => exact hcall
  | clientChunk id req => exact hcall
  | upstreamEvent rsp => exact hcall

/-- Every move of the heartbeat thread brings its next tick nearer, unless it is the tick. -/
theorem untilTick_advance (hev : IsAdvance ev) (hbusy : σ.untilTick ≠ 0) :
    (σ.step env ev).untilTick + 1 = σ.untilTick := by
  obtain ⟨startedAt, now, endedAt, rfl⟩ := hev
  simp only [Server.step, Server.advance]
  split
  · next w addressee hhand =>
    have hframe : (σ.deliver w addressee).localJobs = σ.localJobs ∧
        (σ.deliver w addressee).clientWrites = σ.clientWrites ∧
        (σ.deliver w addressee).inHand = none := by
      cases addressee <;> exact ⟨rfl, rfl, rfl⟩
    obtain ⟨hjobs, hwrites, hnone⟩ := hframe
    simp only [untilTick, hjobs, hwrites, hnone, hhand, Option.toList_none, Option.toList_some,
      List.length_nil, List.length_singleton]
    omega
  · next hhand =>
    split
    · next w ws hwrites =>
      simp only [untilTick, hwrites, hhand, Option.toList_none, Option.toList_some,
        List.length_nil, List.length_cons]
      omega
    · next hwrites =>
      split
      · next job jobs hjobs =>
        simp only [untilTick, hjobs, List.length_cons]
        omega
      · next hjobs =>
        refine absurd ?_ hbusy
        simp only [untilTick, hhand, hwrites, hjobs]
        rfl

/-- The moves of the others do not keep the heartbeat thread from its next tick. -/
theorem untilTick_others (hev : ¬IsAdvance ev) : (σ.step env ev).untilTick = σ.untilTick := by
  obtain ⟨hjobs, hwrites, hhand, -⟩ := @step_frame env σ ev hev
  simp only [untilTick, hjobs, hwrites, hhand]

/-- Before a tick, every move of the heartbeat thread counts, and no other move does. -/
theorem untilTick_step (hbusy : σ.untilTick ≠ 0) :
    (σ.step env ev).untilTick ≤ σ.untilTick ∧
      (IsAdvance ev → (σ.step env ev).untilTick < σ.untilTick) := by
  by_cases hev : IsAdvance ev
  · have hnearer := @untilTick_advance env σ ev hev hbusy
    exact ⟨by omega, fun _ => by omega⟩
  · exact ⟨(untilTick_others hev).le, fun h => absurd h hev⟩

/-- A handler that finds nothing in its queue stays where it is. -/
theorem Orderly.awaits_others (h : Orderly σ) (hawaits : Awaits rid req σ) (hev : ¬IsAdvance ev)
    (hstays : ev ≠ .abandon rid) : Awaits rid req (σ.step env ev) := by
  obtain ⟨call, hcall, hserving, hrequest, hqueue⟩ := hawaits
  by_cases hdrain : ∃ n, ev = .drain rid n
  · obtain ⟨n, rfl⟩ := hdrain
    have hcall' : (σ.step env (.drain rid n)).streams.lookup rid = some (call.drain n) := by
      refine lookup_proceed.trans ?_
      rw [hcall, Option.map_some, if_pos ⟨rfl, hserving⟩]
    have hnothing : writeDrained n call.localQueue = ([], false) := by
      rw [hqueue]
      cases n <;> rfl
    refine ⟨_, hcall', ?_, hrequest, rfl⟩
    simp [StreamCall.drain, hnothing, hserving]
  · exact ⟨call, h.lookup_of_serving hcall hserving hev
      ⟨hstays, fun n hn => hdrain ⟨n, hn⟩⟩, hserving, hrequest, hqueue⟩

/-- The queue of a handler after a move of the heartbeat thread: it has got the response in hand
or nothing. -/
theorem lookup_advance (hcall : σ.streams.lookup rid = some call) (hev : IsAdvance ev) :
    ∃ ws, (σ.step env ev).streams.lookup rid =
        some { call with localQueue := call.localQueue ++ ws } ∧
      ((∀ {w a}, σ.inHand = some (w, a) → w.requestId ≠ rid) → ws = []) := by
  obtain ⟨startedAt, now, endedAt, rfl⟩ := hev
  have hsame : call = { call with localQueue := call.localQueue ++ [] } := by simp
  simp only [Server.step, Server.advance]
  split
  · next w addressee hhand =>
    rw [streams_deliver, hcall, Option.map_some]
    split
    · next hqueue => exact ⟨[w], rfl, fun hother => absurd hqueue.2.symm (hother hhand)⟩
    · exact ⟨[], congrArg some hsame, fun _ => rfl⟩
  · split
    · exact ⟨[], hcall.trans (congrArg some hsame), fun _ => rfl⟩
    · split
      · exact ⟨[], hcall.trans (congrArg some hsame), fun _ => rfl⟩
      · refine ⟨[], ?_, fun _ => rfl⟩
        rw [streams_tick]
        exact hcall.trans (congrArg some hsame)

/-- A handler that waits goes on waiting, unless the response in hand is for its call. -/
theorem Orderly.awaits_step (h : Orderly σ) (hawaits : Awaits rid req σ)
    (hstays : ev ≠ .abandon rid) (hhand : ∀ {w a}, σ.inHand = some (w, a) → w.requestId ≠ rid) :
    Awaits rid req (σ.step env ev) := by
  by_cases hev : IsAdvance ev
  · obtain ⟨call, hcall, hserving, hrequest, hqueue⟩ := hawaits
    obtain ⟨ws, hcall', hnothing⟩ := @lookup_advance env rid σ call ev hcall hev
    rw [hnothing hhand, List.append_nil] at hcall'
    exact ⟨call, hcall', hserving, hrequest, hqueue⟩
  · exact h.awaits_others hawaits hev hstays

/-- The stages hold at most one response of the call. -/
theorem Answering.alone (h : Answering env engine k σ) :
    (σ.dispatchedFor (generateRequestId "strm" k)).length + ((σ.inHand.map Prod.fst).toList.filter
        fun w => w.requestId = generateRequestId "strm" k).length +
      (σ.clientWrites.filter fun w => w.requestId = generateRequestId "strm" k).length +
      ((σ.requestChannel.filterMap answerWrite).filter
        fun w => w.requestId = generateRequestId "strm" k).length +
      (σ.localJobs.filter fun job => job.requestId = generateRequestId "strm" k).length ≤ 1 := by
  have hasked : (σ.asked engine (generateRequestId "strm" k)).length ≤ 1 := by
    cases hcall : σ.streams.lookup (generateRequestId "strm" k) with
    | none => simp [asked_eq_nil hcall]
    | some call =>
      rw [asked_eq hcall]
      split <;> simp
  have hlength := h.stages.length_le
  simp only [Server.stages, List.filter_append, filter_map_jobWrite, List.length_append,
    List.length_map] at hlength
  unfold dispatchedFor
  omega

/-- An item for the call is counted. -/
private theorem one_le_of_mem {A : Type*} {id : A → String} {l : List A} {a : A} (ha : a ∈ l)
    (hid : id a = rid) : 1 ≤ (l.filter fun a => id a = rid).length :=
  List.length_pos_of_mem (List.mem_filter.mpr ⟨ha, decide_eq_true hid⟩)

/-- The response in hand is for another call if one for this call is behind it. -/
theorem Answering.hand_other (h : Answering env engine k σ)
    (hhand : σ.inHand = some (w, addressee))
    (hlater : 1 ≤ (σ.clientWrites.filter fun w => w.requestId = generateRequestId "strm" k).length +
      ((σ.requestChannel.filterMap answerWrite).filter
        fun w => w.requestId = generateRequestId "strm" k).length +
      (σ.localJobs.filter fun job => job.requestId = generateRequestId "strm" k).length) :
    w.requestId ≠ generateRequestId "strm" k := by
  intro hid
  have halone := h.alone
  rw [hhand] at halone
  simp only [Option.map_some, Option.toList_some, List.filter_cons, hid, decide_true, if_true,
    List.filter_nil, List.length_singleton] at halone
  omega

/-- The request of the call is a job to be run. -/
def HasJob (rid : String) (σ : Server) : Prop := ∃ job ∈ σ.localJobs, job.requestId = rid

/-- The answer to the call is on its way to the heartbeat. -/
def HasAnswer (rid : String) (σ : Server) : Prop :=
  ∃ w ∈ σ.requestChannel.filterMap answerWrite, w.requestId = rid

/-- The response to the call is to be looked up. -/
def HasWrite (rid : String) (σ : Server) : Prop := ∃ w ∈ σ.clientWrites, w.requestId = rid

/-- The response to the call is about to go to the queue of its handler. -/
def HandedOver (rid : String) (σ : Server) : Prop :=
  ∃ w, σ.inHand = some (w, .localQueue) ∧ w.requestId = rid

/-- The queue of the handler holds a response. -/
def HasQueued (rid : String) (req : TtsRequestMsg) (σ : Server) : Prop :=
  ∃ call, σ.streams.lookup rid = some call ∧ call.phase = .serving ∧ call.request = req ∧
    call.localQueue ≠ []

/-- The client has received the answer to its request, and the handler has returned. -/
def Served (engine : LocalTtsEngine) (rid : String) (req : TtsRequestMsg) (σ : Server) : Prop :=
  ∃ call, σ.streams.lookup rid = some call ∧ call.phase = .left ∧
    call.written = [MainLoop.writeFor engine req]

/-- A job is kept until it is run. -/
theorem hasJob_step (hengine : env.localEngine = some engine) (hjob : HasJob rid σ) :
    HasJob rid (σ.step env ev) ∨ HasAnswer rid (σ.step env ev) := by
  obtain ⟨job, hmem, hid⟩ := hjob
  by_cases hev : IsAdvance ev
  · obtain ⟨startedAt, now, endedAt, rfl⟩ := hev
    simp only [Server.step, Server.advance]
    split
    · next w addressee hhand =>
      refine Or.inl ⟨job, ?_, hid⟩
      cases addressee <;> exact hmem
    · split
      · exact Or.inl ⟨job, hmem, hid⟩
      · split
        · next first jobs hjobs =>
          rw [hjobs] at hmem
          rcases List.mem_cons.mp hmem with rfl | hmem
          · refine Or.inr ⟨jobWrite engine job, ?_, ?_⟩
            · simp [List.filterMap_append, hengine, answerWrite_runJob]
            · rw [← hid]
              unfold jobWrite
              simp only
              split <;> rfl
          · exact Or.inl ⟨job, hmem, hid⟩
        · next hjobs =>
          rw [hjobs] at hmem
          cases hmem
  · exact Or.inl ⟨job, (@step_frame env σ ev hev).1 ▸ hmem, hid⟩

/-- An answer is kept until the next tick. -/
theorem hasAnswer_step (hanswer : HasAnswer rid σ) (hev : IsAdvance ev → σ.untilTick ≠ 0) :
    HasAnswer rid (σ.step env ev) := by
  obtain ⟨w, hmem, hid⟩ := hanswer
  by_cases hadvance : IsAdvance ev
  · have hbusy := hev hadvance
    obtain ⟨startedAt, now, endedAt, rfl⟩ := hadvance
    simp only [Server.step, Server.advance]
    split
    · next w' addressee hhand =>
      refine ⟨w, ?_, hid⟩
      cases addressee <;> exact hmem
    · next hhand =>
      split
      · exact ⟨w, hmem, hid⟩
      · next hwrites =>
        split
        · refine ⟨w, ?_, hid⟩
          rw [List.filterMap_append]
          exact List.mem_append_left _ hmem
        · next hjobs =>
          refine absurd ?_ hbusy
          simp only [untilTick, hhand, hwrites, hjobs]
          rfl
  · obtain ⟨-, -, -, ms, hchannel⟩ := @step_frame env σ ev hadvance
    refine ⟨w, ?_, hid⟩
    rw [hchannel, List.filterMap_append]
    exact List.mem_append_left _ hmem

/-- The tick makes a response of an answer. -/
theorem Answering.hasWrite_tick (h : Answering env engine k σ) (horderly : Orderly σ)
    (hanswer : HasAnswer (generateRequestId "strm" k) σ) (hev : IsAdvance ev)
    (hidle : σ.untilTick = 0) : HasWrite (generateRequestId "strm" k) (σ.step env ev) := by
  obtain ⟨w, hmem, hid⟩ := hanswer
  obtain ⟨startedAt, now, endedAt, rfl⟩ := hev
  have hempty : σ.inHand = none ∧ σ.clientWrites = [] ∧ σ.localJobs = [] := by
    unfold untilTick at hidle
    refine ⟨?_, List.eq_nil_of_length_eq_zero (by omega), List.eq_nil_of_length_eq_zero (by omega)⟩
    cases hhand : σ.inHand with
    | none => rfl
    | some x => simp [hhand] at hidle
  obtain ⟨hhand, hwrites, hjobs⟩ := hempty
  have hbatch : ∀ m ∈ TickInput.batch
      { requests := σ.requestChannel, events := σ.wsEventChannel, startedAt, now, endedAt },
      LocalFor env (generateRequestId "strm" k) m := by
    intro m hm
    rcases List.mem_append.mp hm with hm | hm
    · exact h.channel m hm
    · obtain ⟨rsp, rfl⟩ := horderly.events m hm
      exact fun req hreq => by cases hreq
  have hticked := (h.unbound.tick horderly.collector hbatch).2.1
  have hanswered : w ∈ ((TickInput.batch
      { requests := σ.requestChannel, events := σ.wsEventChannel, startedAt, now,
        endedAt }).filterMap answerWrite).filter
          fun w => w.requestId = generateRequestId "strm" k := by
    rw [TickInput.batch, List.filterMap_append]
    exact List.mem_filter.mpr ⟨List.mem_append_left _ hmem, decide_eq_true hid⟩
  rw [← hticked] at hanswered
  simp only [Server.step, Server.advance, hhand, hwrites, hjobs]
  exact ⟨w, (List.mem_filter.mp hanswered).1, hid⟩

/-- A response is kept until it is looked up; the queue of a handler in its drain loop is found. -/
theorem hasWrite_step (hwrite : HasWrite rid σ) (hawaits : Awaits rid req σ) :
    HasWrite rid (σ.step env ev) ∨ HandedOver rid (σ.step env ev) := by
  obtain ⟨w, hmem, hid⟩ := hwrite
  by_cases hev : IsAdvance ev
  · obtain ⟨startedAt, now, endedAt, rfl⟩ := hev
    simp only [Server.step, Server.advance]
    split
    · next w' addressee hhand =>
      refine Or.inl ⟨w, ?_, hid⟩
      cases addressee <;> exact hmem
    · split
      · next first ws hwrites =>
        rw [hwrites] at hmem
        rcases List.mem_cons.mp hmem with rfl | hmem
        · obtain ⟨call, hcall, hserving, -⟩ := hawaits
          have hqueue : σ.lookup w.requestId = .localQueue := by
            rw [Server.lookup, hid, hcall, Option.any_some, hserving]
            rfl
          exact Or.inr ⟨w, by simp only [hqueue], hid⟩
        · exact Or.inl ⟨w, hmem, hid⟩
      · next hwrites =>
        rw [hwrites] at hmem
        cases hmem
  · exact Or.inl ⟨w, (@step_frame env σ ev hev).2.1 ▸ hmem, hid⟩

/-- The next move of the heartbeat thread puts the response into the queue. -/
theorem hasQueued_of_handedOver (hhanded : HandedOver rid σ) (hawaits : Awaits rid req σ)
    (hev : IsAdvance ev) : HasQueued rid req (σ.step env ev) := by
  obtain ⟨w, hhand, hid⟩ := hhanded
  obtain ⟨call, hcall, hserving, hrequest, -⟩ := hawaits
  obtain ⟨startedAt, now, endedAt, rfl⟩ := hev
  simp only [Server.step, Server.advance, hhand]
  refine ⟨{ call with localQueue := call.localQueue ++ [w] }, ?_, hserving, hrequest, by simp⟩
  rw [streams_deliver, hcall, Option.map_some, if_pos ⟨rfl, hid.symm⟩]

/-- A handler that finds the answer in its queue writes it and returns. -/
theorem Answering.served_of_drain (h : Answering env engine k σ)
    (hqueued : HasQueued (generateRequestId "strm" k) req σ) (n : Nat) :
    Served engine (generateRequestId "strm" k) req
      (σ.step env (.drain (generateRequestId "strm" k) (n + 1))) := by
  obtain ⟨call, hcall, hserving, hrequest, hqueue⟩ := hqueued
  -- the queue holds the answer and nothing else, and nothing has been written before
  have hall : (call.written ++ call.localQueue).Sublist
      [MainLoop.writeFor engine call.request] := by
    have hasked := (h.handler hcall).trans (dispatchedFor_sublist.trans h.stages)
    rw [asked_eq hcall, if_neg (by simp [hserving])] at hasked
    exact hasked
  have hsplit : call.written = [] ∧ call.localQueue = [MainLoop.writeFor engine call.request] := by
    rcases List.sublist_singleton.mp hall with hnil | hone
    · exact absurd (List.append_eq_nil_iff.mp hnil).2 hqueue
    · rcases List.append_eq_singleton_iff.mp hone with hcase | hcase
      · exact hcase
      · exact absurd hcase.2 hqueue
  have hfinal : (MainLoop.writeFor engine call.request).isFinal = true :=
    (jobWrite_answers engine call.request).isFinal
  have hdrained : writeDrained (n + 1) call.localQueue =
      ([MainLoop.writeFor engine call.request], true) := by
    simp [hsplit.2, writeDrained, hfinal]
  refine ⟨call.drain (n + 1), ?_, ?_, ?_⟩
  · refine lookup_proceed.trans ?_
    rw [hcall, Option.map_some, if_pos ⟨rfl, hserving⟩]
  · simp [StreamCall.drain, hdrained]
  · simp [StreamCall.drain, hdrained, hsplit.1, hrequest]

/-- A response stays in the queue until the handler drains it. -/
theorem Orderly.hasQueued_step (h : Orderly σ) (hqueued : HasQueued rid req σ)
    (hstays : ev ≠ .abandon rid) (hdrain : ∀ n, ev ≠ .drain rid n) :
    HasQueued rid req (σ.step env ev) := by
  obtain ⟨call, hcall, hserving, hrequest, hqueue⟩ := hqueued
  by_cases hev : IsAdvance ev
  · obtain ⟨ws, hcall', -⟩ := @lookup_advance env rid σ call ev hcall hev
    exact ⟨_, hcall', hserving, hrequest, by simp [hqueue]⟩
  · exact ⟨call, h.lookup_of_serving hcall hserving hev ⟨hstays, hdrain⟩, hserving, hrequest,
      hqueue⟩

section Liveness

variable {ls : ℕ → ServerEvent} {init : Server}

/-- The states along a schedule in which the client of the call stays. -/
structure Patient (env : Env) (engine : LocalTtsEngine) (k : Nat) (req : TtsRequestMsg)
    (init : Server) (ls : ℕ → ServerEvent) : Prop where
  orderly : ∀ n, Orderly (trace (step env) init ls n)
  answering : ∀ n, (∃ call, (trace (step env) init ls n).streams.lookup
    (generateRequestId "strm" k) = some call ∧ call.request = req) →
      Answering env engine k (trace (step env) init ls n)
  stays : ∀ n, ls n ≠ .abandon (generateRequestId "strm" k)
  accepts : ∀ n, ls n ≠ .drain (generateRequestId "strm" k) 0
  beats : AgainAndAgain IsAdvance ls
  drains : AgainAndAgain (fun ev => ∃ n, ev = .drain (generateRequestId "strm" k) n) ls

variable (h : Patient env engine k req init ls)

include h

/-- While a call awaits its answer, its answer is on the way. -/
theorem Patient.answering_of_awaits {n : ℕ}
    (hawaits : Awaits (generateRequestId "strm" k) req (trace (step env) init ls n)) :
    Answering env engine k (trace (step env) init ls n) := by
  obtain ⟨call, hcall, -, hrequest, -⟩ := hawaits
  exact h.answering n ⟨call, hcall, hrequest⟩

/-- The handler waits as long as the response to its call is behind the one in hand. -/
theorem Patient.awaits_next {n : ℕ}
    (hawaits : Awaits (generateRequestId "strm" k) req (trace (step env) init ls n))
    (hlater : 1 ≤ ((trace (step env) init ls n).clientWrites.filter
        fun w => w.requestId = generateRequestId "strm" k).length +
      (((trace (step env) init ls n).requestChannel.filterMap answerWrite).filter
        fun w => w.requestId = generateRequestId "strm" k).length +
      ((trace (step env) init ls n).localJobs.filter
        fun job => job.requestId = generateRequestId "strm" k).length) :
    Awaits (generateRequestId "strm" k) req (trace (step env) init ls (n + 1)) :=
  (h.orderly n).awaits_step hawaits (h.stays n) fun hhand =>
    (h.answering_of_awaits hawaits).hand_other hhand hlater

/-- A job leads to an answer. -/
theorem Patient.job_leadsTo (hengine : env.localEngine = some engine) :
    LeadsTo (trace (step env) init ls)
      (fun σ => Awaits (generateRequestId "strm" k) req σ ∧ HasJob (generateRequestId "strm" k) σ)
      (fun σ => Awaits (generateRequestId "strm" k) req σ ∧
        HasAnswer (generateRequestId "strm" k) σ) := by
  refine leadsTo_of_measure h.beats untilTick fun n ⟨hawaits, hjob⟩ => ?_
  have hnext : Awaits (generateRequestId "strm" k) req (trace (step env) init ls (n + 1)) := by
    obtain ⟨job, hmem, hid⟩ := hjob
    have hcount := one_le_of_mem hmem hid
    exact h.awaits_next hawaits (by omega)
  have hbusy : (trace (step env) init ls n).untilTick ≠ 0 := by
    obtain ⟨job, hmem, -⟩ := hjob
    have hpos := List.length_pos_of_mem hmem
    unfold untilTick
    omega
  rcases @hasJob_step env engine _ _ (ls n) hengine hjob with hjob' | hanswer
  · exact Or.inr ⟨⟨hnext, hjob'⟩, untilTick_step hbusy⟩
  · exact Or.inl ⟨hnext, hanswer⟩

/-- An answer leads to a response. -/
theorem Patient.answer_leadsTo :
    LeadsTo (trace (step env) init ls)
      (fun σ => Awaits (generateRequestId "strm" k) req σ ∧
        HasAnswer (generateRequestId "strm" k) σ)
      (fun σ => Awaits (generateRequestId "strm" k) req σ ∧
        HasWrite (generateRequestId "strm" k) σ) := by
  refine leadsTo_of_measure h.beats untilTick fun n ⟨hawaits, hanswer⟩ => ?_
  have hnext : Awaits (generateRequestId "strm" k) req (trace (step env) init ls (n + 1)) := by
    obtain ⟨w, hmem, hid⟩ := hanswer
    have hcount := one_le_of_mem hmem hid
    exact h.awaits_next hawaits (by omega)
  by_cases hidle : IsAdvance (ls n) ∧ (trace (step env) init ls n).untilTick = 0
  · exact Or.inl ⟨hnext, (h.answering_of_awaits hawaits).hasWrite_tick (h.orderly n) hanswer
      hidle.1 hidle.2⟩
  · refine Or.inr ⟨⟨hnext, hasAnswer_step hanswer fun hev htick => hidle ⟨hev, htick⟩⟩, ?_⟩
    by_cases hev : IsAdvance (ls n)
    · exact untilTick_step fun htick => hidle ⟨hev, htick⟩
    · exact ⟨(untilTick_others hev).le, fun hbeat => absurd hbeat hev⟩

/-- A response leads to the queue of its handler. -/
theorem Patient.write_leadsTo :
    LeadsTo (trace (step env) init ls)
      (fun σ => Awaits (generateRequestId "strm" k) req σ ∧
        HasWrite (generateRequestId "strm" k) σ)
      (fun σ => Awaits (generateRequestId "strm" k) req σ ∧
        HandedOver (generateRequestId "strm" k) σ) := by
  refine leadsTo_of_measure h.beats untilTick fun n ⟨hawaits, hwrite⟩ => ?_
  have hnext : Awaits (generateRequestId "strm" k) req (trace (step env) init ls (n + 1)) := by
    obtain ⟨w, hmem, hid⟩ := hwrite
    have hcount := one_le_of_mem hmem hid
    exact h.awaits_next hawaits (by omega)
  have hbusy : (trace (step env) init ls n).untilTick ≠ 0 := by
    obtain ⟨w, hmem, -⟩ := hwrite
    have hpos := List.length_pos_of_mem hmem
    unfold untilTick
    omega
  rcases @hasWrite_step env _ _ req (ls n) hwrite hawaits with hwrite' | hhanded
  · exact Or.inr ⟨⟨hnext, hwrite'⟩, untilTick_step hbusy⟩
  · exact Or.inl ⟨hnext, hhanded⟩

/-- The response in hand leads to the queue. -/
theorem Patient.handedOver_leadsTo :
    LeadsTo (trace (step env) init ls)
      (fun σ => Awaits (generateRequestId "strm" k) req σ ∧
        HandedOver (generateRequestId "strm" k) σ)
      (HasQueued (generateRequestId "strm" k) req) := by
  refine leadsTo_of_measure h.beats (fun _ => 0) fun n ⟨hawaits, hhanded⟩ => ?_
  by_cases hev : IsAdvance (ls n)
  · exact Or.inl (hasQueued_of_handedOver hhanded hawaits hev)
  · obtain ⟨w, hhand, hid⟩ := hhanded
    refine Or.inr ⟨⟨(h.orderly n).awaits_others hawaits hev (h.stays n), w, ?_, hid⟩,
      Nat.le_refl _, fun hbeat => absurd hbeat hev⟩
    exact (@step_frame env _ _ hev).2.2.1.trans hhand

/-- A queued response leads to the client. -/
theorem Patient.queued_leadsTo :
    LeadsTo (trace (step env) init ls) (HasQueued (generateRequestId "strm" k) req)
      (Served engine (generateRequestId "strm" k) req) := by
  refine leadsTo_of_measure h.drains (fun _ => 0) fun n hqueued => ?_
  by_cases hdrain : ∃ m, ls n = .drain (generateRequestId "strm" k) m
  · obtain ⟨m, hm⟩ := hdrain
    have hanswering : Answering env engine k (trace (step env) init ls n) := by
      obtain ⟨call, hcall, -, hrequest, -⟩ := hqueued
      exact h.answering n ⟨call, hcall, hrequest⟩
    cases m with
    | zero => exact absurd hm (h.accepts n)
    | succ m =>
      have hserved := hanswering.served_of_drain hqueued m
      rw [← hm] at hserved
      exact Or.inl hserved
  · exact Or.inr ⟨(h.orderly n).hasQueued_step hqueued (h.stays n) fun m hm => hdrain ⟨m, hm⟩,
      Nat.le_refl _, fun hdrains => absurd hdrains hdrain⟩

/-- From the job to the client. -/
theorem Patient.leadsTo (hengine : env.localEngine = some engine) :
    LeadsTo (trace (step env) init ls)
      (fun σ => Awaits (generateRequestId "strm" k) req σ ∧ HasJob (generateRequestId "strm" k) σ)
      (Served engine (generateRequestId "strm" k) req) :=
  (h.job_leadsTo hengine).trans
    (h.answer_leadsTo.trans
      (h.write_leadsTo.trans (h.handedOver_leadsTo.trans h.queued_leadsTo)))

end Liveness

/-- **A stream call is served**: in every run in which the heartbeat thread and the handler of
the call go on and the client stays, a call whose request has become a job while its handler
was draining its queue ends with its client having received the answer, and nothing else. -/
theorem stream_served (env : Env) (engine : LocalTtsEngine)
    (hengine : env.localEngine = some engine) (maxSize : Nat) (idleTimeout maxLifetime : Duration)
    (ls : ℕ → ServerEvent) {rid : String} (hstays : ∀ n, ls n ≠ .abandon rid)
    (haccepts : ∀ n, ls n ≠ .drain rid 0) (hbeats : AgainAndAgain IsAdvance ls)
    (hdrains : AgainAndAgain (fun ev => ∃ n, ev = .drain rid n) ls) {i : ℕ} {call : StreamCall}
    (hcall : (trace (step env) { hb := start maxSize idleTimeout maxLifetime } ls
      i).streams.lookup rid = some call) (hserving : call.phase = .serving)
    (hlocal : shouldUseLocal env call.request = true)
    (hjob : ∃ job ∈ (trace (step env) { hb := start maxSize idleTimeout maxLifetime } ls
      i).localJobs, job.requestId = rid) :
    ∃ j, i ≤ j ∧ ∃ call', (trace (step env) { hb := start maxSize idleTimeout maxLifetime } ls
        j).streams.lookup rid = some call' ∧ call'.phase = .left ∧
      call'.written = [MainLoop.writeFor engine call.request] := by
  have hrun (k n : ℕ) := @run_answering env engine k hengine maxSize idleTimeout maxLifetime
    ((List.range n).map ls)
  simp only [Server.run, ← trace_eq_foldl] at hrun
  obtain ⟨-, k, -, rfl⟩ := (hrun 0 i).1.named hcall
  have hpatient : Patient env engine k call.request
      { hb := start maxSize idleTimeout maxLifetime } ls := by
    refine ⟨fun n => (hrun 0 n).1, fun n ⟨call', hcall', hrequest⟩ => (hrun k n).2 ?_, hstays,
      haccepts, hbeats, hdrains⟩
    intro call'' hcall''
    rw [← Option.some.inj (hcall'.symm.trans hcall''), hrequest]
    exact hlocal
  -- the job is the one response of the call, so nothing has been handed to the handler yet
  have hqueue : call.localQueue = [] := by
    have hanswering := hpatient.answering i ⟨call, hcall, rfl⟩
    have halone := hanswering.alone
    obtain ⟨job, hmem, hid⟩ := hjob
    have hcount := one_le_of_mem hmem hid
    have hlength := (hanswering.handler hcall).length_le
    rw [List.length_append] at hlength
    exact List.eq_nil_of_length_eq_zero (by omega)
  exact hpatient.leadsTo hengine i ⟨⟨call, hcall, hserving, rfl, hqueue⟩, hjob⟩

/-- A call that is opened and registered, and then the heartbeat thread and the handler in turn. -/
def patientSchedule : ℕ → ServerEvent
  | 0 => .openStream (some { requestId := "", text := "hi" })
  | 1 => .send "strm-1"
  | 2 => .registerQueue "strm-1"
  | 3 => .registerWriter "strm-1"
  | n + 4 => if n % 2 = 0 then .advance 0 0 0 else .drain "strm-1" 1

/-- After the first tick the request is a job, and the schedule goes on for ever. -/
theorem stream_served_patientSchedule :
    ∃ j, 5 ≤ j ∧ ∃ call', (trace (step sampleLocalEnv)
        { hb := start 16 (seconds 60) (seconds 3600) } patientSchedule j).streams.lookup "strm-1" =
          some call' ∧ call'.phase = .left ∧ call'.written.length = 1 := by
  have hstate : ((trace (step sampleLocalEnv) { hb := start 16 (seconds 60) (seconds 3600) }
      patientSchedule 5).streams.lookup "strm-1").map (fun call =>
        (shouldUseLocal sampleLocalEnv call.request, call.phase)) = some (true, .serving) := by
    decide +kernel
  have hjob : ∃ job ∈ (trace (step sampleLocalEnv) { hb := start 16 (seconds 60) (seconds 3600) }
      patientSchedule 5).localJobs, job.requestId = "strm-1" := by
    decide +kernel
  obtain ⟨call, hcall, hfields⟩ := Option.map_eq_some_iff.mp hstate
  obtain ⟨hlocal, hserving⟩ := Prod.mk.inj hfields
  have hlate (n : ℕ) : patientSchedule (n + 4) =
      if n % 2 = 0 then .advance 0 0 0 else .drain "strm-1" 1 := rfl
  have hcases (n : ℕ) : patientSchedule n ≠ .abandon "strm-1" ∧
      patientSchedule n ≠ .drain "strm-1" 0 := by
    match n with
    | 0 => exact ⟨nofun, nofun⟩
    | 1 => exact ⟨nofun, nofun⟩
    | 2 => exact ⟨nofun, nofun⟩
    | 3 => exact ⟨nofun, nofun⟩
    | n + 4 =>
      rw [hlate]
      split <;> exact ⟨nofun, nofun⟩
  have hbeats : AgainAndAgain IsAdvance patientSchedule := fun i =>
    ⟨2 * i + 4, by omega, 0, 0, 0, (hlate (2 * i)).trans (if_pos (by omega))⟩
  have hdrains : AgainAndAgain (fun ev => ∃ n, ev = .drain "strm-1" n) patientSchedule := fun i =>
    ⟨2 * i + 1 + 4, by omega, 1, (hlate (2 * i + 1)).trans (if_neg (by omega))⟩
  obtain ⟨j, hij, call', hcall', hleft, hwritten⟩ := stream_served sampleLocalEnv _ rfl 16
    (seconds 60) (seconds 3600) patientSchedule (fun n => (hcases n).1) (fun n => (hcases n).2)
    hbeats hdrains hcall hserving hlocal hjob
  exact ⟨j, hij, call', hcall', hleft, by rw [hwritten]; rfl⟩

end Server

end TtsServer
