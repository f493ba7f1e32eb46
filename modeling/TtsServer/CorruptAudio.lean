import TtsServer.ChunkAssembly
import TtsServer.HexCodec
import TtsServer.TickBoundaries

/-!
# Corrupt audio

`hex_decode` answers a malformed text with no bytes, as it answers the empty text, and
the handler of a chunk appends what it gets. So a chunk whose audio cannot be decoded is
dropped without a trace, and the response is a success all the same. This file follows a
streaming request through ticks that handle nothing but chunks of its session, and says
for which of them a reported success means that all audio was well formed.
-/

namespace TtsServer.Heartbeat

open Lib History

/-- The chunks that are handled for a request in a run. -/
def receivedIn (env : Env) (rid : String) (hb : Heartbeat) (inputs : List TickInput) :
    List TtsResponseMsg :=
  (inputs.foldl (logged (fun hb inp => (tick env inp hb).2)
    fun hb inp => received env rid hb.beginTick inp.batch) (hb, [])).2

/-- A tick that handles nothing but chunks of a session. -/
def OnlyChunks (sid : String) (inp : TickInput) : Prop :=
  ∃ es : List TtsResponseMsg, inp.batch = es.map .response ∧
    ∀ e ∈ es, e.kind = .audioChunk ∧ e.sessionId = sid

/-- What the last tick of a run reports as a success was well-formed audio. -/
def ReportsSound (env : Env) (rid : String) (hb : Heartbeat) (before : List TickInput)
    (inp : TickInput) : Prop :=
  ∀ w ∈ (tick env inp (run env hb before).2).1.clientWrites, w.requestId = rid →
    w.statusCode = 0 → w.isFinal = true →
      ∀ e ∈ receivedIn env rid hb (before ++ [inp]), HexText e.audioHex

variable {env : Env} {hb : Heartbeat} {rid sid : String} {p : PendingRequest}
  {e : TtsResponseMsg} {es got : List TtsResponseMsg} {ms : List Message} {m : Message}
  {inp : TickInput} {inputs before : List TickInput} {w : WriteToClient}

/-- One more tick. -/
theorem receivedIn_concat : receivedIn env rid hb (inputs ++ [inp]) =
    receivedIn env rid hb inputs ++
      received env rid (run env hb inputs).2.beginTick inp.batch := by
  simp [receivedIn, logged, run_eq_foldl]

/-! ### A batch of chunks -/

/-- A batch of events that spares a request hands it its chunks. -/
theorem Heard.events (h : Heard rid p got hb) (hspared : ∀ e ∈ es, e.ends p.sessionId = false) :
    Heard rid p (got ++ received env rid hb (es.map .response))
      ((es.map .response).foldl (handleMessage env) hb) := by
  induction es generalizing hb got with
  | nil => simpa [received] using h
  | cons e es ih =>
    have hnext := @Heard.response env _ _ e _ _ h (hspared e List.mem_cons_self)
    have hrest := ih hnext fun e' he' => hspared e' (List.mem_cons_of_mem _ he')
    rwa [List.append_assoc] at hrest

/-- A batch of chunks of one session: all of them are handled for the request if the
session works for it, and the session goes on as before. -/
theorem received_chunks (hchunks : ∀ e ∈ es, e.kind = .audioChunk ∧ e.sessionId = sid) :
    received env rid hb (es.map .response) = (if hb.feeds rid sid = true then es else []) ∧
      ((es.map .response).foldl (handleMessage env) hb).feeds rid sid = hb.feeds rid sid := by
  induction es generalizing hb with
  | nil => simp [received]
  | cons e es ih =>
    obtain ⟨hkind, hsession⟩ := hchunks e List.mem_cons_self
    have hkept : (handleResponse env e hb).feeds rid sid = hb.feeds rid sid := by
      rw [handleResponse_feeds]
      simp [TtsResponseMsg.loses, hkind]
    obtain ⟨hrest, hfeeds⟩ := @ih (handleResponse env e hb) fun e' he' =>
      hchunks e' (List.mem_cons_of_mem _ he')
    rw [hkept] at hrest hfeeds
    refine ⟨?_, hfeeds⟩
    rw [List.map_cons, received, handleMessage, hrest, heardFrom, hsession]
    by_cases hworks : hb.feeds rid sid = true
    · simp [hkind, hworks]
    · simp [hworks]

/-- The chunks of a session among its chunks. -/
theorem chunksOn_chunks (hchunks : ∀ e ∈ es, e.kind = .audioChunk ∧ e.sessionId = sid) :
    chunksOn sid (es.map .response) = es := by
  induction es with
  | nil => rfl
  | cons e es ih =>
    have hchunk : (Message.response e).chunkOn? sid = some e :=
      if_pos (hchunks e List.mem_cons_self)
    rw [chunksOn, List.map_cons, List.filterMap_cons_some hchunk]
    exact congrArg _ (ih fun e' he' => hchunks e' (List.mem_cons_of_mem _ he'))

/-- The chunks of one more tick. -/
theorem chunksOn_concat : chunksOn sid (messagesOf (inputs ++ [inp])) =
    chunksOn sid (messagesOf inputs) ++ chunksOn sid inp.batch := by
  simp [chunksOn, messagesOf]

/-! ### Ticks of chunks -/

/-- The request after ticks in which it has received `got`: it waits until it is completed,
and a completed one is gone when the tick ends. -/
structure Awaits (rid : String) (p : PendingRequest) (before : List TickInput)
    (got : List TtsResponseMsg) (hb : Heartbeat) : Prop where
  collected : hb.changeset.clientWrites = []
  waiting : before = [] ∨ ¬p.Completed got → Heard rid p got hb
  gone : before ≠ [] → p.Completed got → Ended rid hb

/-- A tick hands its chunks to a request that waits. -/
theorem Awaits.midTick (h : Awaits rid p before got hb) (honly : OnlyChunks sid inp)
    (hwaits : before = [] ∨ ¬p.Completed got) :
    Heard rid p (got ++ received env rid hb.beginTick inp.batch) (midTick env hb inp.batch) := by
  obtain ⟨es, hbatch, hchunks⟩ := honly
  have hbegin : Heard rid p got hb.beginTick := h.waiting hwaits
  rw [hbatch]
  refine hbegin.events fun e he => ?_
  simp [TtsResponseMsg.ends, (hchunks e he).1]

/-- A tick leaves a request alone that is gone. -/
theorem Awaits.midTick_gone (h : Awaits rid p before got hb) (honly : OnlyChunks sid inp)
    (hticks : before ≠ []) (hcompleted : p.Completed got) :
    Ended rid (Heartbeat.midTick env hb inp.batch) := by
  obtain ⟨es, hbatch, -⟩ := honly
  have hbegin : Ended rid hb.beginTick := h.gone hticks hcompleted
  rw [hbatch, midTick_responses]
  exact Ended.batch hbegin

/-- One tick of chunks. -/
theorem Awaits.tick (h : Awaits rid p before got hb) (hstreaming : p.state = .streaming)
    (honly : OnlyChunks sid inp) :
    Awaits rid p (before ++ [inp]) (got ++ received env rid hb.beginTick inp.batch)
      (Heartbeat.tick env inp hb).2 := by
  obtain ⟨es, hbatch, -⟩ := id honly
  refine ⟨tick_clientWrites, fun hwaits => ?_, fun _ hcompleted => ?_⟩
  · have hincomplete := hwaits.resolve_left (by simp)
    have hearlier : ¬p.Completed got :=
      fun hcompleted => hincomplete (hcompleted.mono (List.sublist_append_left _ _))
    exact (h.midTick honly (Or.inr hearlier)).kept hstreaming hincomplete
  · by_cases hwaits : before = [] ∨ ¬p.Completed got
    · exact ((h.midTick honly hwaits).tick_completed hstreaming h.collected hbatch hcompleted).1
    · rw [not_or, not_not] at hwaits
      exact ((h.midTick_gone honly hwaits.1 hwaits.2).tick h.collected hbatch).1

/-- The response of a tick of chunks. -/
theorem Awaits.write_iff (h : Awaits rid p before got hb) (hstreaming : p.state = .streaming)
    (honly : OnlyChunks sid inp) :
    w ∈ (Heartbeat.tick env inp hb).1.clientWrites ∧ w.requestId = rid ↔
      (before = [] ∨ ¬p.Completed got) ∧
        p.Completed (got ++ received env rid hb.beginTick inp.batch) ∧
        w = completedWrite rid (p.hear (got ++ received env rid hb.beginTick inp.batch)) := by
  obtain ⟨es, hbatch, -⟩ := id honly
  by_cases hwaits : before = [] ∨ ¬p.Completed got
  · rw [and_iff_right hwaits]
    exact (h.midTick honly hwaits).write hstreaming (hbatch ▸ midTick_clientWrites h.collected)
  · rw [iff_false_right fun hwritten => hwaits hwritten.1]
    rintro ⟨hw, hrid⟩
    rw [not_or, not_not] at hwaits
    exact ((h.midTick_gone honly hwaits.1 hwaits.2).tick h.collected hbatch).2 w hw hrid

/-- A run of ticks of chunks. -/
theorem awaits_run (hpending : hb.board.pending.get rid = some p)
    (hstreaming : p.state = .streaming) (hcollected : hb.changeset.clientWrites = [])
    (honly : ∀ inp ∈ before, OnlyChunks sid inp) :
    Awaits rid p before (receivedIn env rid hb before) (run env hb before).2 := by
  induction before using List.reverseRecOn with
  | nil =>
    refine ⟨hcollected, fun _ => ?_, fun hticks => absurd rfl hticks⟩
    rw [Heard, run_eq_foldl, List.foldl_nil, hpending, receivedIn, List.foldl_nil,
      PendingRequest.hear_nil, Option.map_some]
  | append_singleton before inp ih =>
    have hbefore := ih fun inp' hinp' => honly inp' (List.mem_append_left _ hinp')
    rw [receivedIn_concat, run_concat]
    exact hbefore.tick hstreaming (honly inp (List.mem_append_right _ List.mem_cons_self))

/-- A tick of chunks: all of them are handled for the request if its session is there, and
none otherwise. -/
theorem OnlyChunks.received (honly : OnlyChunks sid inp) :
    received env rid hb.beginTick inp.batch =
      (if hb.feeds rid sid = true then chunksOn sid inp.batch else []) ∧
      (midTick env hb inp.batch).feeds rid sid = hb.feeds rid sid := by
  obtain ⟨es, hbatch, hchunks⟩ := honly
  rw [hbatch, chunksOn_chunks hchunks]
  exact received_chunks hchunks

/-- In a run of ticks of chunks, a session that still works for the request has done so
all the time, and every chunk was handled for the request. -/
theorem receivedIn_chunks (honly : ∀ inp ∈ inputs, OnlyChunks sid inp)
    (hfeeds : (run env hb inputs).2.feeds rid sid = true) :
    receivedIn env rid hb inputs = chunksOn sid (messagesOf inputs) := by
  induction inputs using List.reverseRecOn with
  | nil => rfl
  | append_singleton inputs inp ih =>
    obtain ⟨hreceived, hkept⟩ := @OnlyChunks.received env (run env hb inputs).2 rid sid inp
      (honly inp (List.mem_append_right _ List.mem_cons_self))
    rw [run_concat] at hfeeds
    have hbefore : (run env hb inputs).2.feeds rid sid = true :=
      hkept.symm.trans (feeds_of_finishTick hfeeds)
    rw [receivedIn_concat, chunksOn_concat, hreceived, if_pos hbefore,
      ih (fun inp' hinp' => honly inp' (List.mem_append_left _ hinp')) hbefore]

/-- A reported success shows the status of the request, and that it is completed. -/
theorem completedWrite_success (hcompleted : p.Completed got) :
    (completedWrite rid (p.hear got)).statusCode = 0 ∧
      (completedWrite rid (p.hear got)).isFinal = true ↔ p.statusCode = 0 :=
  and_iff_left (PendingRequest.hear_finalReceived.mpr hcompleted)

/-- A success is reported for well-formed audio only, exactly if the chunks of the session
are well formed up to the end of the tick that completes the request. The exceptions are a
request with a status of its own and a session that has left the pool before the tick. -/
theorem reported_success_iff (env : Env) (hb : Heartbeat) (rid sid : String) (p : PendingRequest)
    (before : List TickInput) (inp : TickInput) (hpending : hb.board.pending.get rid = some p)
    (hstreaming : p.state = .streaming) (hcollected : hb.changeset.clientWrites = [])
    (honly : ∀ i ∈ before ++ [inp], OnlyChunks sid i) :
    ReportsSound env rid hb before inp ↔
      (p.statusCode = 0 → (run env hb before).2.feeds rid sid = true →
        (before = [] ∨ ¬p.Completed (chunksOn sid (messagesOf before))) →
        p.Completed (chunksOn sid (messagesOf (before ++ [inp]))) →
        ∀ e ∈ chunksOn sid (messagesOf (before ++ [inp])), HexText e.audioHex) := by
  have hbefore : ∀ i ∈ before, OnlyChunks sid i := fun i hi => honly i (List.mem_append_left _ hi)
  have hinp : OnlyChunks sid inp := honly inp (List.mem_append_right _ List.mem_cons_self)
  have hawaits := @awaits_run env _ _ _ _ _ hpending hstreaming hcollected hbefore
  -- A reported success, read off the chunks that were handled for the request.
  have hreported : ReportsSound env rid hb before inp ↔
      (p.statusCode = 0 → (before = [] ∨ ¬p.Completed (receivedIn env rid hb before)) →
        p.Completed (receivedIn env rid hb (before ++ [inp])) →
        ∀ e ∈ receivedIn env rid hb (before ++ [inp]), HexText e.audioHex) := by
    rw [receivedIn_concat, ReportsSound, receivedIn_concat]
    constructor
    · intro hsound hstatus hwaits hcompleted
      obtain ⟨hw, hrid⟩ := (@Awaits.write_iff env _ _ _ _ _ _ _ _ hawaits hstreaming hinp).mpr
        ⟨hwaits, hcompleted, rfl⟩
      obtain ⟨hstatus', hfinal⟩ := (completedWrite_success hcompleted).mpr hstatus
      exact hsound _ hw hrid hstatus' hfinal
    · intro hsound w hw hrid hstatus hfinal
      obtain ⟨hwaits, hcompleted, rfl⟩ := (hawaits.write_iff hstreaming hinp).mp ⟨hw, hrid⟩
      exact hsound ((completedWrite_success hcompleted).mp ⟨hstatus, hfinal⟩) hwaits hcompleted
  rw [hreported]
  refine imp_congr_right fun _ => ?_
  cases hfeeds : (run env hb before).2.feeds rid sid with
  | true =>
    have hall : receivedIn env rid hb (before ++ [inp]) =
        chunksOn sid (messagesOf (before ++ [inp])) := by
      rw [receivedIn_concat, chunksOn_concat, receivedIn_chunks hbefore hfeeds, hinp.received.1,
        if_pos hfeeds]
    rw [hall, receivedIn_chunks hbefore hfeeds]
    simp
  | false =>
    -- without its session, the request is not completed by the tick
    have hsame : receivedIn env rid hb (before ++ [inp]) = receivedIn env rid hb before := by
      rw [receivedIn_concat, hinp.received.1, hfeeds, if_neg Bool.false_ne_true, List.append_nil]
    rw [hsame]
    refine iff_of_true ?_ fun h => absurd h Bool.false_ne_true
    rintro (rfl | hincomplete) hcompleted
    · exact fun e he => absurd he List.not_mem_nil
    · exact absurd hcompleted hincomplete

/-- A tick whose only chunk is final and not hexadecimal. -/
def corruptChunk : TickInput :=
  { events := [.response { sessionId := "s", audioHex := ascii "zz", isFinal := true }] }

/-- The sample ticks hold nothing but chunks. -/
theorem onlyChunks_samples :
    (∀ inp ∈ [firstChunk, lastChunks], OnlyChunks "s" inp) ∧ OnlyChunks "s" corruptChunk := by
  have honly (es : List TtsResponseMsg)
      (hchunks : ∀ e ∈ es, e.kind = .audioChunk ∧ e.sessionId = "s") :
      OnlyChunks "s" { events := es.map .response } := ⟨es, rfl, hchunks⟩
  refine ⟨?_, honly [_] (by decide)⟩
  simp only [List.mem_cons, List.not_mem_nil, or_false, forall_eq_or_imp, forall_eq]
  exact ⟨honly [_] (by decide), honly [_, _] (by decide)⟩

/-- The sample ticks report well-formed audio. -/
theorem reported_success_lastChunks :
    ReportsSound sampleEnv "r" (streamingBoard "r") [firstChunk] lastChunks :=
  (reported_success_iff sampleEnv (streamingBoard "r") "r" "s" _ [firstChunk] lastChunks
    (streamingBoard_streams "r").pending rfl rfl onlyChunks_samples.1).mpr
    fun _ _ _ _ => by decide

/-- A request whose only chunk is corrupt is answered with success and no audio. -/
theorem corrupt_chunk_succeeds :
    OnlyChunks "s" corruptChunk ∧
    (∃ w ∈ (tick sampleEnv corruptChunk (streamingBoard "r")).1.clientWrites,
      w.requestId = "r" ∧ w.statusCode = 0 ∧ w.isFinal = true ∧ w.audio = []) ∧
    ¬ReportsSound sampleEnv "r" (streamingBoard "r") [] corruptChunk := by
  have hwritten : ∃ w ∈ (tick sampleEnv corruptChunk (streamingBoard "r")).1.clientWrites,
      w.requestId = "r" ∧ w.statusCode = 0 ∧ w.isFinal = true ∧ w.audio = [] := by decide
  have hcorrupt : ∃ e ∈ receivedIn sampleEnv "r" (streamingBoard "r") [corruptChunk],
      ¬HexText e.audioHex := by decide
  refine ⟨onlyChunks_samples.2, hwritten, fun hsound => ?_⟩
  obtain ⟨w, hw, hrid, hstatus, hfinal, -⟩ := hwritten
  obtain ⟨e, he, hmalformed⟩ := hcorrupt
  exact hmalformed (hsound w hw hrid hstatus hfinal e he)

end TtsServer.Heartbeat
