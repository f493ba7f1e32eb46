import Mathlib.Data.Finset.Dedup
import Mathlib.Data.Finset.Order
import Mathlib.Data.List.Flatten
import TtsServer.Reception
import TtsServer.Routing

/-!
# Where tick boundaries fall

The heartbeat cuts the stream of upstream events into batches, one for each tick.
For a streaming request it matters in three ways where a tick ends: a completed
request is emitted then and hears nothing more, a failure in the same batch
overtakes the completion, and the chunks of a failed session are dropped from then
on. This file compares all ways of cutting a list of events. The responses written
for the request are the same for all of them exactly if none of these three effects
can show.
-/

namespace TtsServer

open Lib History

namespace Heartbeat

/-- A run of ticks that handles exactly the given upstream events. Ticks without events are
allowed. -/
structure Cuts (events : List TtsResponseMsg) (cut : List TickInput) : Prop where
  ticks : cut ≠ []
  events : messagesOf cut = events.map .response

/-- No session expires in a run. -/
def Unexpired (env : Env) (hb : Heartbeat) (cut : List TickInput) : Prop :=
  Along (fun hb inp => (tick env inp hb).2)
    (fun hb inp => NoneExpires inp (midTick env hb inp.batch)) hb cut

instance (env : Env) (hb : Heartbeat) (cut : List TickInput) : Decidable (Unexpired env hb cut) :=
  inferInstanceAs (Decidable (Along _ _ hb cut))

/-- The responses written in a run. -/
def writes (env : Env) (hb : Heartbeat) (cut : List TickInput) : List WriteToClient :=
  (run env hb cut).1.flatMap ChangeSet.clientWrites

/-- The responses written for a request are the same wherever the ticks end. -/
def SameWrites (env : Env) (hb : Heartbeat) (rid : String) (events : List TtsResponseMsg) : Prop :=
  ∀ cut cut', Cuts events cut → Cuts events cut' → Unexpired env hb cut → Unexpired env hb cut' →
    ∀ w, w.requestId = rid → (w ∈ writes env hb cut ↔ w ∈ writes env hb cut')

/-- The condition under which a request that may complete shows nothing of the tick
boundaries. -/
structure Robust (hb : Heartbeat) (rid : String) (p : PendingRequest)
    (events : List TtsResponseMsg) : Prop where
  /-- No event ends the session of the request. -/
  spared : ∀ e ∈ events, e.ends p.sessionId = false
  /-- The final chunk surely reaches the request. -/
  completes : p.Completed (hb.assured rid events)
  /-- A chunk that only may reach the request carries no audio. -/
  doubtful : ∀ es e rest, events = es ++ e :: rest → hb.mayReach rid es e = true →
    hb.surelyReaches rid es e = false → e.audio = []
  /-- A chunk that may reach the request after its final chunk carries no audio. -/
  late : ∀ es e rest, events = es ++ e :: rest → hb.mayReach rid es e = true →
    p.Completed (hb.audible rid es) → e.audio = []
  /-- From the first chunk that may be final on, the usage count does not change. -/
  usage : ∃ n, (p.finalReceived = true → p.usageCharacters = n) ∧
    ∀ es e rest, events = es ++ e :: rest → hb.mayReach rid es e = true →
      p.Completed (hb.audible rid (es ++ [e])) → e.usageCharacters = n

/-- Tick boundaries cannot show: either no beginning of the events that spares the session
of the request can complete it, or the request is robust. -/
def Indifferent (hb : Heartbeat) (rid : String) (p : PendingRequest)
    (events : List TtsResponseMsg) : Prop :=
  (∀ es rest, events = es ++ rest → (∀ e ∈ es, e.ends p.sessionId = false) →
    ¬p.Completed (hb.audible rid es)) ∨ Robust hb rid p events

variable {env : Env} {hb origin : Heartbeat} {rid : String} {p : PendingRequest}
  {e : TtsResponseMsg} {es rest got events : List TtsResponseMsg} {inp : TickInput}
  {cut : List TickInput} {w : WriteToClient}

/-! ### Batches of upstream events -/

/-- A batch of upstream events. -/
theorem midTick_responses : midTick env hb (es.map .response) =
    es.foldl (fun hb e => handleResponse env e hb) hb.beginTick := by
  rw [midTick, List.foldl_map]
  rfl

/-- A batch of upstream events writes nothing. -/
theorem midTick_clientWrites (hwrites : hb.changeset.clientWrites = []) :
    (midTick env hb (es.map .response)).changeset.clientWrites = [] := by
  rw [midTick_responses, foldl_proj (fun hb : Heartbeat => hb.changeset.clientWrites)
    fun hb e => by rw [handleResponse_quiet.changeset]]
  exact hwrites

/-- A run starts with its first tick. -/
theorem writes_cons : writes env hb (inp :: cut) =
    (tick env inp hb).1.clientWrites ++ writes env (tick env inp hb).2 cut := by
  have hrun : ∀ (inputs : List TickInput) (acc : List ChangeSet × Heartbeat),
      (inputs.foldl (fun acc inp => (acc.1 ++ [(tick env inp acc.2).1], (tick env inp acc.2).2))
        acc).1 = acc.1 ++ (run env acc.2 inputs).1 := by
    intro inputs
    induction inputs with
    | nil => simp [run]
    | cons inp inputs ih =>
      intro acc
      rw [run, List.foldl_cons, List.foldl_cons, ih, ih]
      simp
  rw [writes, run, List.foldl_cons, hrun]
  rfl

/-- The collector is empty after a tick. -/
theorem tick_clientWrites : (tick env inp hb).2.changeset.clientWrites = [] := rfl

/-- The first batch of a run over upstream events. -/
theorem exists_batch (hcut : messagesOf (inp :: cut) = rest.map .response) :
    ∃ batch rest', rest = batch ++ rest' ∧ inp.batch = batch.map .response ∧
      messagesOf cut = rest'.map .response := by
  rw [messagesOf_cons] at hcut
  obtain ⟨batch, rest', rfl, hbatch, hrest⟩ := List.map_eq_append_iff.mp hcut.symm
  exact ⟨batch, rest', rfl, hbatch.symm, hrest.symm⟩

/-- An ended request stays ended through a batch. -/
theorem Ended.batch (hended : Ended rid hb) :
    Ended rid (es.foldl (fun hb e => handleResponse env e hb) hb) := by
  induction es generalizing hb with
  | nil => exact hended
  | cons e es ih => exact ih hended.response

/-- A tick writes nothing for an ended request, and leaves it ended. -/
theorem Ended.tick (hended : Ended rid (midTick env hb inp.batch))
    (hwrites : hb.changeset.clientWrites = []) (hbatch : inp.batch = es.map .response) :
    Ended rid (tick env inp hb).2 ∧ ∀ w ∈ (tick env inp hb).1.clientWrites, w.requestId ≠ rid := by
  obtain ⟨hgone, hsilent⟩ := @Ended.finish _ _ inp hended (hbatch ▸ midTick_clientWrites hwrites)
  refine ⟨fun q hq => ?_, hsilent⟩
  rw [Heartbeat.tick, ← midTick, hgone] at hq
  cases hq

/-- Nothing is ever written for an ended request. -/
theorem Ended.writes (hended : Ended rid hb) (hwrites : hb.changeset.clientWrites = [])
    (hcut : messagesOf cut = rest.map .response) :
    ∀ w ∈ writes env hb cut, w.requestId ≠ rid := by
  induction cut generalizing hb rest with
  | nil => exact fun w hw => absurd hw List.not_mem_nil
  | cons inp cut ih =>
    obtain ⟨batch, rest', rfl, hbatch, hrest⟩ := exists_batch hcut
    have hmid : Ended rid (midTick env hb inp.batch) := by
      rw [hbatch, midTick_responses]
      exact Ended.batch hended
    obtain ⟨hafter, hsilent⟩ := hmid.tick hwrites hbatch
    intro w hw
    rw [writes_cons, List.mem_append] at hw
    exact hw.elim (hsilent w) (ih hafter tick_clientWrites hrest w)

/-- A batch that spares the session of a request. -/
theorem Follows.batch {batch : List TtsResponseMsg} (h : Follows origin rid p es got hb)
    (hspared : ∀ e ∈ batch, e.ends p.sessionId = false) :
    ∃ got', Follows origin rid p (es ++ batch) got'
      (batch.foldl (fun hb e => handleResponse env e hb) hb) := by
  induction batch generalizing es got hb with
  | nil => exact ⟨got, by simpa using h⟩
  | cons e batch ih =>
    obtain ⟨got', hnext⟩ := @Follows.response env _ _ e _ _ _ _ h (hspared e List.mem_cons_self)
    obtain ⟨got'', hend⟩ := ih hnext fun e' he' => hspared e' (List.mem_cons_of_mem _ he')
    exact ⟨got'', by simpa using hend⟩

/-- A batch that ends the session of a request ends the request. -/
theorem Follows.batch_ended {batch : List TtsResponseMsg} (h : Follows origin rid p es got hb)
    (hends : ∃ e ∈ batch, e.ends p.sessionId = true) :
    Ended rid (batch.foldl (fun hb e => handleResponse env e hb) hb) := by
  induction batch generalizing es got hb with
  | nil => simp at hends
  | cons e batch ih =>
    cases he : e.ends p.sessionId with
    | true =>
      have hfirst : Ended rid (handleResponse env e hb) := by
        refine handleResponse_ended fun q hq => ?_
        have huntimed := h.heard
        rw [Heard, hq, Option.map_some, Option.some.injEq] at huntimed
        have hsession : q.untimed.sessionId = p.sessionId := by
          rw [huntimed]
          rfl
        exact (congrArg e.ends hsession).trans he
      rw [List.foldl_cons]
      exact Ended.batch hfirst
    | false =>
      obtain ⟨got', hnext⟩ := @Follows.response env _ _ e _ _ _ _ h he
      refine ih hnext ?_
      simpa [he] using hends

/-! ### Every cut -/

/-- What a tick that handles a batch of events can mean for a followed request. -/
inductive TickOutcome (origin : Heartbeat) (rid : String) (p : PendingRequest)
    (es batch : List TtsResponseMsg) (after : ChangeSet × Heartbeat) : Prop
  /-- The batch ends it. -/
  | ended (hends : ∃ e ∈ batch, e.ends p.sessionId = true) (hended : Ended rid after.2)
      (hsilent : ∀ w ∈ after.1.clientWrites, w.requestId ≠ rid)
  /-- It is completed, and its response is written. -/
  | completed (got : List TtsResponseMsg) (hspared : ∀ e ∈ batch, e.ends p.sessionId = false)
      (hreceives : origin.Receives rid (es ++ batch) got) (hcompleted : p.Completed got)
      (hended : Ended rid after.2)
      (hwritten : ∀ w, w ∈ after.1.clientWrites ∧ w.requestId = rid ↔
        w = completedWrite rid (p.hear got))
  /-- It goes on waiting. -/
  | waiting (got : List TtsResponseMsg) (hspared : ∀ e ∈ batch, e.ends p.sessionId = false)
      (hincomplete : ¬p.Completed got) (hfollows : Follows origin rid p (es ++ batch) got after.2)
      (hsilent : ∀ w ∈ after.1.clientWrites, w.requestId ≠ rid)

/-- A tick writes the response of a request that has heard its final chunk, and then the
request is gone. -/
theorem Heard.tick_completed (h : Heard rid p got (midTick env hb inp.batch))
    (hstreaming : p.state = .streaming) (hwrites : hb.changeset.clientWrites = [])
    (hbatch : inp.batch = es.map .response) (hcompleted : p.Completed got) :
    Ended rid (tick env inp hb).2 ∧
      ∀ w, w ∈ (tick env inp hb).1.clientWrites ∧ w.requestId = rid ↔
        w = completedWrite rid (p.hear got) := by
  have hquiet : (midTick env hb inp.batch).changeset.clientWrites = [] :=
    hbatch ▸ midTick_clientWrites hwrites
  have hgone := @Heard.emitted _ _ inp _ _ h hstreaming hcompleted
  refine ⟨fun q hq => ?_, fun w => ?_⟩
  · rw [tick, ← midTick, hgone] at hq
    cases hq
  · exact (h.write hstreaming hquiet).trans (and_iff_right hcompleted)

/-- A tick writes nothing for a request that has not heard its final chunk. -/
theorem Heard.tick_silent (h : Heard rid p got (midTick env hb inp.batch))
    (hstreaming : p.state = .streaming) (hwrites : hb.changeset.clientWrites = [])
    (hbatch : inp.batch = es.map .response) (hincomplete : ¬p.Completed got) :
    ∀ w ∈ (tick env inp hb).1.clientWrites, w.requestId ≠ rid := by
  intro w hw hrid
  have hquiet : (midTick env hb inp.batch).changeset.clientWrites = [] :=
    hbatch ▸ midTick_clientWrites hwrites
  exact hincomplete ((h.write hstreaming hquiet).mp ⟨hw, hrid⟩).1

/-- One tick of a followed request. -/
theorem Follows.tick {batch : List TtsResponseMsg} (h : Follows origin rid p es got hb)
    (hstreaming : p.state = .streaming) (hwrites : hb.changeset.clientWrites = [])
    (hbatch : inp.batch = batch.map .response)
    (hnone : NoneExpires inp (midTick env hb inp.batch)) :
    TickOutcome origin rid p es batch (tick env inp hb) := by
  have hbegin : Follows origin rid p es got hb.beginTick :=
    ⟨h.heard, h.receives, h.mayFeed, h.surelyFeeds⟩
  by_cases hends : ∃ e ∈ batch, e.ends p.sessionId = true
  · have hmid : Ended rid (midTick env hb inp.batch) := by
      rw [hbatch, midTick_responses]
      exact hbegin.batch_ended hends
    obtain ⟨hended, hsilent⟩ := hmid.tick hwrites hbatch
    exact .ended hends hended hsilent
  · have hspared : ∀ e ∈ batch, e.ends p.sessionId = false := by
      intro e he
      by_contra hne
      exact hends ⟨e, he, by simpa using hne⟩
    obtain ⟨got', hmid⟩ := @Follows.batch env _ _ _ _ _ _ _ hbegin hspared
    rw [← midTick_responses, ← hbatch] at hmid
    by_cases hcompleted : p.Completed got'
    · obtain ⟨hended, hwritten⟩ := hmid.heard.tick_completed hstreaming hwrites hbatch hcompleted
      exact .completed got' hspared hmid.receives hcompleted hended hwritten
    · exact .waiting got' hspared hcompleted (hmid.finish hstreaming hnone hcompleted)
        (hmid.heard.tick_silent hstreaming hwrites hbatch hcompleted)

/-- Whatever is written for a followed request is what it has received when it is first
completed, from some beginning of the events. -/
theorem Follows.writes_sound (h : Follows origin rid p es got hb)
    (hstreaming : p.state = .streaming)
    (hwrites : hb.changeset.clientWrites = []) (hspared : ∀ e ∈ es, e.ends p.sessionId = false)
    (hcut : messagesOf cut = rest.map .response) (hunexpired : Unexpired env hb cut)
    (hw : w ∈ writes env hb cut) (hrid : w.requestId = rid) :
    ∃ es' rest' got', es ++ rest = es' ++ rest' ∧ (∀ e ∈ es', e.ends p.sessionId = false) ∧
      origin.Receives rid es' got' ∧ p.Completed got' ∧
      w = completedWrite rid (p.hear got') := by
  induction cut generalizing es got rest hb with
  | nil => cases hw
  | cons inp cut ih =>
    obtain ⟨batch, rest', rfl, hbatch, hrest⟩ := exists_batch hcut
    rw [writes_cons, List.mem_append] at hw
    rw [← List.append_assoc]
    cases h.tick hstreaming hwrites hbatch hunexpired.1 with
    | ended _ hended hsilent =>
      rcases hw with hw | hw
      · exact absurd hrid (hsilent w hw)
      · exact absurd hrid (hended.writes tick_clientWrites hrest w hw)
    | completed got' hspared' hreceives hcompleted hended hwritten =>
      rcases hw with hw | hw
      · exact ⟨es ++ batch, rest', got', rfl,
          fun e he => (List.mem_append.mp he).elim (hspared e) (hspared' e), hreceives, hcompleted,
          (hwritten w).mp ⟨hw, hrid⟩⟩
      · exact absurd hrid (hended.writes tick_clientWrites hrest w hw)
    | waiting got' hspared' _ hfollows hsilent =>
      rcases hw with hw | hw
      · exact absurd hrid (hsilent w hw)
      · exact ih hfollows tick_clientWrites
          (fun e he => (List.mem_append.mp he).elim (hspared e) (hspared' e)) hrest hunexpired.2 hw

/-- A followed request that surely completes is answered in every cut. -/
theorem Follows.writes_exist (h : Follows origin rid p es got hb)
    (hstreaming : p.state = .streaming)
    (hwrites : hb.changeset.clientWrites = []) (hspared : ∀ e ∈ rest, e.ends p.sessionId = false)
    (hcompletes : p.Completed (origin.assured rid (es ++ rest))) (hcut : cut ≠ [])
    (hevents : messagesOf cut = rest.map .response) (hunexpired : Unexpired env hb cut) :
    ∃ w ∈ writes env hb cut, w.requestId = rid := by
  induction cut generalizing es got rest hb with
  | nil => exact absurd rfl hcut
  | cons inp cut ih =>
    obtain ⟨batch, rest', rfl, hbatch, hrest⟩ := exists_batch hevents
    rw [← List.append_assoc] at hcompletes
    cases h.tick hstreaming hwrites hbatch hunexpired.1 with
    | ended hends _ _ =>
      obtain ⟨e, he, hends⟩ := hends
      rw [hspared e (List.mem_append_left _ he)] at hends
      cases hends
    | completed got' _ _ _ _ hwritten =>
      obtain ⟨hw, hrid⟩ := (hwritten _).mpr rfl
      exact ⟨_, by rw [writes_cons]; exact List.mem_append_left _ hw, hrid⟩
    | waiting got' _ hincomplete hfollows _ =>
      by_cases hlast : cut = []
      · subst hlast
        -- the last tick has seen all events, so it has heard the final chunk
        obtain rfl : rest' = [] := List.map_eq_nil_iff.mp hrest.symm
        rw [List.append_nil] at hcompletes
        exact absurd (hcompletes.mono hfollows.receives.must_sublist) hincomplete
      · obtain ⟨w, hw, hrid⟩ := ih hfollows tick_clientWrites
          (fun e he => hspared e (List.mem_append_right _ he)) hcompletes hlast hrest hunexpired.2
        exact ⟨w, by rw [writes_cons]; exact List.mem_append_right _ hw, hrid⟩

/-! ### Robust requests -/

/-- One more event adds at most its chunk to those that may be heard. -/
theorem audible_concat : hb.audible rid (es ++ [e]) =
    hb.audible rid es ++ if hb.mayReach rid es e then [e] else [] :=
  accepted_concat

/-- All that a robust request can have missed is chunks without audio. -/
theorem Robust.audio_eq (hrobust : Robust hb rid p events) (hreceives : hb.Receives rid es got)
    (hevents : events = es ++ rest) :
    got.flatMap TtsResponseMsg.audio = (hb.audible rid es).flatMap TtsResponseMsg.audio := by
  induction hreceives generalizing rest with
  | nil => rfl
  | @keep l k a _ hmay ih =>
    have hrest : events = l ++ a :: rest := by simpa using hevents
    rw [audible_concat, if_pos hmay, List.flatMap_append, List.flatMap_append, ih hrest]
  | @skip l k a _ hmust ih =>
    have hrest : events = l ++ a :: rest := by simpa using hevents
    rw [audible_concat, List.flatMap_append, ← ih hrest]
    split
    · rename_i hmay
      simp [hrobust.doubtful l a rest hrest hmay hmust]
    · simp

/-- After the chunk that may be final, a robust request can hear no more audio. -/
theorem Robust.audible_late (hrobust : Robust hb rid p events) (hevents : events = es ++ rest)
    (hcompleted : p.Completed (hb.audible rid es)) :
    (hb.audible rid events).flatMap TtsResponseMsg.audio =
      (hb.audible rid es).flatMap TtsResponseMsg.audio := by
  have hlate : (accepted (fun before => hb.mayReach rid (es ++ before)) rest).flatMap
      TtsResponseMsg.audio = [] := by
    refine List.flatMap_eq_nil_iff.mpr fun a ha => ?_
    obtain ⟨l₁, l₂, rfl, hmay⟩ := mem_accepted.mp ha
    exact hrobust.late (es ++ l₁) a l₂ (by simpa using hevents) hmay
      (hcompleted.mono accepted_append_sublist)
  rw [hevents, audible, accepted_append, List.flatMap_append, hlate, List.append_nil]

/-- A completed robust request shows one usage count. -/
theorem Robust.usage_eq (hrobust : Robust hb rid p events) :
    ∃ n, ∀ {es rest got}, hb.Receives rid es got → events = es ++ rest → p.Completed got →
      (p.hear got).usageCharacters = n := by
  obtain ⟨n, hold, hnew⟩ := hrobust.usage
  refine ⟨n, fun {es rest got} hreceives hevents hcompleted => ?_⟩
  induction hreceives generalizing rest with
  | nil => exact hold (hcompleted.resolve_right fun ⟨e, he, _⟩ => absurd he List.not_mem_nil)
  | @keep l k a hselects hmay ih =>
    have hrest : events = l ++ a :: rest := by simpa using hevents
    have husage := hnew l a rest hrest hmay
      (hcompleted.mono (hselects.keep hmay).sublist_may)
    simpa [PendingRequest.hear] using husage
  | @skip l k a _ _ ih =>
    have hrest : events = l ++ a :: rest := by simpa using hevents
    exact ih hrest hcompleted

/-- A completed robust request has one response. -/
theorem Robust.write_eq (hrobust : Robust hb rid p events) (hreceives : hb.Receives rid es got)
    (hevents : events = es ++ rest) (hcompleted : p.Completed got) :
    completedWrite rid (p.hear got) = completedWrite rid (p.hear (hb.audible rid events)) := by
  have hsub : got.Sublist (hb.audible rid es) := hreceives.sublist_may
  have hfull : p.Completed (hb.audible rid events) := by
    rw [hevents]
    exact hcompleted.mono (hsub.trans accepted_append_sublist)
  obtain ⟨n, husage⟩ := hrobust.usage_eq
  have hall : hb.Receives rid events (hb.audible rid events) :=
    Selects.all fun _ _ => mayReach_of_surelyReaches
  refine (PendingRequest.completedWrite_hear hcompleted hfull).mpr ⟨?_, ?_⟩
  · rw [hrobust.audio_eq hreceives hevents, hrobust.audible_late hevents (hcompleted.mono hsub)]
  · rw [husage hreceives hevents hcompleted, husage hall (List.append_nil _).symm hfull]

/-- If tick boundaries cannot show, all cuts write the same for the request. -/
theorem Indifferent.sameWrites (hindifferent : Indifferent hb rid p events)
    (hp : hb.board.pending.get rid = some p) (hstreaming : p.state = .streaming)
    (hwrites : hb.changeset.clientWrites = []) : SameWrites env hb rid events := by
  have hsound {cut w} (hcut : Cuts events cut) (hunexpired : Unexpired env hb cut)
      (hw : w ∈ writes env hb cut) (hrid : w.requestId = rid) :=
    (Follows.refl hp).writes_sound hstreaming hwrites (fun e he => absurd he List.not_mem_nil)
      hcut.events hunexpired hw hrid
  rcases hindifferent with hnever | hrobust
  · have hnone : ∀ {cut w}, Cuts events cut → Unexpired env hb cut → w.requestId = rid →
        w ∉ writes env hb cut := by
      intro cut w hcut hunexpired hrid hw
      obtain ⟨es, rest, got, hevents, hspared, hreceives, hcompleted, -⟩ :=
        hsound hcut hunexpired hw hrid
      exact hnever es rest hevents hspared (hcompleted.mono hreceives.sublist_may)
    intro cut cut' hcut hcut' hunexpired hunexpired' w hrid
    exact iff_of_false (hnone hcut hunexpired hrid) (hnone hcut' hunexpired' hrid)
  · have hone : ∀ {cut w}, Cuts events cut → Unexpired env hb cut → w.requestId = rid →
        (w ∈ writes env hb cut ↔ w = completedWrite rid (p.hear (hb.audible rid events))) := by
      intro cut w hcut hunexpired hrid
      have heq : ∀ {w}, w.requestId = rid → w ∈ writes env hb cut →
          w = completedWrite rid (p.hear (hb.audible rid events)) := by
        intro w hrid hw
        obtain ⟨es, rest, got, hevents, -, hreceives, hcompleted, rfl⟩ :=
          hsound hcut hunexpired hw hrid
        exact hrobust.write_eq hreceives hevents hcompleted
      refine ⟨heq hrid, ?_⟩
      rintro rfl
      obtain ⟨w, hw, hrid'⟩ := (Follows.refl hp).writes_exist hstreaming hwrites hrobust.spared
        hrobust.completes hcut.ticks hcut.events hunexpired
      rw [← heq hrid' hw]
      exact hw
    intro cut cut' hcut hcut' hunexpired hunexpired' w hrid
    rw [hone hcut hunexpired hrid, hone hcut' hunexpired' hrid]

/-! ### Particular cuts -/

/-- Early enough, no session of a pool has expired. -/
theorem exists_unexpired (pool : SessionPool) :
    ∃ now, pool.collectLifetimeExpired now = [] ∧ pool.collectIdleExpired now = [] := by
  let limit (entry : Sigma fun _ : String => SessionRecord) : Int :=
    max (-(entry.2.createdAt + pool.maxLifetime)) (-(entry.2.lastActiveAt + pool.idleTimeout))
  obtain ⟨bound, hbound⟩ := (pool.sessions.entries.map limit).toFinset.exists_le
  have hlimit {sid : String} {s : SessionRecord} (hs : pool.get sid = some s) :
      limit ⟨sid, s⟩ ≤ bound := by
    have hmem := AList.mem_lookup_iff.mp (Option.mem_def.mpr hs)
    exact hbound _ (List.mem_toFinset.mpr (List.mem_map_of_mem hmem))
  have hearly : ∀ since span : Int, -(since + span) ≤ bound → -bound - 1 - since < span := by
    omega
  refine ⟨-bound - 1, ?_, ?_⟩
  · refine Table.collect_eq_nil_iff.mpr fun sid s hs => decide_eq_false (Int.not_le.mpr ?_)
    exact hearly _ _ (max_le_iff.mp (hlimit hs)).1
  · refine List.filter_eq_nil_iff.mpr fun sid _ => ?_
    cases hs : pool.get sid with
    | none => simp
    | some s =>
      simp only [Option.any_some, SessionPool.idleExpired, Bool.and_eq_true, decide_eq_true_eq,
        not_and]
      exact fun _ => Int.not_le.mpr (hearly _ _ (max_le_iff.mp (hlimit hs)).2)

/-- Every list of batches can be handled by ticks in which no session expires. -/
theorem exists_cut (env : Env) (hb : Heartbeat) (batches : List (List TtsResponseMsg)) :
    ∃ cut : List TickInput, cut.map TickInput.batch = batches.map (·.map .response) ∧
      Unexpired env hb cut := by
  induction batches generalizing hb with
  | nil => exact ⟨[], rfl, trivial⟩
  | cons batch batches ih =>
    obtain ⟨now, hnone⟩ := exists_unexpired ((emitReady (midTick env hb (batch.map
      .response))).changedSessions.foldl closeIfFailed
        ([], (emitReady (midTick env hb (batch.map .response))).board.sessionPool)).2
    let inp : TickInput := { events := batch.map .response, now := now }
    obtain ⟨cut, hbatches, hunexpired⟩ := ih (tick env inp hb).2
    exact ⟨inp :: cut, congrArg₂ List.cons rfl hbatches, hnone, hunexpired⟩

/-- The events of a list of batches. -/
theorem cuts_of_batches {batches : List (List TtsResponseMsg)}
    (hbatches : cut.map TickInput.batch = batches.map (·.map .response)) (hne : batches ≠ [])
    (hevents : batches.flatten = events) : Cuts events cut where
  ticks := by
    rintro rfl
    exact hne (List.map_eq_nil_iff.mp hbatches.symm)
  events := by
    rw [messagesOf, List.flatMap_def, hbatches, ← hevents, List.map_flatten]

/-- In a single batch, all chunks that may reach a request do. -/
theorem batch_heard (hp : hb.board.pending.get rid = some p)
    (hspared : ∀ e ∈ es, e.ends p.sessionId = false) :
    Heard rid p (hb.audible rid es)
        (es.foldl (fun hb e => handleResponse env e hb) hb.beginTick) ∧
      ∀ sid, (es.foldl (fun hb e => handleResponse env e hb) hb.beginTick).feeds rid sid =
        hb.mayFeed rid es sid := by
  induction es using List.reverseRecOn with
  | nil => exact ⟨(Follows.refl hp).heard, fun sid => (Bool.and_true _).symm⟩
  | append_singleton es e ih =>
    obtain ⟨hheard, hfeeds⟩ := ih fun e' he' => hspared e' (List.mem_append_left _ he')
    have hends := hspared e (List.mem_append_right _ List.mem_cons_self)
    rw [List.foldl_append, List.foldl_cons, List.foldl_nil]
    constructor
    · have hnext := @Heard.response env _ _ e _ _ hheard hends
      simpa [audible_concat, hfeeds, mayReach] using hnext
    · intro sid
      rw [handleResponse_feeds, hfeeds, mayFeed_concat]

/-- A tick that ends where a request may be completed writes what may have been heard. -/
theorem exists_cut_at (hp : hb.board.pending.get rid = some p) (hstreaming : p.state = .streaming)
    (hwrites : hb.changeset.clientWrites = []) (hevents : events = es ++ rest)
    (hspared : ∀ e ∈ es, e.ends p.sessionId = false)
    (hcompleted : p.Completed (hb.audible rid es)) :
    ∃ cut, Cuts events cut ∧ Unexpired env hb cut ∧ ∀ w, w.requestId = rid →
      (w ∈ writes env hb cut ↔ w = completedWrite rid (p.hear (hb.audible rid es))) := by
  obtain ⟨cut, hbatches, hunexpired⟩ := exists_cut env hb [es, rest]
  have hcut : Cuts events cut := cuts_of_batches hbatches (by simp) (by simp [hevents])
  refine ⟨cut, hcut, hunexpired, fun w hrid => ?_⟩
  obtain ⟨first, cut', rfl, hfirst, hcut'⟩ := List.map_eq_cons_iff.mp hbatches
  have hrest : messagesOf cut' = rest.map .response := by
    rw [messagesOf, List.flatMap_def, hcut']
    simp
  have hheard : Heard rid p (hb.audible rid es) (midTick env hb first.batch) := by
    rw [hfirst, midTick_responses]
    exact (batch_heard hp hspared).1
  obtain ⟨hended, hwritten⟩ := hheard.tick_completed hstreaming hwrites hfirst hcompleted
  rw [writes_cons, List.mem_append, ← hwritten w]
  constructor
  · rintro (hw | hw)
    · exact ⟨hw, hrid⟩
    · exact absurd hrid (hended.writes tick_clientWrites hrest w hw)
  · exact fun hw => Or.inl hw.1

/-- A single batch in which the session of the request ends writes nothing for it. -/
theorem exists_cut_silent (hp : hb.board.pending.get rid = some p)
    (hwrites : hb.changeset.clientWrites = []) (hends : ∃ e ∈ events, e.ends p.sessionId = true) :
    ∃ cut, Cuts events cut ∧ Unexpired env hb cut ∧
      ∀ w ∈ writes env hb cut, w.requestId ≠ rid := by
  obtain ⟨cut, hbatches, hunexpired⟩ := exists_cut env hb [events]
  have hcut : Cuts events cut := cuts_of_batches hbatches (by simp) (by simp)
  refine ⟨cut, hcut, hunexpired, fun w hw => ?_⟩
  obtain ⟨first, cut', rfl, hfirst, hcut'⟩ := List.map_eq_cons_iff.mp hbatches
  obtain rfl := List.map_eq_nil_iff.mp hcut'
  have hmid : Ended rid (midTick env hb first.batch) := by
    have hbegin : Follows hb rid p [] [] hb.beginTick :=
      ⟨(Follows.refl hp).heard, .nil, (Follows.refl hp).mayFeed, (Follows.refl hp).surelyFeeds⟩
    rw [hfirst, midTick_responses]
    exact hbegin.batch_ended hends
  rw [writes_cons, List.mem_append] at hw
  exact hw.elim ((hmid.tick hwrites hfirst).2 w) fun hw => absurd hw List.not_mem_nil

/-! ### One event in each tick -/

/-- The state of the heartbeat after one tick for each of some events: the request has heard
only what surely reaches it, and all sessions that feed it are sound. -/
structure Eager (origin : Heartbeat) (rid : String) (p : PendingRequest)
    (es : List TtsResponseMsg) (hb : Heartbeat) : Prop where
  heard : Heard rid p (origin.assured rid es) hb
  feeds : ∀ sid, hb.feeds rid sid = origin.surelyFeeds rid es sid
  sound : ∀ sid, hb.feeds rid sid = true → hb.sound sid = true

/-- A session whose task fails is closed when the tick ends. -/
theorem finishTick_failed (hkind : e.kind = .taskFailed)
    (hnone : NoneExpires inp (handleResponse env e hb)) :
    (finishTick inp (handleResponse env e hb)).2.feeds rid e.sessionId = false := by
  rw [← Bool.not_eq_true, feeds_iff]
  rintro ⟨-, s, hs, -⟩
  obtain ⟨hemitted, hkept⟩ := (finishTick_get_unexpired hnone).mp hs
  rw [emitReady_emitted.session, handleResponse_get_session, hkind] at hemitted
  obtain ⟨s', hs', rfl⟩ := Option.map_eq_some_iff.mp hemitted
  simp only [if_true, Option.map_eq_some_iff] at hs'
  obtain ⟨s₀, -, rfl⟩ := hs'
  -- all requests of the session have failed, so none of them is emitted
  have hunemitted : e.sessionId ∉ (emissions (handleResponse env e hb)).map
      fun entry => entry.2.sessionId := by
    intro hmem
    obtain ⟨⟨rid', q⟩, hq, hsession⟩ := List.mem_map.mp hmem
    obtain ⟨hq, hready⟩ := mem_emissions.mp hq
    rw [handleResponse_get_pending, hkind] at hq
    obtain ⟨q', -, rfl⟩ := Option.map_eq_some_iff.mp hq
    split at hready
    · cases hready
    · rename_i hother
      rw [if_neg hother] at hsession
      exact hother hsession
  refine hkept ⟨emitReady_emitted.changedSessions.mpr (Or.inr
    (handleResponse_changedSessions.mpr (Or.inr ⟨rfl, by simp [hkind], by simp [hkind]⟩))), ?_⟩
  rw [if_neg hunemitted]
  rfl

/-- What the request has heard when the event of a tick has been handled. -/
theorem Eager.heard_response (h : Eager origin rid p es hb) (hends : e.ends p.sessionId = false) :
    Heard rid p (origin.assured rid (es ++ [e])) (handleResponse env e hb.beginTick) := by
  have hbegin : Heard rid p (origin.assured rid es) hb.beginTick := h.heard
  have hnext := @Heard.response env _ _ e _ _ hbegin hends
  have hsame : hb.beginTick.feeds rid e.sessionId = hb.feeds rid e.sessionId := rfl
  simpa [assured, accepted_concat, hsame, h.feeds, surelyReaches] using hnext

/-- An event that ends requests on a session but does not lose it reports a failed task. -/
theorem taskFailed_of_ends {sid : String} (hends : e.ends sid = true)
    (hkept : e.loses sid = false) :
    e.sessionId = sid ∧ e.kind = .taskFailed := by
  simp only [TtsResponseMsg.ends, TtsResponseMsg.loses, Bool.and_eq_true, Bool.or_eq_true,
    decide_eq_true_eq, Bool.and_eq_false_iff, decide_eq_false_iff_not] at hends hkept
  exact ⟨hends.1, hends.2.resolve_right (hkept.resolve_left (not_not.mpr hends.1))⟩

/-- A session that surely feeds the request after the event of a tick does so, and is sound,
when the tick ends. -/
theorem Eager.feeds_tick (h : Eager origin rid p es hb)
    (hnone : NoneExpires inp (handleResponse env e hb.beginTick)) {sid : String}
    (hsurely : origin.surelyFeeds rid (es ++ [e]) sid = true) :
    (finishTick inp (handleResponse env e hb.beginTick)).2.feeds rid sid = true ∧
      (finishTick inp (handleResponse env e hb.beginTick)).2.sound sid = true := by
  rw [surelyFeeds_concat, Bool.and_eq_true, Bool.not_eq_true', ← h.feeds] at hsurely
  exact finishTick_feeds hnone (handleResponse_feeds_of_spared hsurely.1 hsurely.2)
    (handleResponse_sound (h.sound sid hsurely.1) hsurely.2)

/-- No other session feeds the request then: one whose task has failed is closed. -/
theorem Eager.surelyFeeds_tick (h : Eager origin rid p es hb)
    (hnone : NoneExpires inp (handleResponse env e hb.beginTick)) {sid : String}
    (hfeeds : (finishTick inp (handleResponse env e hb.beginTick)).2.feeds rid sid = true) :
    origin.surelyFeeds rid (es ++ [e]) sid = true := by
  have hbefore := feeds_of_finishTick hfeeds
  rw [handleResponse_feeds, Bool.and_eq_true, Bool.not_eq_true'] at hbefore
  rw [surelyFeeds_concat, ← h.feeds, Bool.and_eq_true, Bool.not_eq_true']
  refine ⟨hbefore.1, ?_⟩
  by_contra hended
  rw [Bool.not_eq_false] at hended
  obtain ⟨rfl, hkind⟩ := taskFailed_of_ends hended hbefore.2
  rw [finishTick_failed hkind hnone] at hfeeds
  cases hfeeds

/-- A tick for one event that does not complete the request. -/
theorem Eager.tick (h : Eager origin rid p es hb) (hstreaming : p.state = .streaming)
    (hends : e.ends p.sessionId = false) (hbatch : inp.batch = [.response e])
    (hnone : NoneExpires inp (midTick env hb inp.batch))
    (hincomplete : ¬p.Completed (origin.assured rid (es ++ [e]))) :
    Eager origin rid p (es ++ [e]) (tick env inp hb).2 := by
  have hmid : midTick env hb inp.batch = handleResponse env e hb.beginTick := by
    rw [hbatch]
    rfl
  have htick : (Heartbeat.tick env inp hb).2 =
      (finishTick inp (handleResponse env e hb.beginTick)).2 := by
    rw [← hmid]
    rfl
  rw [hmid] at hnone
  rw [htick]
  refine ⟨(h.heard_response hends).kept hstreaming hincomplete, fun sid => ?_, fun sid hsid => ?_⟩
  · exact Bool.eq_iff_iff.mpr ⟨h.surelyFeeds_tick hnone, fun hsid => (h.feeds_tick hnone hsid).1⟩
  · exact (h.feeds_tick hnone (h.surelyFeeds_tick hnone hsid)).2

/-- With one event in each tick, a response holds what has surely reached the request. -/
theorem Eager.writes_sound (h : Eager origin rid p es hb) (hstreaming : p.state = .streaming)
    (hwrites : hb.changeset.clientWrites = []) (hspared : ∀ e ∈ rest, e.ends p.sessionId = false)
    (hcut : cut.map TickInput.batch = rest.map fun e => [.response e])
    (hunexpired : Unexpired env hb cut) (hw : w ∈ writes env hb cut) (hrid : w.requestId = rid) :
    ∃ es' rest', es ++ rest = es' ++ rest' ∧ p.Completed (origin.assured rid es') ∧
      w = completedWrite rid (p.hear (origin.assured rid es')) := by
  induction cut generalizing es rest hb with
  | nil => cases hw
  | cons inp cut ih =>
    obtain ⟨e, rest', rfl, hbatch, hcut⟩ := List.map_eq_cons_iff.mp hcut.symm
    have hends := hspared e List.mem_cons_self
    have hsingle : inp.batch = [e].map .response := hbatch.symm
    have hrest : messagesOf cut = rest'.map .response := by
      rw [messagesOf, List.flatMap_def, ← hcut, ← List.flatMap_def, List.map_eq_flatMap]
    have hheard : Heard rid p (origin.assured rid (es ++ [e])) (midTick env hb inp.batch) := by
      rw [hsingle, midTick_responses]
      exact h.heard_response hends
    rw [writes_cons, List.mem_append] at hw
    by_cases hcompleted : p.Completed (origin.assured rid (es ++ [e]))
    · obtain ⟨hended, hwritten⟩ := hheard.tick_completed hstreaming hwrites hsingle hcompleted
      rcases hw with hw | hw
      · exact ⟨es ++ [e], rest', by simp, hcompleted, (hwritten w).mp ⟨hw, hrid⟩⟩
      · exact absurd hrid (hended.writes tick_clientWrites hrest w hw)
    · rcases hw with hw | hw
      · exact absurd hrid (hheard.tick_silent hstreaming hwrites hsingle hcompleted w hw)
      · have hnext := h.tick hstreaming hends hbatch.symm hunexpired.1 hcompleted
        obtain ⟨es', rest'', heq, hfound⟩ := ih hnext tick_clientWrites
          (fun e' he' => hspared e' (List.mem_cons_of_mem _ he')) hcut.symm hunexpired.2 hw
        exact ⟨es', rest'', by simpa using heq, hfound⟩

/-! ### The comparison of all cuts -/

/-- If some chunk may be heard but need not be, the surely heard audio is shorter by that of
the chunk. -/
theorem assured_length_le (hevents : events = es ++ e :: rest)
    (hmay : hb.mayReach rid es e = true) (hmust : hb.surelyReaches rid es e = false) :
    ((hb.assured rid events).flatMap TtsResponseMsg.audio).length + e.audio.length ≤
      ((hb.audible rid events).flatMap TtsResponseMsg.audio).length := by
  have hassured : hb.assured rid events = hb.assured rid es ++
      accepted (fun before => hb.surelyReaches rid (es ++ e :: before)) rest := by
    rw [hevents, assured, accepted_append, accepted]
    simp [hmust]
  have haudible : hb.audible rid events = hb.audible rid es ++ e ::
      accepted (fun before => hb.mayReach rid (es ++ e :: before)) rest := by
    rw [hevents, audible, accepted_append, accepted]
    simp [hmay]
  have hbefore : (hb.assured rid es).Sublist (hb.audible rid es) :=
    accepted_sublist fun _ _ => mayReach_of_surelyReaches
  have hafter : (accepted (fun before => hb.surelyReaches rid (es ++ e :: before)) rest).Sublist
      (accepted (fun before => hb.mayReach rid (es ++ e :: before)) rest) :=
    accepted_sublist fun _ _ => mayReach_of_surelyReaches
  have hle₁ := (hbefore.flatMap TtsResponseMsg.audio).length_le
  have hle₂ := (hafter.flatMap TtsResponseMsg.audio).length_le
  rw [hassured, haudible]
  simp only [List.flatMap_append, List.flatMap_cons, List.length_append]
  omega

section Necessity

variable (hp : hb.board.pending.get rid = some p) (hstreaming : p.state = .streaming)
  (hwrites : hb.changeset.clientWrites = []) (hsame : SameWrites env hb rid events)

include hp hstreaming hwrites hsame

/-- If all cuts write the same, they all write what may have been heard wherever the request
may be completed. -/
theorem SameWrites.write_iff (hevents : events = es ++ rest)
    (hspared : ∀ e ∈ es, e.ends p.sessionId = false) (hcompleted : p.Completed (hb.audible rid es))
    (hcut : Cuts events cut) (hunexpired : Unexpired env hb cut) (hrid : w.requestId = rid) :
    w ∈ writes env hb cut ↔ w = completedWrite rid (p.hear (hb.audible rid es)) := by
  obtain ⟨cut', hcut', hunexpired', hwritten⟩ :=
    @exists_cut_at env _ _ _ _ _ _ hp hstreaming hwrites hevents hspared hcompleted
  exact (hsame cut cut' hcut hcut' hunexpired hunexpired' w hrid).trans (hwritten w hrid)

/-- If all cuts write the same, the session of a request that may be completed is spared. -/
theorem SameWrites.spared (hevents : events = es ++ rest)
    (hspared : ∀ e ∈ es, e.ends p.sessionId = false)
    (hcompleted : p.Completed (hb.audible rid es)) :
    ∀ e ∈ events, e.ends p.sessionId = false := by
  intro e he
  by_contra hends
  obtain ⟨cut, hcut, hunexpired, hsilent⟩ :=
    @exists_cut_silent env _ _ _ _ hp hwrites ⟨e, he, by simpa using hends⟩
  have hwrite := (hsame.write_iff hp hstreaming hwrites hevents hspared hcompleted hcut hunexpired
    rfl).mpr rfl
  exact hsilent _ hwrite rfl

/-- If all cuts write the same, the response does not depend on where the request may be
completed. -/
theorem SameWrites.write_eq {es' rest' : List TtsResponseMsg} (hevents : events = es ++ rest)
    (hevents' : events = es' ++ rest') (hspared : ∀ e ∈ events, e.ends p.sessionId = false)
    (hcompleted : p.Completed (hb.audible rid es))
    (hcompleted' : p.Completed (hb.audible rid es')) :
    completedWrite rid (p.hear (hb.audible rid es)) =
      completedWrite rid (p.hear (hb.audible rid es')) := by
  have hbegin : ∀ e ∈ es, e.ends p.sessionId = false := fun e he =>
    hspared e (hevents ▸ List.mem_append_left _ he)
  have hbegin' : ∀ e ∈ es', e.ends p.sessionId = false := fun e he =>
    hspared e (hevents' ▸ List.mem_append_left _ he)
  obtain ⟨cut, hcut, hunexpired, hwritten⟩ :=
    @exists_cut_at env _ _ _ _ _ _ hp hstreaming hwrites hevents hbegin hcompleted
  exact (hsame.write_iff hp hstreaming hwrites hevents' hbegin' hcompleted' hcut hunexpired
    rfl).mp ((hwritten _ rfl).mpr rfl)

/-- If all cuts write the same and no session that feeds the request has failed, a request
that may be completed surely is, and its response is what has surely been heard. -/
theorem SameWrites.assured_eq (hsound : ∀ sid, hb.feeds rid sid = true → hb.sound sid = true)
    (hfinal : p.finalReceived = false) (hevents : events = es ++ rest)
    (hspared : ∀ e ∈ events, e.ends p.sessionId = false)
    (hcompleted : p.Completed (hb.audible rid es)) :
    ∃ es' rest', events = es' ++ rest' ∧ p.Completed (hb.assured rid es') ∧
      completedWrite rid (p.hear (hb.audible rid es)) =
        completedWrite rid (p.hear (hb.assured rid es')) := by
  have hne : events ≠ [] := by
    rintro rfl
    obtain ⟨rfl, -⟩ := List.append_eq_nil_iff.mp hevents.symm
    rcases hcompleted with h | ⟨e, he, -⟩
    · rw [hfinal] at h
      cases h
    · cases he
  obtain ⟨cut, hbatches, hunexpired⟩ := exists_cut env hb (events.map ([·]))
  have hcut : Cuts events cut := by
    refine cuts_of_batches hbatches (by simpa using hne) ?_
    rw [← List.flatMap_def, List.flatMap_singleton']
  have hsingles : cut.map TickInput.batch = events.map fun e => [.response e] := by
    rw [hbatches, List.map_map]
    rfl
  have heager : Eager hb rid p [] hb := by
    refine ⟨(Follows.refl hp).heard, fun sid => ?_, hsound⟩
    cases hfeeds : hb.feeds rid sid with
    | false => simp [surelyFeeds, hfeeds]
    | true => simp [surelyFeeds, hfeeds, hsound sid hfeeds]
  have hbegin : ∀ e ∈ es, e.ends p.sessionId = false := fun e he =>
    hspared e (hevents ▸ List.mem_append_left _ he)
  have hwrite := (hsame.write_iff hp hstreaming hwrites hevents hbegin hcompleted hcut hunexpired
    rfl).mpr rfl
  exact heager.writes_sound hstreaming hwrites hspared hsingles hunexpired hwrite rfl

/-- If all cuts write the same and no session that feeds the request has failed, a request
that may be completed is robust. -/
theorem SameWrites.robust (hsound : ∀ sid, hb.feeds rid sid = true → hb.sound sid = true)
    (hevents : events = es ++ rest) (hbegin : ∀ e ∈ es, e.ends p.sessionId = false)
    (hcompleted : p.Completed (hb.audible rid es)) : Robust hb rid p events := by
  have hspared := hsame.spared hp hstreaming hwrites hevents hbegin hcompleted
  have hshows {es' rest'} (hevents' : events = es' ++ rest')
      (hcompleted' : p.Completed (hb.audible rid es')) :=
    (PendingRequest.completedWrite_hear hcompleted hcompleted').mp
      (hsame.write_eq hp hstreaming hwrites hevents hevents' hspared hcompleted hcompleted')
  have hlate : ∀ es' e rest', events = es' ++ e :: rest' → hb.mayReach rid es' e = true →
      p.Completed (hb.audible rid es') → e.audio = [] := by
    intro es' e rest' hevents' hmay hcompleted'
    have hnext : p.Completed (hb.audible rid (es' ++ [e])) :=
      hcompleted'.mono accepted_append_sublist
    have hbefore := (hshows hevents' hcompleted').1
    have hafter := (hshows (List.append_cons es' e rest' ▸ hevents') hnext).1
    rw [hbefore, audible_concat, if_pos hmay, List.flatMap_append] at hafter
    simpa using hafter
  refine ⟨hspared, ?_, ?_, hlate, (p.hear (hb.audible rid es)).usageCharacters, ?_, ?_⟩
  · cases hfinal : p.finalReceived with
    | true => exact Or.inl hfinal
    | false =>
      obtain ⟨es', rest', rfl, hassured, -⟩ := hsame.assured_eq hp hstreaming hwrites hsound hfinal
        hevents hspared hcompleted
      exact hassured.mono accepted_append_sublist
  · intro es' e rest' hevents' hmay hmust
    cases hfinal : p.finalReceived with
    | true => exact hlate es' e rest' hevents' hmay (Or.inl hfinal)
    | false =>
      obtain ⟨es'', rest'', hevents'', hassured, hwrite⟩ := hsame.assured_eq hp hstreaming hwrites
        hsound hfinal hevents hspared hcompleted
      have hlonger : (hb.assured rid es'').Sublist (hb.assured rid events) := by
        rw [hevents'']
        exact accepted_append_sublist
      have hfull : p.Completed (hb.audible rid events) := by
        refine (hassured.mono hlonger).mono ?_
        exact accepted_sublist fun _ _ => mayReach_of_surelyReaches
      have haudio := ((PendingRequest.completedWrite_hear hcompleted hassured).mp hwrite).1
      rw [(hshows (List.append_nil events).symm hfull).1] at haudio
      have hlength := assured_length_le hevents' hmay hmust
      have hle := (hlonger.flatMap TtsResponseMsg.audio).length_le
      rw [← haudio] at hle
      exact List.eq_nil_of_length_eq_zero (by omega)
  · intro hfinal
    have hnone : p.Completed (hb.audible rid []) := Or.inl hfinal
    exact ((hshows rfl hnone).2).symm
  · intro es' e rest' hevents' hmay hcompleted'
    have husage := (hshows (List.append_cons es' e rest' ▸ hevents') hcompleted').2
    rw [husage, audible_concat, if_pos hmay]
    simp [PendingRequest.hear]

end Necessity

/-- The responses written for a streaming request are the same for all ways of cutting the
upstream events into ticks if tick boundaries cannot show. Unless a session that feeds the
request has already failed, this is also necessary. -/
theorem tick_boundaries_irrelevant (hp : hb.board.pending.get rid = some p)
    (hstreaming : p.state = .streaming) (hwrites : hb.changeset.clientWrites = []) :
    (Indifferent hb rid p events → SameWrites env hb rid events) ∧
      ((∀ sid, hb.feeds rid sid = true → hb.sound sid = true) → SameWrites env hb rid events →
        Indifferent hb rid p events) := by
  refine ⟨fun hindifferent => hindifferent.sameWrites hp hstreaming hwrites, ?_⟩
  intro hsound hsame
  by_cases hmay : ∃ es rest, events = es ++ rest ∧ (∀ e ∈ es, e.ends p.sessionId = false) ∧
      p.Completed (hb.audible rid es)
  · obtain ⟨es, rest, hevents, hspared, hcompleted⟩ := hmay
    exact Or.inr (hsame.robust hp hstreaming hwrites hsound hevents hspared hcompleted)
  · refine Or.inl fun es rest hevents hspared hcompleted => hmay ?_
    exact ⟨es, rest, hevents, hspared, hcompleted⟩

/-- The session of a sample request. -/
def sampleSession : String := "s-0000000000000000"

/-- The final chunk of a sample request. -/
def finalChunk : TtsResponseMsg :=
  { sessionId := sampleSession, audioHex := ascii "0a", isFinal := true, usageCharacters := 7 }

/-- The loss of the session of a sample request. -/
def connectionLost : TtsResponseMsg := { sessionId := sampleSession, kind := .disconnected }

/-- A heartbeat with a streaming request: it was bound to a session, and its identifier was
then used again for a request to the local engine. -/
def streamingRequest : Heartbeat :=
  (run sampleLocalEnv (start 16 (seconds 60) (seconds 3600))
    [{ requests := [.request { requestId := "r", backend := .upstream },
        .request { requestId := "r", backend := .localEngine }] }]).2

/-- The record of the streaming request. -/
def streamingRecord : PendingRequest :=
  { requestId := "r", sessionId := sampleSession, state := .streaming, format := .pcm }

/-- A final chunk alone is handled the same way in all cuts. -/
theorem tick_boundaries_irrelevant_finalChunk :
    SameWrites sampleLocalEnv streamingRequest "r" [finalChunk] := by
  have hp : streamingRequest.board.pending.get "r" = some streamingRecord := by decide +kernel
  have hsplit : ∀ {es e rest}, [finalChunk] = es ++ e :: rest → es = [] ∧ e = finalChunk := by
    intro es e rest h
    cases es with
    | nil => exact ⟨rfl, (List.cons.inj h).1.symm⟩
    | cons e' es => simp at h
  refine (tick_boundaries_irrelevant hp rfl rfl).1 (Or.inr ⟨by decide, by decide +kernel, ?_, ?_, 7,
    by decide, ?_⟩)
  · intro es e rest h _ hmust
    obtain ⟨rfl, rfl⟩ := hsplit h
    revert hmust
    decide +kernel
  · intro es e rest h _ hcompleted
    obtain ⟨rfl, rfl⟩ := hsplit h
    revert hcompleted
    decide +kernel
  · intro es e rest h _ _
    obtain ⟨rfl, rfl⟩ := hsplit h
    rfl

/-- If the session is lost right after the final chunk, the response is written only if a
tick ends between the two events. -/
theorem connectionLost_boundary_matters :
    (∃ s, streamingRequest.board.pending.get "r" = some streamingRecord ∧
      streamingRequest.board.sessionPool.get streamingRecord.sessionId = some s ∧
      s.currentRequestId = "r") ∧
    ¬SameWrites sampleLocalEnv streamingRequest "r" [finalChunk, connectionLost] := by
  refine ⟨⟨{ sessionId := sampleSession, state := .connecting, currentRequestId := "r" },
    by decide +kernel, by decide +kernel, rfl⟩, fun hsame => ?_⟩
  have hiff := hsame [{ events := [.response finalChunk, .response connectionLost] }]
    [{ events := [.response finalChunk] }, { events := [.response connectionLost] }]
    ⟨by simp, rfl⟩ ⟨by simp, rfl⟩ (by decide +kernel) (by decide +kernel)
    { requestId := "r", audio := [10], format := .pcm, isFinal := true, cumulativeBytes := 1,
      audioLengthMs := 7 } rfl
  revert hiff
  decide +kernel

/-! ### Failed sessions between ticks -/

/-- A failed session has been touched in this tick. -/
def FailuresMarked (hb : Heartbeat) : Prop :=
  ∀ sid s, hb.board.sessionPool.get sid = some s → s.failedOrClosed = true →
    sid ∈ hb.changedSessions

/-- Every message marks the sessions that fail. -/
theorem FailuresMarked.message (hmarked : FailuresMarked hb) (hwf : hb.PoolWf) (m : Message) :
    FailuresMarked (handleMessage env hb m) := by
  have hsame {hb' : Heartbeat} (hpool : hb'.board.sessionPool = hb.board.sessionPool)
      (hchanged : hb'.changedSessions = hb.changedSessions) : FailuresMarked hb' := by
    intro sid s hs hfailed
    rw [hchanged]
    exact hmarked sid s (hpool ▸ hs) hfailed
  cases m with
  | request req =>
    rcases @handleRequest_effect env hb req hwf.wellKeyed hwf.named with
      ⟨-, heffect⟩ | ⟨-, heffect⟩ | ⟨handle, s₀, -, heffect⟩
    · exact hsame heffect.sessionPool heffect.changedSessions
    · exact hsame heffect.sessionPool heffect.changedSessions
    · intro sid s hs hfailed
      rw [handleMessage, heffect.changedSessions, mem_setInsert]
      rw [handleMessage, heffect.session] at hs
      split at hs
      · exact Or.inl ‹_›
      · exact Or.inr (hmarked sid s hs hfailed)
  | response rsp =>
    intro sid s hs hfailed
    refine handleResponse_changedSessions.mpr ?_
    rw [handleMessage, handleResponse_get_session] at hs
    by_cases hsid : sid = rsp.sessionId
    · cases hkind : rsp.kind with
      | audioChunk => exact Or.inl (hmarked sid s (by simpa [hkind] using hs) hfailed)
      | taskStarted => exact Or.inl (hmarked sid s (by simpa [hkind] using hs) hfailed)
      | connected => exact Or.inr ⟨hsid, by simp, by simp⟩
      | taskFinished => exact Or.inr ⟨hsid, by simp, by simp⟩
      | taskFailed => exact Or.inr ⟨hsid, by simp, by simp⟩
      | disconnected => exact Or.inr ⟨hsid, by simp, by simp⟩
    · left
      refine hmarked sid s ?_ hfailed
      cases hkind : rsp.kind <;> simpa [hkind, hsid] using hs
  | cancel msg => exact hmarked
  | localComplete c => exact hmarked
  | localFailed f => exact hmarked

/-- Between the ticks of a run, no session of the pool has failed. -/
theorem run_sound (maxSize : Nat) (idleTimeout maxLifetime : Duration) (inputs : List TickInput)
    (sid : String) :
    (run env (start maxSize idleTimeout maxLifetime) inputs).2.sound sid = true := by
  suffices hall : ∀ hb, BetweenTicks hb → (∀ sid, hb.sound sid = true) →
      (inputs.foldl (fun hb inp => (tick env inp hb).2) hb).sound sid = true by
    rw [run_eq_foldl]
    refine hall _ (@betweenTicks_run env [] maxSize idleTimeout maxLifetime) fun sid => ?_
    simp [start, DataBoard.empty, sound, SessionPool.get]
  induction inputs with
  | nil => exact fun hb _ hsound => hsound sid
  | cons inp inputs ih =>
    intro hb hbetween hsound
    rw [List.foldl_cons]
    refine ih _ (hbetween.tick inp) fun sid => ?_
    have hbegin : hb.beginTick.PoolWf ∧ FailuresMarked hb.beginTick := by
      refine ⟨hbetween.poolWf.beginTick, ?_⟩
      intro sid s hs hfailed
      have hold := hsound sid
      have hs' : hb.board.sessionPool.get sid = some s := hs
      simp [sound, hs', hfailed] at hold
    have hbatch : (midTick env hb inp.batch).PoolWf ∧
        FailuresMarked (midTick env hb inp.batch) := by
      unfold midTick
      generalize hb.beginTick = hb' at hbegin ⊢
      induction inp.batch generalizing hb' with
      | nil => exact hbegin
      | cons m ms ihms =>
        exact ihms _ ⟨handleMessage_poolWf hbegin.1 m, hbegin.2.message hbegin.1 m⟩
    change (finishTick inp (midTick env hb inp.batch)).2.sound sid = true
    cases hs : (finishTick inp (midTick env hb inp.batch)).2.board.sessionPool.get sid with
    | none => simp [sound, hs]
    | some s =>
      obtain ⟨hemitted, hopen⟩ := (finishTick_get_session hbatch.1.wellKeyed).mp hs
      have hid := (emitReady_emitted.wellKeyed hbatch.1.wellKeyed).sessionId_eq hemitted
      simp only [sound, hs, Option.all_some, Bool.not_eq_true']
      by_contra hfailed
      rw [Bool.not_eq_false] at hfailed
      refine hopen (Or.inl ⟨emitReady_emitted.changedSessions.mpr ?_, hfailed⟩)
      rw [emitReady_emitted.session] at hemitted
      obtain ⟨s₀, hs₀, rfl⟩ := Option.map_eq_some_iff.mp hemitted
      rw [hid]
      split at hfailed
      · cases hfailed
      · exact Or.inr (hbatch.2 sid s₀ hs₀ hfailed)

end Heartbeat

end TtsServer
