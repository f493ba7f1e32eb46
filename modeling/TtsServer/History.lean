import TtsServer.HandlerEffects

/-!
# Runs of the heartbeat

A run feeds a list of tick inputs to the heartbeat and collects one change set for
each. To speak about the moments inside a tick, the same run is read as a
sequence of small steps: the start of a tick, one handled message, the end of a
tick. Next to the heartbeat a history keeps the change sets returned so far, the
handled messages and the requests that were bound to an upstream session.
-/

namespace TtsServer

open Lib

namespace Heartbeat

/-- A run of the heartbeat: the change sets of all ticks, and the final state. -/
def run (env : Env) (hb : Heartbeat) (inputs : List TickInput) : List ChangeSet × Heartbeat :=
  inputs.foldl (fun acc inp => (acc.1 ++ [(tick env inp acc.2).1], (tick env inp acc.2).2)) ([], hb)

/-- The state of a tick after some messages of its batch. -/
def midTick (env : Env) (hb : Heartbeat) (ms : List Message) : Heartbeat :=
  ms.foldl (handleMessage env) hb.beginTick

/-- The state after a run is that of the last tick. -/
theorem run_eq_foldl (env : Env) (hb : Heartbeat) (inputs : List TickInput) :
    (run env hb inputs).2 = inputs.foldl (fun hb inp => (tick env inp hb).2) hb := by
  suffices hfold : ∀ (inputs : List TickInput) (acc : List ChangeSet × Heartbeat),
      (inputs.foldl (fun acc inp =>
        (acc.1 ++ [(tick env inp acc.2).1], (tick env inp acc.2).2)) acc).2 =
        inputs.foldl (fun hb inp => (tick env inp hb).2) acc.2 from hfold inputs ([], hb)
  intro inputs
  induction inputs with
  | nil => exact fun _ => rfl
  | cons inp inputs ih =>
    intro acc
    rw [List.foldl_cons, List.foldl_cons, ih]

/-- One more tick of a run. -/
theorem run_concat {env : Env} {hb : Heartbeat} {inputs : List TickInput} {inp : TickInput} :
    (run env hb (inputs ++ [inp])).2 = (tick env inp (run env hb inputs).2).2 := by
  simp [run_eq_foldl]

/-- A run is its first tick and the run of the rest. -/
theorem run_cons (env : Env) (hb : Heartbeat) (inp : TickInput) (inputs : List TickInput) :
    run env hb (inp :: inputs) =
      ((tick env inp hb).1 :: (run env (tick env inp hb).2 inputs).1,
        (run env (tick env inp hb).2 inputs).2) := by
  have hfold : ∀ (inputs : List TickInput) (acc : List ChangeSet × Heartbeat),
      inputs.foldl (fun acc inp =>
        (acc.1 ++ [(tick env inp acc.2).1], (tick env inp acc.2).2)) acc =
        (acc.1 ++ (run env acc.2 inputs).1, (run env acc.2 inputs).2) := by
    intro inputs
    induction inputs with
    | nil => simp [run]
    | cons inp inputs ih =>
      intro acc
      have hrun : run env acc.2 (inp :: inputs) = _ := ih ([] ++ [(tick env inp acc.2).1], _)
      rw [List.foldl_cons, ih, hrun]
      simp
  rw [run, List.foldl_cons, hfold]
  simp

/-- A newly started heartbeat over an empty board with the given bounds. -/
def start (maxSize : Nat) (idleTimeout maxLifetime : Duration) : Heartbeat :=
  { board := DataBoard.empty maxSize idleTimeout maxLifetime }

end Heartbeat

/-- A concrete environment for sample runs: the clock ticks with every reading, and the
random generator counts. -/
def sampleEnv : Env where
  dump := fun _ => ""
  steadyClock := fun n => n
  rng := fun n => UInt64.ofNat n

/-- The sample environment with a local engine that is ready and returns silence. -/
def sampleLocalEnv : Env :=
  { sampleEnv with localEngine := some { isReady := true, synthesize := fun _ _ _ => {} } }

/-- The small steps of which a tick consists. -/
inductive Step where
  | begin
  | message (m : Message)
  | finish (inp : Heartbeat.TickInput)

/-- The message of a step that handles one. -/
def Step.message? : Step → Option Message
  | .message m => some m
  | _ => none

/-- The small steps of one tick. -/
def Heartbeat.TickInput.steps (inp : Heartbeat.TickInput) : List Step :=
  .begin :: inp.batch.map .message ++ [.finish inp]

/-- The small steps of a run. -/
def stepsOf (inputs : List Heartbeat.TickInput) : List Step :=
  inputs.flatMap Heartbeat.TickInput.steps

/-- The messages of a run, in the order in which they are handled. -/
def messagesOf (inputs : List Heartbeat.TickInput) : List Message :=
  inputs.flatMap Heartbeat.TickInput.batch

/-- The messages of a first tick come first. -/
theorem messagesOf_cons {inp : Heartbeat.TickInput} {inputs : List Heartbeat.TickInput} :
    messagesOf (inp :: inputs) = inp.batch ++ messagesOf inputs :=
  List.flatMap_cons

/-- The messages of more ticks come behind. -/
theorem messagesOf_append {before after : List Heartbeat.TickInput} :
    messagesOf (before ++ after) = messagesOf before ++ messagesOf after :=
  List.flatMap_append

/-- The heartbeat together with what has happened so far. -/
structure History where
  hb : Heartbeat
  changeSets : List ChangeSet := []
  handled : List Message := []
  /-- The requests that have been bound to an upstream session. -/
  upstream : List String := []

namespace History

open Heartbeat

/-- The requests that a step binds to an upstream session. -/
def bindings (env : Env) (hb : Heartbeat) : Message → List String
  | .request req =>
    match admission env req hb with
    | .onSession _ => [req.requestId]
    | _ => []
  | _ => []

/-- One small step. -/
def step (env : Env) (h : History) : Step → History
  | .begin => { h with hb := h.hb.beginTick }
  | .message m => { h with
      hb := handleMessage env h.hb m
      handled := h.handled ++ [m]
      upstream := h.upstream ++ bindings env h.hb m }
  | .finish inp => { h with
      hb := (finishTick inp h.hb).2
      changeSets := h.changeSets ++ [(finishTick inp h.hb).1] }

/-- The history of a run. -/
def of (env : Env) (hb : Heartbeat) (inputs : List TickInput) : History :=
  (stepsOf inputs).foldl (step env) { hb := hb }

/-- The requests seen so far. -/
def requestIds (h : History) : List String := h.handled.filterMap Message.requestId?

/-- The local jobs answered so far. -/
def answerIds (h : History) : List String := h.handled.filterMap Message.answerId?

/-- The local jobs of the change sets returned so far. -/
def emittedJobs (h : History) : List String :=
  h.changeSets.flatMap fun cs => cs.localJobs.map LocalSynthJob.requestId

/-- The writes of the change sets returned so far. -/
def clientWrites (h : History) : List WriteToClient :=
  h.changeSets.flatMap ChangeSet.clientWrites

/-- A property of every message of a run and of the state in which it is handled. -/
def Handles (env : Env) (hb : Heartbeat) (inputs : List TickInput)
    (P : History → Message → Prop) : Prop :=
  Along (step env) (fun h l => ∀ m ∈ l.message?, P h m) { hb := hb } (stepsOf inputs)

/-- A decidable property of messages can be decided for a whole run. -/
instance (env : Env) (hb : Heartbeat) (inputs : List TickInput) (P : History → Message → Prop)
    [∀ h m, Decidable (P h m)] : Decidable (Handles env hb inputs P) :=
  inferInstanceAs (Decidable (Along (step env) (fun h l => ∀ m ∈ l.message?, P h m) { hb := hb }
    (stepsOf inputs)))

variable {env : Env} {h : History} {hb : Heartbeat} {inputs : List TickInput}
  {P Q : History → Message → Prop}

/-- A message that admits an identifier makes it seen. -/
@[simp] theorem requestIds_message (m : Message) :
    (step env h (.message m)).requestIds = h.requestIds ++ m.requestId?.toList := by
  cases hm : m.requestId? <;> simp [requestIds, step, hm]

/-- A message that answers a job makes it answered. -/
@[simp] theorem answerIds_message (m : Message) :
    (step env h (.message m)).answerIds = h.answerIds ++ m.answerId?.toList := by
  cases hm : m.answerId? <;> simp [answerIds, step, hm]

/-- The end of a tick binds no request. -/
@[simp] theorem upstream_finish (inp : TickInput) :
    (step env h (.finish inp)).upstream = h.upstream := by
  simp only [step]

/-- The end of a tick handles no message. -/
@[simp] theorem handled_finish (inp : TickInput) :
    (step env h (.finish inp)).handled = h.handled := by
  simp only [step]

/-- The end of a tick sees no request. -/
@[simp] theorem requestIds_finish (inp : TickInput) :
    (step env h (.finish inp)).requestIds = h.requestIds := by
  rw [requestIds, handled_finish, requestIds]

/-- The end of a tick answers no job. -/
@[simp] theorem answerIds_finish (inp : TickInput) :
    (step env h (.finish inp)).answerIds = h.answerIds := by
  rw [answerIds, handled_finish, answerIds]

/-- The small steps of a tick do what the tick does. -/
theorem foldl_step_tick (env : Env) (h : History) (inp : TickInput) :
    (inp.steps.foldl (step env) h).hb = (tick env inp h.hb).2 ∧
      (inp.steps.foldl (step env) h).changeSets = h.changeSets ++ [(tick env inp h.hb).1] := by
  have hbatch : ∀ (ms : List Message) (h : History),
      ((ms.map Step.message).foldl (step env) h).hb = ms.foldl (handleMessage env) h.hb ∧
        ((ms.map Step.message).foldl (step env) h).changeSets = h.changeSets := by
    intro ms
    induction ms with
    | nil => exact fun h => ⟨rfl, rfl⟩
    | cons m ms ih => exact fun h => ih (step env h (.message m))
  obtain ⟨hhb, hsets⟩ := hbatch inp.batch (step env h .begin)
  simp only [TickInput.steps, List.cons_append, List.foldl_cons, List.foldl_append,
    List.foldl_nil]
  simp only [step] at hhb hsets ⊢
  rw [hhb, hsets]
  exact ⟨rfl, rfl⟩

/-- The small steps of a run do what the run does. -/
theorem of_eq_run : (of env hb inputs).hb = (run env hb inputs).2 ∧
    (of env hb inputs).changeSets = (run env hb inputs).1 := by
  have hruns : ∀ (inputs : List TickInput) (h : History),
      let h' := (stepsOf inputs).foldl (step env) h
      let r := inputs.foldl (fun acc inp =>
        (acc.1 ++ [(tick env inp acc.2).1], (tick env inp acc.2).2)) (h.changeSets, h.hb)
      h'.hb = r.2 ∧ h'.changeSets = r.1 := by
    intro inputs
    induction inputs with
    | nil => exact fun h => ⟨rfl, rfl⟩
    | cons inp inputs ih =>
      intro h
      obtain ⟨hhb, hsets⟩ := foldl_step_tick env h inp
      have hrest := ih (inp.steps.foldl (step env) h)
      rw [hhb, hsets] at hrest
      simpa [stepsOf] using hrest
  exact hruns inputs { hb := hb }

/-- The values that the messages of a run carry, read from its small steps. -/
theorem stepsOf_filterMap {A : Type*} (f : Message → Option A) :
    (stepsOf inputs).filterMap (fun l => l.message?.bind f) =
      (messagesOf inputs).filterMap f := by
  induction inputs with
  | nil => rfl
  | cons inp inputs ih =>
    have hbatch : inp.steps.filterMap (fun l => l.message?.bind f) = inp.batch.filterMap f := by
      simp [TickInput.steps, Step.message?, List.filterMap_map]
    simp only [stepsOf, messagesOf, List.flatMap_cons, List.filterMap_append] at ih ⊢
    rw [hbatch, ih]

/-- The messages of a run are handled in order. -/
theorem of_handled : (of env hb inputs).handled = messagesOf inputs := by
  have hlog : (of env hb inputs).handled = [] ++ (stepsOf inputs).flatMap
      (fun l => l.message?.toList) := by
    refine foldl_log fun h l => ?_
    cases l <;> simp [step, Step.message?]
  have hsteps := @stepsOf_filterMap inputs _ some
  rw [List.filterMap_some] at hsteps
  rw [hlog, List.nil_append, ← hsteps]
  simp [List.filterMap_eq_flatMap_toList]

/-- The messages of a run are those of its small steps. -/
theorem mem_messagesOf {m : Message} : m ∈ messagesOf inputs ↔ Step.message m ∈ stepsOf inputs := by
  simp [messagesOf, stepsOf, TickInput.steps]

/-- If the values carried by the messages of a run are pairwise distinct, no message
carries a value seen before. -/
theorem handles_fresh {A : Type*} (f : Message → Option A)
    (hnodup : ((messagesOf inputs).filterMap f).Nodup) :
    Handles env hb inputs fun h m => ∀ a, f m = some a → a ∉ h.handled.filterMap f := by
  have hfresh : Along (step env)
      (fun h l => ∀ a, l.message?.bind f = some a → a ∉ h.handled.filterMap f) { hb := hb }
      (stepsOf inputs) := by
    refine along_fresh_of_nodup (fun h l => ?_) (by simpa [stepsOf_filterMap] using hnodup)
    cases l with
    | begin => simp [step, Step.message?]
    | finish inp => simp [step, Step.message?]
    | message m => cases hm : f m <;> simp [step, Step.message?, hm]
  refine hfresh.mono fun h l hl m hm a ha => hl a ?_
  rw [Option.mem_def.mp hm]
  exact ha

/-- The history of a run in two parts. -/
theorem of_append (inputs' : List TickInput) :
    of env hb (inputs ++ inputs') = (stepsOf inputs').foldl (step env) (of env hb inputs) := by
  simp [of, stepsOf]

/-- What holds of the messages of a run holds of the messages of its beginning. -/
theorem Handles.of_append {inputs' : List TickInput}
    (hrun : Handles env hb (inputs ++ inputs') P) : Handles env hb inputs P := by
  unfold Handles stepsOf at *
  rw [List.flatMap_append, along_append] at hrun
  exact hrun.1

/-- Two properties of the messages of a run hold together. -/
theorem Handles.and (hP : Handles env hb inputs P) (hQ : Handles env hb inputs Q) :
    Handles env hb inputs fun h m => P h m ∧ Q h m :=
  (along_and.mpr ⟨hP, hQ⟩).mono fun _ _ hl m hm => ⟨hl.1 m hm, hl.2 m hm⟩

/-- A weaker property holds of the same messages. -/
theorem Handles.mono (hP : Handles env hb inputs P) (hPQ : ∀ h m, P h m → Q h m) :
    Handles env hb inputs Q :=
  Along.mono (fun h _ hl m hm => hPQ h m (hl m hm)) hP

/-- The induction rule for runs: an invariant that the start of a tick, the end of a tick
and every message that meets `P` keep holds throughout a run whose messages meet `P`. -/
theorem Handles.invariant {I : History → Prop}
    (hrun : Handles env hb inputs P) (hstart : I { hb := hb })
    (hbegin : ∀ h, I h → I (step env h .begin))
    (hmessage : ∀ h m, I h → P h m → I (step env h (.message m)))
    (hfinish : ∀ h inp, I h → I (step env h (.finish inp))) :
    Handles env hb inputs (fun h m => I h ∧ P h m) ∧ I (of env hb inputs) := by
  have hstep : ∀ h l, I h → (∀ m ∈ l.message?, P h m) → I (step env h l) := by
    intro h l hI hP
    cases l with
    | begin => exact hbegin h hI
    | message m => exact hmessage h m hI (hP m rfl)
    | finish inp => exact hfinish h inp hI
  refine ⟨?_, (Along.invariant hrun hstart hstep).2⟩
  exact hrun.of_invariant hstart hstep fun h l hI hP m hm => ⟨hI, hP m hm⟩

/-- The induction rule for runs with any messages. -/
theorem of_invariant {I : History → Prop} (hstart : I { hb := hb })
    (hbegin : ∀ h, I h → I (step env h .begin))
    (hmessage : ∀ h m, I h → I (step env h (.message m)))
    (hfinish : ∀ h inp, I h → I (step env h (.finish inp))) : I (of env hb inputs) := by
  have hany : Handles env hb inputs fun _ _ => True :=
    along_iff_forall_split.mpr fun _ _ _ _ _ _ => trivial
  exact (hany.invariant hstart hbegin (fun h m hI _ => hmessage h m hI) hfinish).2

end History

end TtsServer
