import Mathlib.Data.List.Basic

/-!
# Runs of a deterministic system

A run is a left fold of a step function over a list of labels. `Along` states a
property of every step of a run: of the state in which the step is taken and of
its label. The rules below derive such statements from what a single step does.
A run may also keep a log of what its steps put out, or of what its labels bring until one
of them stops it. Labels may carry keys which the state records, as requests carry
identifiers; a run whose keys are pairwise distinct takes every step with a new key.
-/

namespace Lib

variable {S L K : Type*} {step : S → L → S} {P Q : S → L → Prop} {s : S} {ls ls' : List L}

/-- `P` holds of every step of the run of `step` from a state over a list of labels. -/
def Along (step : S → L → S) (P : S → L → Prop) : S → List L → Prop
  | _, [] => True
  | s, l :: ls => P s l ∧ Along step P (step s l) ls

/-- A decidable property of steps can be decided for a whole run. -/
instance Along.decidable [∀ s l, Decidable (P s l)] :
    ∀ (s : S) (ls : List L), Decidable (Along step P s ls)
  | _, [] => .isTrue trivial
  | s, l :: ls =>
    have := Along.decidable (step s l) ls
    inferInstanceAs (Decidable (P s l ∧ Along step P (step s l) ls))

/-- A run over a concatenation is the run over the second part after the first. -/
@[simp] theorem along_append :
    Along step P s (ls ++ ls') ↔ Along step P s ls ∧ Along step P (ls.foldl step s) ls' := by
  induction ls generalizing s with
  | nil => simp [Along]
  | cons l ls ih => simp [Along, ih, and_assoc]

/-- Reading off a statement about one step, the run being split there. -/
theorem Along.at {pre : List L} {l : L} {post : List L}
    (h : Along step P s (pre ++ l :: post)) : P (pre.foldl step s) l :=
  (along_append.mp h).2.1

/-- A property of the steps is a property of every split of the run. -/
theorem along_iff_forall_split :
    Along step P s ls ↔ ∀ pre l post, ls = pre ++ l :: post → P (pre.foldl step s) l := by
  constructor
  · rintro h pre l post rfl
    exact h.at
  · intro h
    induction ls generalizing s with
    | nil => trivial
    | cons l ls ih =>
      refine ⟨h [] l ls rfl, ih fun pre l' post heq => ?_⟩
      simpa using h (l :: pre) l' post (by simp [heq])

/-- A weaker property holds along the same run. -/
theorem Along.mono (hPQ : ∀ s l, P s l → Q s l) (h : Along step P s ls) : Along step Q s ls :=
  along_iff_forall_split.mpr fun _ _ _ heq => hPQ _ _ (along_iff_forall_split.mp h _ _ _ heq)

/-- Two properties hold along a run exactly when their conjunction does. -/
theorem along_and :
    Along step (fun s l => P s l ∧ Q s l) s ls ↔ Along step P s ls ∧ Along step Q s ls := by
  simp only [along_iff_forall_split]
  exact ⟨fun h => ⟨fun _ _ _ heq => (h _ _ _ heq).1, fun _ _ _ heq => (h _ _ _ heq).2⟩,
    fun h _ _ _ heq => ⟨h.1 _ _ _ heq, h.2 _ _ _ heq⟩⟩

/-- A family of properties holds along a run exactly when each of them does. -/
theorem along_forall {A : Sort*} {R : A → S → L → Prop} :
    Along step (fun s l => ∀ a, R a s l) s ls ↔ ∀ a, Along step (R a) s ls := by
  simp only [along_iff_forall_split]
  exact ⟨fun h a _ _ _ heq => h _ _ _ heq a, fun h _ _ _ heq a => h a _ _ _ heq⟩

/-- The induction rule for runs: an invariant kept by every step that meets `P` holds
in every state of a run along which `P` does, and at its end. -/
theorem Along.invariant {I : S → Prop} (h : Along step P s ls) (hs : I s)
    (hstep : ∀ s l, I s → P s l → I (step s l)) :
    Along step (fun s _ => I s) s ls ∧ I (ls.foldl step s) := by
  induction ls generalizing s with
  | nil => exact ⟨trivial, hs⟩
  | cons l ls ih =>
    obtain ⟨halong, hend⟩ := ih h.2 (hstep s l hs h.1)
    exact ⟨⟨hs, halong⟩, hend⟩

/-- The conclusion form of the induction rule: what the invariant and `P` give at a
single step holds along the whole run. -/
theorem Along.of_invariant {I : S → Prop} (h : Along step P s ls) (hs : I s)
    (hstep : ∀ s l, I s → P s l → I (step s l)) (hQ : ∀ s l, I s → P s l → Q s l) :
    Along step Q s ls :=
  (along_and.mpr ⟨(h.invariant hs hstep).1, h⟩).mono fun s l hl => hQ s l hl.1 hl.2

/-- Properties that are equivalent at every step taken under an invariant are equivalent
along a run, if the steps that have the property keep the invariant. -/
theorem along_congr_of_invariant {I : S → Prop} (hs : I s)
    (hstep : ∀ s l, I s → P s l → I (step s l)) (hPQ : ∀ s l, I s → (P s l ↔ Q s l)) :
    Along step P s ls ↔ Along step Q s ls := by
  induction ls generalizing s with
  | nil => rfl
  | cons l ls ih =>
    have htail : P s l ∧ Along step P (step s l) ls ↔ P s l ∧ Along step Q (step s l) ls :=
      and_congr_right fun hl => ih (hstep s l hs hl)
    exact htail.trans (and_congr_left' (hPQ s l hs))

/-- A property of states that every step keeps exactly when it meets `P` holds at the end of
a run exactly when it holds at its start and `P` holds along the run. -/
theorem foldl_iff_along {I R : S → Prop} (hs : I s) (hI : ∀ s l, I s → I (step s l))
    (hstep : ∀ s l, I s → (R (step s l) ↔ R s ∧ P s l)) :
    R (ls.foldl step s) ↔ R s ∧ Along step P s ls := by
  induction ls generalizing s with
  | nil => simp [Along]
  | cons l ls ih =>
    rw [List.foldl_cons, ih (hI s l hs), hstep s l hs, and_assoc]
    rfl

/-- What holds at the end of a run and not at its start came to hold at one of its steps. -/
theorem exists_split_of_foldl {R : S → Prop} (hs : ¬ R s) (h : R (ls.foldl step s)) :
    ∃ pre l post, ls = pre ++ l :: post ∧ ¬ R (pre.foldl step s) ∧
      R (step (pre.foldl step s) l) := by
  induction ls generalizing s with
  | nil => exact absurd h hs
  | cons l ls ih =>
    by_cases hl : R (step s l)
    · exact ⟨[], l, ls, rfl, hs, hl⟩
    · obtain ⟨pre, l', post, rfl, hpre, hl'⟩ := ih hl h
      exact ⟨l :: pre, l', post, rfl, hpre, hl'⟩

/-- A part of the state that no step changes is the same at the end of a run. -/
theorem foldl_proj {A : Type*} (proj : S → A) (hproj : ∀ s l, proj (step s l) = proj s) :
    proj (ls.foldl step s) = proj s := by
  induction ls generalizing s with
  | nil => rfl
  | cons l ls ih => rw [List.foldl_cons, ih, hproj]

/-- The state at the end of a run when every step appends to a log what its label
contributes. -/
theorem foldl_log {A : Type*} {log : S → List A} {entry : L → List A}
    (hlog : ∀ s l, log (step s l) = log s ++ entry l) :
    log (ls.foldl step s) = log s ++ ls.flatMap entry := by
  induction ls generalizing s with
  | nil => simp
  | cons l ls ih => simp [ih, hlog]

/-- The labels of a run that are taken in a state which lets them pass. -/
def passing (step : S → L → S) (pass : S → L → Bool) : S → List L → List L
  | _, [] => []
  | s, l :: ls => if pass s l then l :: passing step pass (step s l) ls
    else passing step pass (step s l) ls

/-- Where every label passes, all of them do. -/
@[simp] theorem passing_true : passing step (fun _ _ => true) s ls = ls := by
  induction ls generalizing s with
  | nil => rfl
  | cons l ls ih => rw [passing, if_pos rfl, ih]

/-- A count that is advanced by one by some labels, where they pass, is advanced by their
number. -/
theorem foldl_count_passing {count : S → ℕ} {pass : S → L → Bool} {p : L → Bool}
    (hcount : ∀ s l, count (step s l) = count s + (pass s l && p l).toNat) :
    count (ls.foldl step s) = count s + (passing step pass s ls).countP p := by
  induction ls generalizing s with
  | nil => rfl
  | cons l ls ih =>
    rw [List.foldl_cons, ih, hcount, passing]
    cases pass s l with
    | false => rfl
    | true =>
      rw [if_pos rfl, List.countP_cons, Bool.true_and]
      cases p l with
      | false => rfl
      | true =>
        rw [if_pos rfl, Bool.toNat_true]
        omega

/-- A count that some labels advance by one is advanced by their number. -/
theorem foldl_count {count : S → ℕ} {p : L → Bool}
    (hcount : ∀ s l, count (step s l) = count s + (p l).toNat) :
    count (ls.foldl step s) = count s + ls.countP p := by
  have hrun := @foldl_count_passing _ _ _ s ls count (fun _ _ => true) p fun s l => by
    rw [hcount, Bool.true_and]
  rwa [passing_true] at hrun

section Stopping

variable {A : Type*} {log : S → List A} {stopped : S → Bool} {pass : S → L → Bool}
  {entry : L → Option A} {stops : L → Bool}

/-- A log that has been stopped stays as it is. -/
theorem foldl_log_of_stopped
    (hlog : ∀ s l, log (step s l) =
      log s ++ if !stopped s && pass s l then (entry l).toList else [])
    (hstopped : ∀ s l, stopped (step s l) = (stopped s || (pass s l && stops l)))
    (hs : stopped s = true) : log (ls.foldl step s) = log s := by
  induction ls generalizing s with
  | nil => rfl
  | cons l ls ih =>
    have hstays : stopped (step s l) = true := by rw [hstopped, hs, Bool.true_or]
    rw [List.foldl_cons, ih hstays, hlog, hs]
    exact List.append_nil _

/-- A log that is kept until it is stopped holds what the labels that passed brought before the
first of them that stops it. -/
theorem foldl_log_until
    (hlog : ∀ s l, log (step s l) =
      log s ++ if !stopped s && pass s l then (entry l).toList else [])
    (hstopped : ∀ s l, stopped (step s l) = (stopped s || (pass s l && stops l)))
    (hstops : ∀ l, stops l = true → entry l = none) (hs : stopped s = false) :
    log (ls.foldl step s) = log s ++
      ((passing step pass s ls).takeWhile fun l => !stops l).filterMap entry := by
  induction ls generalizing s with
  | nil => exact (List.append_nil _).symm
  | cons l ls ih =>
    have hstep := hlog s l
    have hafter := hstopped s l
    rw [hs, Bool.not_false, Bool.true_and] at hstep
    rw [hs, Bool.false_or] at hafter
    rw [List.foldl_cons, passing]
    cases hpass : pass s l with
    | false =>
      rw [hpass, Bool.false_and] at hafter
      rw [hpass, if_neg Bool.false_ne_true, List.append_nil] at hstep
      rw [ih hafter, hstep, if_neg Bool.false_ne_true]
    | true =>
      rw [hpass, Bool.true_and] at hafter
      rw [hpass, if_pos rfl] at hstep
      rw [if_pos rfl]
      cases hl : stops l with
      | true =>
        rw [foldl_log_of_stopped hlog hstopped (hafter.trans hl), hstep, hstops l hl]
        simp [hl]
      | false =>
        rw [ih (hafter.trans hl), hstep, List.append_assoc]
        cases hentry : entry l <;> simp [hl, hentry]

end Stopping

/-- A step that keeps a log next to the state: it appends what the step puts out. -/
def logged {A : Type*} (step : S → L → S) (out : S → L → List A) (x : S × List A) (l : L) :
    S × List A :=
  (step x.1 l, x.2 ++ out x.1 l)

/-- Keeping a log does not change the run. -/
@[simp] theorem foldl_logged_fst {A : Type*} {out : S → L → List A} {x : S × List A} :
    (ls.foldl (logged step out) x).1 = ls.foldl step x.1 := by
  induction ls generalizing x with
  | nil => rfl
  | cons l ls ih => rw [List.foldl_cons, ih, List.foldl_cons, logged]

/-- What holds along a run holds along the run that keeps a log. -/
theorem Along.logged {A : Type*} {out : S → L → List A} {x : S × List A}
    (h : Along step P x.1 ls) : Along (Lib.logged step out) (fun x l => P x.1 l) x ls := by
  induction ls generalizing x with
  | nil => trivial
  | cons l ls ih => exact ⟨h.1, ih h.2⟩

/-- What is put out stays in the log. -/
theorem along_logged_of_forall {A : Type*} {out : S → L → List A} {x : S × List A}
    {R : A → Prop} (h : ∀ a ∈ (ls.foldl (Lib.logged step out) x).2, R a) :
    (∀ a ∈ x.2, R a) ∧ Along (Lib.logged step out) (fun x l => ∀ a ∈ out x.1 l, R a) x ls := by
  induction ls generalizing x with
  | nil => exact ⟨h, trivial⟩
  | cons l ls ih =>
    obtain ⟨hnext, hrest⟩ := ih h
    exact ⟨fun a ha => hnext a (List.mem_append_left _ ha),
      fun a ha => hnext a (List.mem_append_right _ ha), hrest⟩

/-- If the keys of a run are pairwise distinct, every step brings a key that the log
of the earlier keys does not hold. -/
theorem along_fresh_of_nodup {log : S → List K} {key : L → Option K}
    (hlog : ∀ s l, log (step s l) = log s ++ (key l).toList)
    (hnodup : (log s ++ ls.filterMap key).Nodup) :
    Along step (fun s l => ∀ k, key l = some k → k ∉ log s) s ls := by
  induction ls generalizing s with
  | nil => trivial
  | cons l ls ih =>
    have heq : log s ++ (l :: ls).filterMap key = log (step s l) ++ ls.filterMap key := by
      rw [hlog]
      cases hkey : key l <;> simp [hkey]
    refine ⟨fun k hk hmem => ?_, ih (heq ▸ hnodup)⟩
    have hdisjoint := (List.nodup_append.mp hnodup).2.2 k hmem k
    exact hdisjoint (by simp [hk]) rfl

end Lib
