import Mathlib.Data.List.Count

/-!
# Interleavings

Labels carry a key, as events carry the name of the party that reports them. Two lists
of labels interleave the same sequences if for every key they hold the same labels in
the same order. A run sees such lists alike through every view of the state that only
the labels with one key can change, and that these change in a way that depends on
nothing else.
-/

namespace Lib

variable {S L K V : Type*} [DecidableEq K] {key : L → K} {k : K} {ls ls' : List L}

/-- The labels with one key, in their order. -/
def labelsOf (key : L → K) (k : K) (ls : List L) : List L := ls.filter fun l => key l = k

/-- Two lists interleave the same sequences of labels, one for each key. -/
def Interleave (key : L → K) (ls ls' : List L) : Prop :=
  ∀ k, labelsOf key k ls = labelsOf key k ls'

/-- Only the keys that occur matter. -/
theorem interleave_iff :
    Interleave key ls ls' ↔ ∀ k ∈ (ls ++ ls').map key, labelsOf key k ls = labelsOf key k ls' := by
  refine ⟨fun hsame k _ => hsame k, fun hsame k => ?_⟩
  by_cases hk : k ∈ (ls ++ ls').map key
  · exact hsame k hk
  · have hnone {l : L} (hl : l ∈ ls ++ ls') : ¬key l = k := fun heq =>
      hk (List.mem_map.mpr ⟨l, hl, heq⟩)
    have hnil : labelsOf key k ls = [] := by
      simpa [labelsOf] using fun l hl => hnone (List.mem_append_left ls' hl)
    have hnil' : labelsOf key k ls' = [] := by
      simpa [labelsOf] using fun l hl => hnone (List.mem_append_right ls hl)
    rw [hnil, hnil']

/-- Whether two lists interleave the same sequences can be decided. -/
instance [DecidableEq L] : Decidable (Interleave key ls ls') :=
  decidable_of_iff _ interleave_iff.symm

/-- Interleavings hold the same labels, each as often as the other. -/
theorem Interleave.perm (hsame : Interleave key ls ls') : ls.Perm ls' := by
  classical
  rw [List.perm_iff_count]
  intro l
  have hcount (ls : List L) : (labelsOf key (key l) ls).count l = ls.count l :=
    List.count_filter (by simp)
  rw [← hcount ls, hsame (key l), hcount ls']

section View

variable {step : S → L → S} {I : S → Prop} {view : S → V} {s s' : S}

/-- A view that only the labels with one key can change: a run may skip all others. -/
theorem view_foldl_labelsOf (hI : ∀ s l, I s → I (step s l))
    (hother : ∀ l ∈ ls, ∀ s, I s → key l ≠ k → view (step s l) = view s)
    (hown : ∀ l ∈ ls, ∀ s s', key l = k → view s = view s' → view (step s l) = view (step s' l))
    (hs : I s) (hview : view s = view s') :
    view (ls.foldl step s) = view ((labelsOf key k ls).foldl step s') := by
  induction ls generalizing s s' with
  | nil => exact hview
  | cons l ls ih =>
    have hother' := fun l' hl' => hother l' (List.mem_cons_of_mem l hl')
    have hown' := fun l' hl' => hown l' (List.mem_cons_of_mem l hl')
    rw [List.foldl_cons, labelsOf]
    by_cases hkey : key l = k
    · rw [List.filter_cons_of_pos (by simpa using hkey), List.foldl_cons]
      exact ih hother' hown' (hI s l hs) (hown l List.mem_cons_self s s' hkey hview)
    · rw [List.filter_cons_of_neg (by simpa using hkey)]
      exact ih hother' hown' (hI s l hs)
        ((hother l List.mem_cons_self s hs hkey).trans hview)

/-- The rule for interleavings: they lead to the same view. -/
theorem Interleave.view_eq (hsame : Interleave key ls ls') (hI : ∀ s l, I s → I (step s l))
    (hother : ∀ l ∈ ls, ∀ s, I s → key l ≠ k → view (step s l) = view s)
    (hown : ∀ l ∈ ls, ∀ s s', key l = k → view s = view s' → view (step s l) = view (step s' l))
    (hs : I s) : view (ls.foldl step s) = view (ls'.foldl step s) := by
  have hmem {l : L} (hl : l ∈ ls') : l ∈ ls := hsame.perm.mem_iff.mpr hl
  rw [view_foldl_labelsOf hI hother hown hs rfl, hsame k]
  exact (view_foldl_labelsOf hI (fun l hl => hother l (hmem hl)) (fun l hl => hown l (hmem hl)) hs
    rfl).symm

end View

end Lib
