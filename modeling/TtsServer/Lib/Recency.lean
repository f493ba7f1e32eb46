import Mathlib.Data.List.Pairwise
import Mathlib.Logic.Function.Basic

/-!
# Recency lists

A recency list names keys from the most to the least recently used one, and a key is
moved to the front whenever it is used. Read with stamps, one for each key, such a list
is ordered by decreasing stamp; using a key gives it a stamp above all others. A search
from the back then finds the key whose stamp is the oldest.
-/

namespace Lib

variable {K V : Type*} {stamp stamp' : K → ℕ} {l : List K} {k : K} {p : K → Bool}
  {f : K → Option V} {v : V}

/-- The list names its keys by decreasing stamp. -/
def ByRecency (stamp : K → ℕ) (l : List K) : Prop := l.Pairwise fun a b => stamp b < stamp a

/-- No key is named twice. -/
theorem ByRecency.nodup (h : ByRecency stamp l) : l.Nodup :=
  h.imp fun hlt heq => by simp [heq] at hlt

/-- Dropping keys keeps the order. -/
theorem ByRecency.filter (h : ByRecency stamp l) : ByRecency stamp (l.filter p) :=
  List.Pairwise.filter p h

/-- Only the stamps of the keys in the list matter. -/
theorem ByRecency.congr (h : ByRecency stamp l) (hsame : ∀ a ∈ l, stamp' a = stamp a) :
    ByRecency stamp' l := by
  refine List.Pairwise.imp_of_mem (fun {a b} ha hb hlt => ?_) h
  rwa [hsame a ha, hsame b hb]

/-- A key that is new to the list goes to its front with a stamp above all others. -/
theorem ByRecency.cons_update [DecidableEq K] {n : ℕ} (h : ByRecency stamp l) (hk : k ∉ l)
    (hbelow : ∀ a ∈ l, stamp a < n) : ByRecency (Function.update stamp k n) (k :: l) := by
  have hsame : ∀ a ∈ l, Function.update stamp k n a = stamp a := by
    intro a ha
    refine Function.update_of_ne ?_ n stamp
    rintro rfl
    exact hk ha
  refine List.pairwise_cons.mpr ⟨fun a ha => ?_, h.congr hsame⟩
  rw [hsame a ha, Function.update_self]
  exact hbelow a ha

/-- In a list ordered by increasing stamp, the first result comes from the oldest key that
has one. -/
private theorem findSome?_eq_some_iff_oldest (h : l.Pairwise fun a b => stamp a < stamp b) :
    l.findSome? f = some v ↔
      ∃ k ∈ l, f k = some v ∧ ∀ k' ∈ l, (f k').isSome = true → stamp k ≤ stamp k' := by
  induction l with
  | nil => simp
  | cons a l ih =>
    obtain ⟨hyounger, htail⟩ := List.pairwise_cons.mp h
    rw [List.findSome?_cons]
    cases ha : f a with
    | some w =>
      constructor
      · intro heq
        refine ⟨a, List.mem_cons_self, ha.trans heq, fun k' hk' _ => ?_⟩
        rcases List.mem_cons.mp hk' with rfl | hk'
        · exact Nat.le_refl _
        · exact Nat.le_of_lt (hyounger k' hk')
      · rintro ⟨k, hk, hv, holdest⟩
        rcases List.mem_cons.mp hk with rfl | hk
        · rw [← ha, hv]
        · have hle := holdest a List.mem_cons_self (by simp [ha])
          exact absurd (hyounger k hk) (Nat.not_lt.mpr hle)
    | none =>
      refine (ih htail).trans ⟨?_, ?_⟩
      · rintro ⟨k, hk, hv, holdest⟩
        refine ⟨k, List.mem_cons_of_mem a hk, hv, fun k' hk' hsome => ?_⟩
        rcases List.mem_cons.mp hk' with rfl | hk'
        · simp [ha] at hsome
        · exact holdest k' hk' hsome
      · rintro ⟨k, hk, hv, holdest⟩
        rcases List.mem_cons.mp hk with rfl | hk
        · simp [ha] at hv
        · exact ⟨k, hk, hv, fun k' hk' => holdest k' (List.mem_cons_of_mem a hk')⟩

/-- The first result from the back of a recency list comes from the key with the oldest stamp
among those that have one. -/
theorem ByRecency.findSome?_reverse (h : ByRecency stamp l) :
    l.reverse.findSome? f = some v ↔
      ∃ k ∈ l, f k = some v ∧ ∀ k' ∈ l, (f k').isSome = true → stamp k ≤ stamp k' := by
  simpa using @findSome?_eq_some_iff_oldest _ _ stamp l.reverse f v (List.pairwise_reverse.mpr h)

/-- A selection from the back of a recency list names its keys by increasing stamp. -/
theorem ByRecency.pairwise_reverse_filter (h : ByRecency stamp l) :
    (l.reverse.filter p).Pairwise fun a b => stamp a < stamp b :=
  List.Pairwise.filter p (List.pairwise_reverse.mpr h)

end Lib
