import Mathlib.Data.List.AList
import Mathlib.Data.List.Perm.Subperm

/-!
# Finite tables

A table is an association list without repeated keys. On top of Mathlib's
operations this file provides the in-place update of one record, the list of
keys whose record passes a test, the restriction to such keys, the map over all
records, and a bound on the number of keys. Results about records are stated
through `lookup`, so that users of a table need not look at the order of its entries.
-/

namespace Lib

variable {K V : Type*}

/-- A finite map from `K` to `V` whose entries can be enumerated. -/
abbrev Table (K V : Type*) := AList (fun _ : K => V)

namespace Table

section Keys

variable (m : Table K V)

/-- The keys whose entry passes the test, in the order of the table. -/
def collect (p : K → V → Bool) : List K :=
  (m.entries.filter fun e => p e.1 e.2).map Sigma.fst

/-- Collecting keys never lists a key twice. -/
theorem nodup_collect (p : K → V → Bool) : (m.collect p).Nodup := by
  have hsub : (m.collect p).Sublist m.keys := List.filter_sublist.map Sigma.fst
  exact hsub.nodup m.keys_nodup

/-- Collecting by a test of the keys alone. -/
theorem collect_key (p : K → Bool) : (m.collect fun k _ => p k) = m.keys.filter p := by
  simp only [collect, AList.keys, List.keys, List.filter_map]
  rfl

/-- Distinct keys outside a table that all lie, together with its keys, in one list
leave room for them in that list. -/
theorem length_keys_add_le {m : Table K V} {others bound : List K} (hothers : others.Nodup)
    (hdisjoint : ∀ k ∈ others, k ∉ m) (hkeys : ∀ k ∈ m, k ∈ bound)
    (hsub : ∀ k ∈ others, k ∈ bound) :
    m.keys.length + others.length ≤ bound.length := by
  have hnodup : (m.keys ++ others).Nodup := by
    refine List.nodup_append.mpr ⟨m.keys_nodup, hothers, ?_⟩
    rintro a ha b hb rfl
    exact hdisjoint a hb (AList.mem_keys.mpr ha)
  have hsubset : m.keys ++ others ⊆ bound := by
    intro a ha
    rcases List.mem_append.mp ha with ha | ha
    · exact hkeys a (AList.mem_keys.mpr ha)
    · exact hsub a ha
  simpa using (List.subperm_of_subset hnodup hsubset).length_le

/-- The table of the entries that pass a test, in the order of the table. -/
def keep (p : K → V → Bool) : Table K V :=
  ⟨m.entries.filter fun e => p e.1 e.2,
    (List.filter_sublist.map Sigma.fst).nodup m.nodupKeys⟩

/-- Restrictions compose. -/
theorem keep_keep (p q : K → V → Bool) : (m.keep p).keep q = m.keep fun k v => p k v && q k v := by
  apply AList.ext
  simp only [keep, List.filter_filter, Bool.and_comm]

/-- The keys collected from a restriction. -/
theorem collect_keep (p q : K → V → Bool) :
    (m.keep p).collect q = m.collect fun k v => p k v && q k v := by
  simp only [collect, keep, List.filter_filter, Bool.and_comm]

/-- The table with every record mapped. -/
def mapValues {W : Type*} (f : V → W) : Table K W :=
  ⟨m.entries.map fun e => ⟨e.1, f e.2⟩, by
    have hkeys : (m.entries.map fun e => (⟨e.1, f e.2⟩ : Sigma fun _ : K => W)).keys = m.keys := by
      simp [List.keys, AList.keys, Function.comp_def]
    rw [List.NodupKeys, hkeys]
    exact m.keys_nodup⟩

/-- Mapping the records keeps the keys. -/
@[simp] theorem keys_mapValues {W : Type*} {f : V → W} : (m.mapValues f).keys = m.keys := by
  simp [mapValues, AList.keys, List.keys, Function.comp_def]

/-- The keys collected from a mapped table. -/
theorem collect_mapValues {W : Type*} {f : V → W} {p : K → W → Bool} :
    (m.mapValues f).collect p = m.collect fun k v => p k (f v) := by
  simp [mapValues, collect, List.filter_map, Function.comp_def]

end Keys

variable [DecidableEq K] {m : Table K V} {k k' : K} {v : V}

/-- A key is collected exactly when its record passes the test. -/
@[simp] theorem mem_collect {p : K → V → Bool} :
    k ∈ m.collect p ↔ ∃ v, m.lookup k = some v ∧ p k v = true := by
  simp only [collect, List.mem_map, List.mem_filter]
  constructor
  · rintro ⟨⟨k, v⟩, ⟨hmem, hp⟩, rfl⟩
    exact ⟨v, AList.mem_lookup_iff.mpr hmem, hp⟩
  · rintro ⟨v, hv, hp⟩
    exact ⟨⟨k, v⟩, ⟨AList.mem_lookup_iff.mp hv, hp⟩, rfl⟩

/-- Nothing is collected exactly when no record passes the test. -/
theorem collect_eq_nil_iff {p : K → V → Bool} :
    m.collect p = [] ↔ ∀ k v, m.lookup k = some v → p k v = false := by
  rw [List.eq_nil_iff_forall_not_mem]
  constructor
  · intro hnone k v hv
    by_contra hp
    exact hnone k (mem_collect.mpr ⟨v, hv, by simpa using hp⟩)
  · intro hfails k hk
    obtain ⟨v, hv, hp⟩ := mem_collect.mp hk
    simp [hfails k v hv] at hp

/-- The record stored under a key after an insertion. -/
theorem lookup_insert_eq :
    (m.insert k v).lookup k' = if k' = k then some v else m.lookup k' := by
  by_cases h : k' = k
  · subst h
    simp
  · simp [h, AList.lookup_insert_ne h]

/-- The record stored under a key after an erasure. -/
theorem lookup_erase_eq : (m.erase k).lookup k' = if k' = k then none else m.lookup k' := by
  by_cases h : k' = k
  · subst h
    simp
  · simp [h, AList.lookup_erase_ne h]

/-- A key is present exactly when it has a record. -/
theorem mem_iff_lookup : k ∈ m ↔ ∃ v, m.lookup k = some v := by
  rw [← AList.lookup_isSome, Option.isSome_iff_exists]

/-- Replacing the record of a present key. -/
private theorem dlookup_kreplace {l : List (Sigma fun _ : K => V)} :
    (l.kreplace k v).dlookup k' =
      if k' = k then (l.dlookup k).map (fun _ => v) else l.dlookup k' := by
  induction l with
  | nil => simp [List.kreplace]
  | cons e l ih =>
    obtain ⟨a, b⟩ := e
    unfold List.kreplace at ih ⊢
    by_cases ha : k = a
    · subst ha
      by_cases hk : k' = k
      · subst hk
        simp [List.lookmap_cons_some]
      · rw [List.lookmap_cons_some (b := ⟨k, v⟩) _ _ (by simp), if_neg hk]
        rw [List.dlookup_cons_ne l ⟨k, v⟩ hk, List.dlookup_cons_ne l ⟨k, b⟩ hk]
    · rw [List.lookmap_cons_none _ _ (by simp [ha])]
      by_cases hk : k' = a
      · subst hk
        have hne : k' ≠ k := fun h => ha h.symm
        simp [hne]
      · rw [List.dlookup_cons_ne _ _ hk, ih, List.dlookup_cons_ne _ _ ha,
          List.dlookup_cons_ne _ _ hk]

/-- Update the record of one key in place; an absent key leaves the table unchanged. -/
def modify (m : Table K V) (k : K) (f : V → V) : Table K V :=
  match m.lookup k with
  | none => m
  | some v => m.replace k (f v)

/-- The records after an in-place update. -/
theorem lookup_modify {f : V → V} :
    (m.modify k f).lookup k' = if k' = k then (m.lookup k').map f else m.lookup k' := by
  unfold modify
  cases hk : m.lookup k with
  | none =>
    by_cases h : k' = k
    · subst h
      simp [hk]
    · simp [h]
  | some v =>
    have hreplace : (m.replace k (f v)).lookup k' =
        if k' = k then (m.lookup k).map (fun _ => f v) else m.lookup k' := dlookup_kreplace
    rw [hreplace, hk]
    by_cases h : k' = k
    · subst h
      simp [hk]
    · simp [h]

/-- An in-place update keeps the keys. -/
theorem keys_modify {f : V → V} : (m.modify k f).keys = m.keys := by
  unfold modify
  split
  · rfl
  · exact AList.keys_replace k _ m

/-! ### Restriction -/

variable {p q : K → V → Bool}

/-- The records of a restriction. -/
@[simp] theorem lookup_keep : (m.keep p).lookup k = (m.lookup k).filter (p k) := by
  ext v
  have hmem : v ∈ (m.keep p).lookup k ↔ Sigma.mk k v ∈ m.entries ∧ p k v = true :=
    AList.mem_lookup_iff.trans List.mem_filter
  rw [← Option.mem_def, hmem, Option.filter_eq_some_iff, ← AList.mem_lookup_iff, Option.mem_def]

/-- Restrictions by tests that agree on the records of the table are the same. -/
theorem keep_congr (h : ∀ k v, m.lookup k = some v → p k v = q k v) : m.keep p = m.keep q := by
  apply AList.ext
  exact List.filter_congr fun e he => h e.1 e.2 (AList.mem_lookup_iff.mpr he)

/-- Tests that agree on the records of the table collect the same keys. -/
theorem collect_congr (h : ∀ k v, m.lookup k = some v → p k v = q k v) :
    m.collect p = m.collect q :=
  congrArg (List.map Sigma.fst)
    (List.filter_congr fun e he => h e.1 e.2 (AList.mem_lookup_iff.mpr he))

/-- A test that every record passes keeps the table. -/
theorem keep_eq_self (h : ∀ k v, m.lookup k = some v → p k v = true) : m.keep p = m := by
  apply AList.ext
  exact List.filter_eq_self.mpr fun e he => h e.1 e.2 (AList.mem_lookup_iff.mpr he)

/-- An erasure is a restriction. -/
theorem erase_eq_keep : m.erase k = m.keep fun k' _ => decide (k' ≠ k) := by
  apply AList.ext
  have hentries : ∀ l : List (Sigma fun _ : K => V), l.NodupKeys →
      l.kerase k = l.filter fun e => decide (e.1 ≠ k) := by
    intro l hl
    induction l with
    | nil => rfl
    | cons e l ih =>
      obtain ⟨hnot, hl⟩ := List.nodupKeys_cons.mp hl
      by_cases he : e.1 = k
      · -- the key does not occur again
        have hrest : l.filter (fun e => decide (e.1 ≠ k)) = l := by
          refine List.filter_eq_self.mpr fun e' he' => ?_
          simp only [ne_eq, decide_not, Bool.not_eq_true', decide_eq_false_iff_not]
          rintro rfl
          exact hnot (he ▸ List.mem_keys_of_mem he')
        rw [List.kerase_cons_eq he.symm, List.filter_cons_of_neg (by simp [he]), hrest]
      · rw [List.kerase_cons_ne (Ne.symm he), List.filter_cons_of_pos (by simp [he]), ih hl]
  exact hentries m.entries m.nodupKeys

/-! ### Mapped records -/

variable {W : Type*} {f : V → W}

/-- The records of a mapped table. -/
@[simp] theorem lookup_mapValues : (m.mapValues f).lookup k = (m.lookup k).map f := by
  have hentries : ∀ l : List (Sigma fun _ : K => V),
      (l.map fun e => (⟨e.1, f e.2⟩ : Sigma fun _ : K => W)).dlookup k = (l.dlookup k).map f := by
    intro l
    induction l with
    | nil => rfl
    | cons e l ih =>
      obtain ⟨k', v⟩ := e
      by_cases hk : k = k'
      · subst hk
        simp
      · rw [List.map_cons, List.dlookup_cons_ne _ _ hk, List.dlookup_cons_ne _ _ hk, ih]
  exact hentries m.entries

/-- Mapping commutes with erasing. -/
theorem mapValues_erase : mapValues (m.erase k) f = (m.mapValues f).erase k := by
  apply AList.ext
  change (m.entries.kerase k).map _ = (m.entries.map _).kerase k
  simp [List.kerase, List.eraseP_map, Function.comp_def]

/-- Mapping commutes with inserting. -/
theorem mapValues_insert : mapValues (m.insert k v) f = (m.mapValues f).insert k (f v) := by
  apply AList.ext
  simp [mapValues, AList.insert, List.kinsert, List.kerase, List.eraseP_map, Function.comp_def]

/-- Mapping commutes with replacing a record. -/
private theorem map_kreplace {l : List (Sigma fun _ : K => V)} :
    ((l.kreplace k v).map fun e => (⟨e.1, f e.2⟩ : Sigma fun _ : K => W)) =
      (l.map fun e => (⟨e.1, f e.2⟩ : Sigma fun _ : K => W)).kreplace k (f v) := by
  induction l with
  | nil => rfl
  | cons e l ih =>
    obtain ⟨k', v'⟩ := e
    unfold List.kreplace at ih ⊢
    by_cases hk : k = k'
    · subst hk
      rw [List.map_cons, List.lookmap_cons_some (b := ⟨k, v⟩) _ _ (by simp),
        List.lookmap_cons_some (b := ⟨k, f v⟩) _ _ (by simp), List.map_cons]
    · rw [List.map_cons, List.lookmap_cons_none _ _ (by simp [hk]),
        List.lookmap_cons_none _ _ (by simp [hk]), List.map_cons, ih]

/-- Mapping commutes with an in-place update, if the mapped records are updated alike. -/
theorem mapValues_modify {g : V → V} {g' : W → W} (hg : ∀ v, f (g v) = g' (f v)) :
    (m.modify k g).mapValues f = (m.mapValues f).modify k g' := by
  unfold modify
  rw [lookup_mapValues]
  cases m.lookup k with
  | none => rfl
  | some v =>
    apply AList.ext
    refine map_kreplace.trans ?_
    rw [hg]
    rfl

end Table

end Lib
