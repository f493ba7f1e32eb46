import Mathlib.Data.List.TakeWhile
import Mathlib.Data.UInt
import Mathlib.Tactic.IntervalCases
import Mathlib.Tactic.NormNum

/-!
# Searching texts

A search for a pattern yields the position of its first occurrence. What stands after
that occurrence can also be described by the text alone, as a way to write the text in
which the part before the pattern is as short as possible. Likewise the longest initial
part whose letters satisfy a test is described by what follows it. A search passes over
every part of a text into which the pattern does not reach. Numbers stand in a text by
their decimal digits, which are read back as the same number.
-/

namespace Lib

section Search

variable {α : Type*} [DecidableEq α] {pat text rest : List α} {i : ℕ}

/-- The position at which a pattern first occurs. -/
def find (pat : List α) : List α → Option ℕ
  | [] => if pat.isPrefixOf [] then some 0 else none
  | a :: text => if pat.isPrefixOf (a :: text) then some 0 else (find pat text).map (· + 1)

/-- What a search finds is an occurrence with none before it. -/
theorem find_eq_some_iff :
    find pat text = some i ↔ pat <+: text.drop i ∧ ∀ j < i, ¬ pat <+: text.drop j := by
  induction text generalizing i with
  | nil =>
    simp only [find, List.isPrefixOf_iff_prefix, List.drop_nil]
    constructor
    · intro h
      split at h
      · obtain rfl := Option.some.inj h
        exact ⟨‹_›, fun j hj => absurd hj (Nat.not_lt_zero j)⟩
      · cases h
    · rintro ⟨hpat, hnone⟩
      have hi : ¬ 0 < i := fun hpos => hnone 0 hpos hpat
      rw [if_pos hpat, Nat.eq_zero_of_not_pos hi]
  | cons a text ih =>
    simp only [find, List.isPrefixOf_iff_prefix]
    by_cases hpat : pat <+: a :: text
    · rw [if_pos hpat]
      constructor
      · intro h
        obtain rfl := Option.some.inj h
        exact ⟨hpat, fun j hj => absurd hj (Nat.not_lt_zero j)⟩
      · rintro ⟨-, hnone⟩
        have hi : ¬ 0 < i := fun hpos => hnone 0 hpos hpat
        rw [Nat.eq_zero_of_not_pos hi]
    · rw [if_neg hpat]
      cases i with
      | zero =>
        simp only [Option.map_eq_some_iff, Nat.add_one_ne_zero, and_false, exists_false,
          List.drop_zero, false_iff, not_and]
        exact fun h => absurd h hpat
      | succ i =>
        simp only [Option.map_eq_some_iff, Nat.add_right_cancel_iff, exists_eq_right, ih,
          List.drop_succ_cons]
        refine and_congr_right fun _ => ⟨fun h j hj => ?_, fun h j hj => ?_⟩
        · cases j with
          | zero => exact hpat
          | succ j => exact h j (Nat.lt_of_succ_lt_succ hj)
        · exact h (j + 1) (Nat.succ_lt_succ hj)

/-- A search fails when the pattern occurs nowhere. -/
theorem find_eq_none_iff : find pat text = none ↔ ¬ pat <:+: text := by
  induction text with
  | nil => simp [find, List.prefix_nil, List.infix_nil]
  | cons a text ih =>
    simp only [find, List.isPrefixOf_iff_prefix, List.infix_cons_iff, not_or]
    by_cases hpat : pat <+: a :: text
    · simp [hpat]
    · simp [hpat, ih]

/-- The text ends with `rest` right after the first occurrence of the pattern. -/
def FollowsFirst (pat text rest : List α) : Prop :=
  ∃ before, text = before ++ pat ++ rest ∧
    ∀ earlier after, text = earlier ++ pat ++ after → before.length ≤ earlier.length

/-- What follows the first occurrence is what is behind the place where it is found. -/
theorem followsFirst_iff :
    FollowsFirst pat text rest ↔
      ∃ i, find pat text = some i ∧ text.drop (i + pat.length) = rest := by
  constructor
  · rintro ⟨before, rfl, hfirst⟩
    refine ⟨before.length, find_eq_some_iff.mpr ⟨?_, fun j hj hpat => ?_⟩, ?_⟩
    · simp
    · obtain ⟨after, hafter⟩ := hpat
      have hle := hfirst ((before ++ pat ++ rest).take j) after (by
        rw [List.append_assoc _ pat after, hafter, List.take_append_drop])
      rw [List.length_take] at hle
      omega
    · rw [← List.length_append, List.drop_left]
  · rintro ⟨i, hfind, rfl⟩
    obtain ⟨⟨after, hafter⟩, hnone⟩ := find_eq_some_iff.mp hfind
    have hrest : text.drop (i + pat.length) = after := by
      rw [← List.drop_drop, ← hafter, List.drop_left]
    refine ⟨text.take i, ?_, fun earlier after' htext => ?_⟩
    · rw [hrest, List.append_assoc, hafter, List.take_append_drop]
    · have hle : ¬ earlier.length < i := by
        intro hlt
        refine hnone _ hlt ?_
        rw [htext, List.append_assoc, List.drop_left]
        exact List.prefix_append _ _
      rw [List.length_take]
      omega

end Search

section Skip

variable {α : Type*} {pat text skipped skipped' : List α}

/-- In the text `skipped ++ text`, no occurrence of the pattern begins in the first part. -/
def Skips (pat skipped text : List α) : Prop :=
  match skipped with
  | [] => True
  | a :: skipped => ¬ pat <+: a :: (skipped ++ text) ∧ Skips pat skipped text

/-- Skipping in two parts. -/
theorem skips_append :
    Skips pat (skipped ++ skipped') text ↔
      Skips pat skipped (skipped' ++ text) ∧ Skips pat skipped' text := by
  induction skipped with
  | nil => simp [Skips]
  | cons a skipped ih =>
    rw [List.cons_append, Skips, Skips, ih, List.append_assoc, and_assoc]

/-- A part without the first letter of the pattern is skipped. -/
theorem skips_of_notMem {a : α} (h : a ∉ skipped) : Skips (a :: pat) skipped text := by
  induction skipped with
  | nil => trivial
  | cons b skipped ih =>
    rw [List.mem_cons, not_or] at h
    refine ⟨fun hpat => h.1 ?_, ih h.2⟩
    exact (List.cons_prefix_cons.mp hpat).1

/-- The search goes on behind a part that is skipped. -/
theorem find_append_of_skips [DecidableEq α] (h : Skips pat skipped text) :
    find pat (skipped ++ text) = (find pat text).map (skipped.length + ·) := by
  induction skipped with
  | nil => simp
  | cons a skipped ih =>
    obtain ⟨hpat, hrest⟩ := h
    rw [List.cons_append, find, if_neg (by simpa using hpat), ih hrest, Option.map_map]
    congr 1
    funext i
    simp only [Function.comp_apply, List.length_cons]
    omega

/-- Two texts up to a letter that occurs in neither of them. -/
theorem append_cons_prefix_iff {a : α} {x y u w : List α} (hx : a ∉ x) (hy : a ∉ y) :
    x ++ a :: u <+: y ++ a :: w ↔ x = y ∧ u <+: w := by
  induction x generalizing y with
  | nil =>
    cases y with
    | nil => simp
    | cons b y =>
      have hb : a ≠ b := fun heq => hy (heq ▸ List.mem_cons_self)
      simp [hb]
  | cons b x ih =>
    cases y with
    | nil =>
      have hb : b ≠ a := fun heq => hx (heq ▸ List.mem_cons_self)
      simp [hb]
    | cons c y =>
      simp only [List.mem_cons, not_or] at hx hy
      rw [List.cons_append, List.cons_append, List.cons_prefix_cons, ih hx.2 hy.2, List.cons.injEq,
        and_assoc]

/-- A part is found in the joined text. -/
theorem infix_intercalate {sep part : List α} {parts : List (List α)} (h : part ∈ parts) :
    part <:+: sep.intercalate parts := by
  induction parts with
  | nil => cases h
  | cons first parts ih =>
    cases parts with
    | nil =>
      obtain rfl := List.mem_singleton.mp h
      simp [List.intercalate]
    | cons second parts =>
      rw [List.intercalate_cons_cons]
      obtain rfl | hrest := List.mem_cons.mp h
      · exact (List.prefix_append _ _).isInfix.trans (List.prefix_append _ _).isInfix
      · exact (ih hrest).trans (List.suffix_append _ _).isInfix

end Skip

section Span

variable {α : Type*} {p : α → Bool} {l v r : List α}

/-- A text splits in one way into letters that satisfy a test and a rest that does not
begin with such a letter. -/
theorem takeWhile_dropWhile_iff :
    l.takeWhile p = v ∧ l.dropWhile p = r ↔
      l = v ++ r ∧ (∀ a ∈ v, p a) ∧ ∀ a ∈ r.head?, ¬ p a := by
  constructor
  · rintro ⟨rfl, rfl⟩
    refine ⟨List.takeWhile_append_dropWhile.symm, fun a ha => List.mem_takeWhile_imp ha, ?_⟩
    intro a ha
    have hnot := List.head?_dropWhile_not p l
    rw [Option.mem_def.mp ha] at hnot
    simp [hnot]
  · rintro ⟨rfl, hv, hr⟩
    rw [List.takeWhile_append_of_pos hv, List.dropWhile_append_of_pos hv]
    cases r with
    | nil => simp
    | cons a r =>
      have ha : ¬ p a := hr a rfl
      simp [ha]

/-- What stands before the first letter that satisfies a test. -/
theorem take_findIdx_iff :
    l.take (l.findIdx p) = v ↔ ∃ r, l = v ++ r ∧ (∀ a ∈ v, ¬ p a) ∧ ∀ a ∈ r.head?, p a := by
  have hspan : l.take (l.findIdx p) = l.takeWhile fun a => !p a := by
    rw [List.takeWhile_eq_take_findIdx_not]
    simp
  rw [hspan]
  constructor
  · intro hv
    obtain ⟨hl, hin, hout⟩ := takeWhile_dropWhile_iff.mp ⟨hv, rfl⟩
    exact ⟨_, hl, by simpa using hin, by simpa using hout⟩
  · rintro ⟨r, hl, hin, hout⟩
    exact (takeWhile_dropWhile_iff.mpr ⟨hl, by simpa using hin, by simpa using hout⟩).1

/-- As before, for a search that may fail. -/
theorem findIdx?_take_iff :
    (∃ i, l.findIdx? p = some i ∧ l.take i = v) ↔
      ∃ a r, l = v ++ a :: r ∧ p a ∧ ∀ b ∈ v, ¬ p b := by
  simp only [List.findIdx?_eq_some_iff_findIdx_eq]
  constructor
  · rintro ⟨i, ⟨hlt, rfl⟩, htake⟩
    obtain ⟨r, hl, hin, hout⟩ := take_findIdx_iff.mp htake
    cases r with
    | nil =>
      have hlen := congrArg List.length htake
      rw [List.length_take, hl] at hlen
      simp only [List.append_nil] at hlen hl
      rw [hl] at hlt
      omega
    | cons a r => exact ⟨a, r, hl, hout a rfl, hin⟩
  · rintro ⟨a, r, hl, ha, hin⟩
    have htake : l.take (l.findIdx p) = v := by
      refine take_findIdx_iff.mpr ⟨a :: r, hl, hin, ?_⟩
      simpa using ha
    have hlen := congrArg List.length htake
    have hlt : v.length < l.length := by simp [hl]
    rw [List.length_take] at hlen
    exact ⟨l.findIdx p, ⟨by omega, rfl⟩, htake⟩

end Span

section Decimal

/-- An ASCII digit. -/
def isDigit (b : UInt8) : Bool := decide (0x30 ≤ b.toNat ∧ b.toNat ≤ 0x39)

/-- The number that a row of digits writes. -/
def decimal (digits : List UInt8) : ℕ :=
  digits.foldl (fun n b => 10 * n + (b.toNat - 0x30)) 0

/-- The digits of a number. -/
def decimalText (n : ℕ) : List UInt8 := (Nat.toDigits 10 n).map fun c => UInt8.ofNat c.toNat

variable {n : ℕ}

/-- The last digit stands at the end. -/
theorem decimalText_eq :
    decimalText n =
      (if n < 10 then [] else decimalText (n / 10)) ++ [UInt8.ofNat (0x30 + n % 10)] := by
  have hdigit (d : ℕ) (hd : d < 10) :
      UInt8.ofNat (Nat.digitChar d).toNat = UInt8.ofNat (0x30 + d) := by
    interval_cases d <;> rfl
  unfold decimalText
  rw [Nat.toDigits_eq_if (by norm_num)]
  split
  · have hmod : n % 10 = n := by omega
    simp [hdigit n ‹_›, hmod]
  · simp [hdigit (n % 10) (by omega)]

/-- The code of a digit. -/
theorem toNat_digit (hn : n < 10) : (UInt8.ofNat (0x30 + n)).toNat = 0x30 + n :=
  UInt8.toNat_ofNat_of_lt' (by norm_num [UInt8.size]; omega)

/-- The digits of a number write it. -/
theorem decimal_decimalText : decimal (decimalText n) = n := by
  induction n using Nat.strong_induction_on with
  | _ n ih =>
    have hlast := @toNat_digit (n % 10) (by omega)
    rw [decimalText_eq, decimal, List.foldl_append]
    split
    · simp only [List.foldl_nil, List.foldl_cons, hlast]
      omega
    · have hinit := ih (n / 10) (by omega)
      rw [decimal] at hinit
      simp only [List.foldl_nil, List.foldl_cons, hinit, hlast]
      omega

/-- They are digits. -/
theorem isDigit_decimalText : (decimalText n).all isDigit := by
  induction n using Nat.strong_induction_on with
  | _ n ih =>
    have hlast : isDigit (UInt8.ofNat (0x30 + n % 10)) := by
      rw [isDigit, toNat_digit (by omega)]
      exact decide_eq_true (by omega)
    rw [decimalText_eq, List.all_append]
    split
    · simp only [List.all_nil, List.all_cons, hlast, Bool.and_self]
    · simp only [List.all_nil, List.all_cons, hlast, ih (n / 10) (by omega), Bool.and_self]

/-- There is at least one, and the first is zero only for the number zero. -/
theorem decimalText_head :
    decimalText n ≠ [] ∧ ((decimalText n).head? = some 0x30 → decimalText n = [0x30]) := by
  induction n using Nat.strong_induction_on with
  | _ n ih =>
    rw [decimalText_eq]
    refine ⟨by simp, ?_⟩
    split
    · intro hhead
      simpa using hhead
    · obtain ⟨hne, hzero⟩ := ih (n / 10) (by omega)
      intro hhead
      rw [List.head?_append_of_ne_nil _ hne] at hhead
      have hval := @decimal_decimalText (n / 10)
      rw [hzero hhead] at hval
      change 0 = n / 10 at hval
      omega

end Decimal

end Lib
