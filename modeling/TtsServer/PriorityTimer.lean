import TtsServer.Messages
import TtsServer.Lib.Runs
import Mathlib.Data.List.Sort
import Mathlib.Data.List.Range
import Mathlib.Data.UInt

/-!
# The timer queue

`PriorityTimer` holds scheduled callbacks in a heap ordered by deadline and, for equal
deadlines, by a 64-bit sequence number. `pop_expired` takes out what is due; callbacks
that may be skipped are dropped when they are too late.

A callback is named here by the number of its `schedule_at` call. The order of the calls
and the order of the sequence numbers agree until the counter wraps, and this decides
whether callbacks with one deadline come out in the order in which they were scheduled.
-/

namespace TtsServer

/-- `TimerEntry`. The deadline is a time of the steady clock in nanoseconds; `fn` is the
callback, named by the number of its `schedule_at` call. -/
structure TimerEntry where
  deadline : Int
  skippable : Bool
  fn : ℕ
  seq : UInt64
  deriving DecidableEq, Repr

/-- `operator>` of timer entries. -/
def TimerEntry.gt (e o : TimerEntry) : Bool :=
  if e.deadline ≠ o.deadline then decide (e.deadline > o.deadline) else decide (e.seq > o.seq)

/-- `PriorityTimer`. The heap is the list of its entries in the order in which `top` and
`pop` give them out. -/
structure PriorityTimer where
  heap : List TimerEntry := []
  nextSeq : UInt64 := 0
  deriving DecidableEq, Repr

namespace PriorityTimer

/-- `schedule_at`: the new entry comes out before those that are greater. -/
def scheduleAt (timer : PriorityTimer) (tp : Int) (skippable : Bool) (fn : ℕ) :
    PriorityTimer :=
  { heap := timer.heap.orderedInsert (fun e o => o.gt e = true) ⟨tp, skippable, fn, timer.nextSeq⟩
    nextSeq := timer.nextSeq + 1 }

/-- The test of `pop_expired` for entries that it drops; the lag is truncated to seconds. -/
def tooLate (now : Int) (skipThreshold : Int) (e : TimerEntry) : Bool :=
  e.skippable && decide ((now - e.deadline).tdiv 1000000000 > skipThreshold)

/-- The loop of `pop_expired`, with the entries put out so far. -/
def popExpiredFrom (now : Int) (skipThreshold : Int) (out : List TimerEntry) :
    List TimerEntry → List TimerEntry × List TimerEntry
  | [] => (out, [])
  | e :: rest =>
    if e.deadline ≤ now then
      if tooLate now skipThreshold e then popExpiredFrom now skipThreshold out rest
      else popExpiredFrom now skipThreshold (out ++ [e]) rest
    else (out, e :: rest)

/-- `pop_expired`: the entries it returns and the timer it leaves. -/
def popExpired (timer : PriorityTimer) (now : Int) (skipThreshold : Int) :
    List TimerEntry × PriorityTimer :=
  let (out, heap) := popExpiredFrom now skipThreshold [] timer.heap
  (out, { timer with heap })

end PriorityTimer

/-! ### Runs of a timer -/

/-- The calls made to a timer. -/
inductive TimerCall where
  | scheduleAt (tp : Int) (skippable : Bool)
  | popExpired (now : Int) (skipThreshold : Int)
  deriving DecidableEq, Repr

/-- The deadline and the flag that a call hands to `schedule_at`. -/
def TimerCall.request : TimerCall → Option (Int × Bool)
  | .scheduleAt tp skippable => some (tp, skippable)
  | .popExpired _ _ => none

/-- The entries for some deadlines and flags, numbered in turn; the sequence number is the number
as a word. -/
def TimerEntry.numbered (requests : List (Int × Bool)) : List TimerEntry :=
  requests.zipIdx.map fun x => ⟨x.1.1, x.1.2, x.2, UInt64.ofNat x.2⟩

/-- The entries that the `schedule_at` calls among some calls ask for. -/
def TimerCall.entries (calls : List TimerCall) : List TimerEntry :=
  TimerEntry.numbered (calls.filterMap TimerCall.request)

/-- A timer with the entries that have been scheduled and those that have been returned. -/
structure TimerRun where
  timer : PriorityTimer := {}
  scheduled : List TimerEntry := []
  returned : List TimerEntry := []

namespace TimerRun

/-- One call. The callback of a `schedule_at` is named by the number of calls before it. -/
def step (r : TimerRun) : TimerCall → TimerRun
  | .scheduleAt tp skippable =>
    { r with
      timer := r.timer.scheduleAt tp skippable r.scheduled.length
      scheduled := r.scheduled ++ [⟨tp, skippable, r.scheduled.length, r.timer.nextSeq⟩] }
  | .popExpired now skipThreshold =>
    { r with
      timer := (r.timer.popExpired now skipThreshold).2
      returned := r.returned ++ (r.timer.popExpired now skipThreshold).1 }

/-- The calls in turn, on a new timer. -/
def run (calls : List TimerCall) : TimerRun := calls.foldl step {}

end TimerRun

/-! ### What the two operations do -/

/-- The entries of a list that come first in an order by a test are those that pass it. -/
theorem takeWhile_eq_filter {α : Type*} {p : α → Bool} {l : List α}
    (h : l.Pairwise fun a b => p b = true → p a = true) : l.takeWhile p = l.filter p := by
  induction l with
  | nil => rfl
  | cons a l ih =>
    obtain ⟨hhead, htail⟩ := List.pairwise_cons.mp h
    by_cases ha : p a = true
    · rw [List.takeWhile_cons_of_pos ha, List.filter_cons_of_pos ha, ih htail]
    · rw [List.takeWhile_cons_of_neg ha, List.filter_cons_of_neg ha]
      exact (List.filter_eq_nil_iff.mpr fun b hb hpb => ha (hhead b hb hpb)).symm

/-- What follows the entries that pass a test are those that fail it. -/
theorem dropWhile_eq_filter {α : Type*} {p : α → Bool} {l : List α}
    (h : l.Pairwise fun a b => p b = true → p a = true) : l.dropWhile p = l.filter (!p ·) := by
  induction l with
  | nil => rfl
  | cons a l ih =>
    obtain ⟨hhead, htail⟩ := List.pairwise_cons.mp h
    by_cases ha : p a = true
    · rw [List.dropWhile_cons_of_pos ha, ih htail, List.filter_cons_of_neg (by simp [ha])]
    · rw [List.dropWhile_cons_of_neg ha]
      refine (List.filter_eq_self.mpr fun b hb => ?_).symm
      rcases List.mem_cons.mp hb with rfl | hb
      · simpa using ha
      · simpa using fun hpb => ha (hhead b hb hpb)

/-- The order in which the heap gives its entries out: by deadline and sequence number. The
list puts entries with equal keys in the order of their calls. -/
def TimerEntry.Before (e o : TimerEntry) : Prop :=
  e.deadline < o.deadline ∨
    e.deadline = o.deadline ∧ (e.seq.toNat < o.seq.toNat ∨ e.seq = o.seq ∧ e.fn < o.fn)

/-- The order of deadlines and, for equal deadlines, of the calls. -/
def TimerEntry.DueBefore (e o : TimerEntry) : Prop :=
  e.deadline < o.deadline ∨ e.deadline = o.deadline ∧ e.fn < o.fn

/-- The comparison is by deadline and then by sequence number. -/
theorem TimerEntry.gt_eq_true_iff {e o : TimerEntry} :
    e.gt o = true ↔ o.deadline < e.deadline ∨
      e.deadline = o.deadline ∧ o.seq.toNat < e.seq.toNat := by
  unfold TimerEntry.gt
  split
  · next hne =>
    rw [decide_eq_true_iff]
    omega
  · next heq =>
    rw [decide_eq_true_iff, gt_iff_lt, UInt64.lt_iff_toNat_lt]
    omega

/-- The order of the heap is transitive. -/
theorem TimerEntry.Before.trans {a b c : TimerEntry} (hab : a.Before b) (hbc : b.Before c) :
    a.Before c := by
  unfold TimerEntry.Before at *
  rw [← UInt64.toNat_inj] at *
  omega

/-- Pushing an entry keeps the heap in order, if the entry is newer than those in it. -/
theorem pairwise_before_orderedInsert {heap : List TimerEntry} {e : TimerEntry}
    (hheap : heap.Pairwise TimerEntry.Before) (hnew : ∀ o ∈ heap, o.fn < e.fn) :
    (heap.orderedInsert (fun e o => o.gt e = true) e).Pairwise TimerEntry.Before := by
  induction heap with
  | nil => simp
  | cons o heap ih =>
    obtain ⟨hhead, htail⟩ := List.pairwise_cons.mp hheap
    rw [List.orderedInsert_cons]
    split
    · next hgt =>
      have hbefore : e.Before o := by
        have := TimerEntry.gt_eq_true_iff.mp hgt
        unfold TimerEntry.Before
        omega
      refine List.pairwise_cons.mpr ⟨fun x hx => ?_, hheap⟩
      rcases List.mem_cons.mp hx with rfl | hx
      · exact hbefore
      · exact hbefore.trans (hhead x hx)
    · next hgt =>
      have hbefore : o.Before e := by
        have hnot := mt TimerEntry.gt_eq_true_iff.mpr hgt
        have hfn := hnew o List.mem_cons_self
        unfold TimerEntry.Before
        rw [← UInt64.toNat_inj]
        omega
      refine List.pairwise_cons.mpr
        ⟨fun x hx => ?_, ih htail fun x hx => hnew x (List.mem_cons_of_mem o hx)⟩
      rcases List.mem_cons.mp ((List.perm_orderedInsert _ e heap).mem_iff.mp hx) with rfl | hx
      · exact hbefore
      · exact hhead x hx

namespace PriorityTimer

variable {timer : PriorityTimer} {now : Int} {skipThreshold : Int}

/-- The loop takes the entries up to the first that is not due and puts out those that are
not too late. -/
theorem popExpiredFrom_eq (out heap : List TimerEntry) :
    popExpiredFrom now skipThreshold out heap =
      (out ++ (heap.takeWhile fun e => decide (e.deadline ≤ now)).filter
          (!tooLate now skipThreshold ·),
        heap.dropWhile fun e => decide (e.deadline ≤ now)) := by
  induction heap generalizing out with
  | nil => simp [popExpiredFrom]
  | cons e rest ih =>
    rw [popExpiredFrom]
    split
    · next hdue =>
      rw [List.takeWhile_cons_of_pos (by simpa using hdue),
        List.dropWhile_cons_of_pos (by simpa using hdue)]
      split
      · next hlate => rw [ih, List.filter_cons_of_neg (by simp [hlate])]
      · next hlate =>
        rw [ih, List.filter_cons_of_pos (by simpa using hlate), List.append_assoc]
        rfl
    · next hdue =>
      rw [List.takeWhile_cons_of_neg (by simpa using hdue),
        List.dropWhile_cons_of_neg (by simpa using hdue)]
      simp

/-- The entry is among those that a call at this time returns. -/
def Returns (now : Int) (skipThreshold : Int) (e : TimerEntry) : Prop :=
  e.deadline ≤ now ∧ tooLate now skipThreshold e = false

/-- On a heap in order, a call returns what is due and not too late and leaves what is not
due. -/
theorem popExpired_eq (hheap : timer.heap.Pairwise TimerEntry.Before) :
    timer.popExpired now skipThreshold =
      ((timer.heap.filter fun e => decide (e.deadline ≤ now)).filter
          (!tooLate now skipThreshold ·),
        { timer with heap := timer.heap.filter fun e => !decide (e.deadline ≤ now) }) := by
  have hdue : timer.heap.Pairwise fun a b =>
      decide (b.deadline ≤ now) = true → decide (a.deadline ≤ now) = true := by
    refine hheap.imp fun {a b} hab => ?_
    simp only [decide_eq_true_eq]
    unfold TimerEntry.Before at hab
    omega
  rw [popExpired, popExpiredFrom_eq, takeWhile_eq_filter hdue, dropWhile_eq_filter hdue]
  rfl

/-- What `pop_expired` returns is what is due and not too late. -/
theorem mem_popExpired (hheap : timer.heap.Pairwise TimerEntry.Before) {e : TimerEntry} :
    e ∈ (timer.popExpired now skipThreshold).1 ↔
      e ∈ timer.heap ∧ Returns now skipThreshold e := by
  rw [popExpired_eq hheap]
  simp [Returns, and_comm]

/-- An entry is dropped only when it may be skipped and its lag exceeds the threshold. -/
theorem lt_of_tooLate {e : TimerEntry} (hthreshold : 0 ≤ skipThreshold)
    (hlate : tooLate now skipThreshold e = true) :
    e.skippable = true ∧ skipThreshold * 1000000000 < now - e.deadline := by
  simp only [tooLate, Bool.and_eq_true, decide_eq_true_eq] at hlate
  refine ⟨hlate.1, ?_⟩
  rcases le_or_gt 0 (now - e.deadline) with hpos | hneg
  · rw [Int.tdiv_eq_ediv_of_nonneg hpos] at hlate
    omega
  · -- a truncated quotient of a negative lag is not positive
    have hlag := lt_of_le_of_lt hthreshold hlate.2
    have hquot := Int.neg_tdiv (a := now - e.deadline) (b := 1000000000)
    rw [Int.tdiv_eq_ediv_of_nonneg (by omega)] at hquot
    omega

end PriorityTimer

/-! ### The law of the queue -/

/-- What a call of `pop_expired` should do. -/
structure PopLaw (timer : PriorityTimer) (now skipThreshold : Int) : Prop where
  ordered : (timer.popExpired now skipThreshold).1.Pairwise TimerEntry.DueBefore
  left : (timer.popExpired now skipThreshold).2.heap = timer.heap.filter (now < ·.deadline)
  due : ∀ e ∈ (timer.popExpired now skipThreshold).1, e ∈ timer.heap ∧ e.deadline ≤ now
  complete : ∀ e ∈ timer.heap, e.skippable = false → e.deadline ≤ now →
    e ∈ (timer.popExpired now skipThreshold).1
  dropped : ∀ e ∈ timer.heap, e.deadline ≤ now → e ∉ (timer.popExpired now skipThreshold).1 →
    e.skippable = true ∧ skipThreshold * 1000000000 < now - e.deadline

/-- The sequence numbers of the entries that a call returns follow the order of the
`schedule_at` calls where deadlines are equal. -/
def SeqsInOrder (timer : PriorityTimer) (now skipThreshold : Int) : Prop :=
  ∀ a ∈ timer.heap, ∀ b ∈ timer.heap, PriorityTimer.Returns now skipThreshold a →
    PriorityTimer.Returns now skipThreshold b → a.deadline = b.deadline → a.fn < b.fn →
    a.fn % 2 ^ 64 ≤ b.fn % 2 ^ 64

namespace TimerRun

/-- The law at one call. -/
def Lawful (r : TimerRun) : TimerCall → Prop
  | .scheduleAt _ _ => True
  | .popExpired now skipThreshold => PopLaw r.timer now skipThreshold

/-- The sequence numbers have not wrapped between entries that a call returns. -/
def Unwrapped (r : TimerRun) : TimerCall → Prop
  | .scheduleAt _ _ => True
  | .popExpired now skipThreshold => SeqsInOrder r.timer now skipThreshold

/-- The threshold of a call is not negative. -/
def ThresholdNonneg : TimerCall → Prop
  | .scheduleAt _ _ => True
  | .popExpired _ skipThreshold => 0 ≤ skipThreshold

instance : DecidablePred ThresholdNonneg
  | .scheduleAt _ _ => .isTrue trivial
  | .popExpired _ skipThreshold => inferInstanceAs (Decidable (0 ≤ skipThreshold))

instance (r : TimerRun) : DecidablePred r.Unwrapped
  | .scheduleAt _ _ => .isTrue trivial
  | .popExpired now skipThreshold =>
    inferInstanceAs (Decidable (∀ a ∈ r.timer.heap, ∀ b ∈ r.timer.heap,
      (a.deadline ≤ now ∧ PriorityTimer.tooLate now skipThreshold a = false) →
      (b.deadline ≤ now ∧ PriorityTimer.tooLate now skipThreshold b = false) →
      a.deadline = b.deadline → a.fn < b.fn → a.fn % 2 ^ 64 ≤ b.fn % 2 ^ 64))

/-- Every scheduled entry was returned at most once, and one that may not be skipped was
returned or is queued. -/
structure Accounted (r : TimerRun) : Prop where
  once : (r.returned.map TimerEntry.fn).Nodup
  kept : ∀ e ∈ r.scheduled, e.skippable = false → e ∈ r.returned ∨ e ∈ r.timer.heap

/-- What every call keeps: the heap is in order, the scheduled entries are numbered through
and carry the numbers as words, and each of them is queued, returned or dropped. -/
structure Sound (r : TimerRun) : Prop where
  ordered : r.timer.heap.Pairwise TimerEntry.Before
  numbered : r.scheduled.map TimerEntry.fn = List.range r.scheduled.length
  seq_eq : ∀ e ∈ r.scheduled, e.seq.toNat = e.fn % 2 ^ 64
  nextSeq_eq : r.timer.nextSeq.toNat = r.scheduled.length % 2 ^ 64
  account : ∃ dropped, (r.timer.heap ++ r.returned ++ dropped).Perm r.scheduled ∧
    ∀ e ∈ dropped, e.skippable = true

variable {r : TimerRun}

/-- A timer without entries is sound. -/
theorem sound_empty : Sound {} :=
  ⟨List.Pairwise.nil, rfl, by simp, rfl, [], by simp, by simp⟩

/-- What is in the heap has been scheduled. -/
theorem Sound.mem_scheduled (h : r.Sound) {e : TimerEntry} (he : e ∈ r.timer.heap) :
    e ∈ r.scheduled := by
  obtain ⟨dropped, hperm, -⟩ := h.account
  exact hperm.mem_iff.mp (List.mem_append_left _ (List.mem_append_left _ he))

/-- The number of a callback is below the number of calls. -/
theorem Sound.fn_lt (h : r.Sound) {e : TimerEntry} (he : e ∈ r.scheduled) :
    e.fn < r.scheduled.length := by
  have hmem := List.mem_map_of_mem (f := TimerEntry.fn) he
  rwa [h.numbered, List.mem_range] at hmem

/-- The queued and the returned entries carry distinct numbers. -/
theorem Sound.nodup (h : r.Sound) :
    ((r.timer.heap ++ r.returned).map TimerEntry.fn).Nodup := by
  obtain ⟨dropped, hperm, -⟩ := h.account
  have hnodup := (hperm.map TimerEntry.fn).nodup_iff.mpr (h.numbered ▸ List.nodup_range)
  rw [List.map_append] at hnodup
  exact hnodup.of_append_left

/-- In a sound run every call is accounted for. -/
theorem Sound.accounted (h : r.Sound) : r.Accounted := by
  refine ⟨?_, fun e he hskip => ?_⟩
  · have hnodup := h.nodup
    rw [List.map_append] at hnodup
    exact hnodup.of_append_right
  · obtain ⟨dropped, hperm, hdropped⟩ := h.account
    rcases List.mem_append.mp (hperm.mem_iff.mpr he) with hmem | hmem
    · exact (List.mem_append.mp hmem).symm
    · exact absurd (hdropped e hmem) (by simp [hskip])

/-- A `schedule_at` keeps the invariant: the new entry is queued. -/
theorem Sound.scheduleAt (h : r.Sound) (tp : Int) (skippable : Bool) :
    (r.step (.scheduleAt tp skippable)).Sound := by
  obtain ⟨dropped, hperm, hdropped⟩ := h.account
  refine ⟨?_, ?_, ?_, ?_, dropped, ?_, hdropped⟩
  · exact pairwise_before_orderedInsert h.ordered fun o ho => h.fn_lt (h.mem_scheduled ho)
  · simp only [step, List.map_append, List.map_cons, List.map_nil, List.length_append,
      List.length_singleton, List.range_succ, h.numbered]
  · intro e he
    rcases List.mem_append.mp he with he | he
    · exact h.seq_eq e he
    · rw [List.mem_singleton.mp he]
      exact h.nextSeq_eq
  · simp only [step, PriorityTimer.scheduleAt, UInt64.toNat_add, UInt64.toNat_one,
      List.length_append, List.length_singleton]
    have := h.nextSeq_eq
    omega
  · simp only [step, PriorityTimer.scheduleAt]
    refine (((List.perm_orderedInsert _ _ _).append_right _).append_right _).trans ?_
    exact (hperm.cons _).trans (List.perm_append_singleton _ _).symm

/-- A `pop_expired` keeps the invariant: the due entries are returned or dropped. -/
theorem Sound.popExpired (h : r.Sound) (now skipThreshold : Int) :
    (r.step (.popExpired now skipThreshold)).Sound := by
  obtain ⟨dropped, hperm, hdropped⟩ := h.account
  have hpop := @PriorityTimer.popExpired_eq r.timer now skipThreshold h.ordered
  refine ⟨?_, h.numbered, h.seq_eq, ?_, ?_⟩
  · simp only [step, hpop]
    exact h.ordered.filter _
  · simp only [step, hpop]
    exact h.nextSeq_eq
  · simp only [step, hpop]
    refine ⟨dropped ++ (r.timer.heap.filter fun e => decide (e.deadline ≤ now)).filter
      (PriorityTimer.tooLate now skipThreshold ·), ?_, fun e he => ?_⟩
    · rw [List.perm_iff_count] at hperm ⊢
      intro e
      have hheap := (List.filter_append_perm (fun e => decide (e.deadline ≤ now))
        r.timer.heap).count_eq e
      have hdue := (List.filter_append_perm (PriorityTimer.tooLate now skipThreshold ·)
        (r.timer.heap.filter fun e => decide (e.deadline ≤ now))).count_eq e
      have htotal := hperm e
      simp only [List.count_append] at hheap hdue htotal ⊢
      omega
    · rcases List.mem_append.mp he with he | he
      · exact hdropped e he
      · have hlate := (List.mem_filter.mp he).2
        exact (Bool.and_eq_true_iff.mp hlate).1

/-- Every call keeps the run sound. -/
theorem Sound.step (h : r.Sound) (call : TimerCall) : (r.step call).Sound := by
  cases call with
  | scheduleAt tp skippable => exact h.scheduleAt tp skippable
  | popExpired now skipThreshold => exact h.popExpired now skipThreshold

/-- Every run is sound. -/
theorem sound_run (calls : List TimerCall) : (run calls).Sound :=
  calls.foldlRecOn TimerRun.step sound_empty fun _ h call _ => h.step call

/-- Entries in the order of the heap are in the order of the calls when their sequence
numbers are. -/
theorem pairwise_dueBefore_iff {out : List TimerEntry} (hout : out.Pairwise TimerEntry.Before)
    (hfn : (out.map TimerEntry.fn).Nodup) :
    out.Pairwise TimerEntry.DueBefore ↔ ∀ a ∈ out, ∀ b ∈ out, a.deadline = b.deadline →
      a.fn < b.fn → a.seq.toNat ≤ b.seq.toNat := by
  have hne : out.Pairwise fun a b => a.fn ≠ b.fn := List.pairwise_map.mp hfn
  constructor
  · intro hdue a ha b hb hdeadline hlt
    obtain ⟨i, hi, rfl⟩ := List.getElem_of_mem ha
    obtain ⟨j, hj, rfl⟩ := List.getElem_of_mem hb
    have hboth := List.pairwise_iff_getElem.mp (hout.and hdue)
    unfold TimerEntry.Before TimerEntry.DueBefore at hboth
    simp only [← UInt64.toNat_inj] at hboth
    rcases lt_trichotomy i j with hij | rfl | hji
    · have hbefore := (hboth i j hi hj hij).1
      omega
    · omega
    · -- the entry scheduled later cannot come first
      have hdue := (hboth j i hj hi hji).2
      omega
  · intro hseq
    refine (hout.and hne).imp_of_mem fun {a b} ha hb hab => ?_
    obtain ⟨hbefore, hne⟩ := hab
    unfold TimerEntry.Before at hbefore
    unfold TimerEntry.DueBefore
    rw [← UInt64.toNat_inj] at hbefore
    have hba := hseq b hb a ha
    omega

/-- On a timer whose heap is in order and whose sequence numbers are those of the calls, the
law of `pop_expired` can only fail in the order of equal deadlines. -/
theorem Sound.popLaw_iff (h : r.Sound) {now skipThreshold : Int} (hthreshold : 0 ≤ skipThreshold) :
    PopLaw r.timer now skipThreshold ↔ SeqsInOrder r.timer now skipThreshold := by
  have hpop := @PriorityTimer.popExpired_eq r.timer now skipThreshold h.ordered
  have hmem := @PriorityTimer.mem_popExpired r.timer now skipThreshold h.ordered
  have hseq : ∀ e ∈ r.timer.heap, e.seq.toNat = e.fn % 2 ^ 64 :=
    fun e he => h.seq_eq e (h.mem_scheduled he)
  have hsub : (r.timer.popExpired now skipThreshold).1.Sublist r.timer.heap := by
    rw [hpop]
    exact List.filter_sublist.trans List.filter_sublist
  have hnodup : (r.timer.heap.map TimerEntry.fn).Nodup := by
    have := h.nodup
    rw [List.map_append] at this
    exact this.of_append_left
  have hordered := pairwise_dueBefore_iff (h.ordered.sublist hsub) (hnodup.sublist (hsub.map _))
  constructor
  · intro hlaw a ha b hb hra hrb hdeadline hlt
    rw [← hseq a ha, ← hseq b hb]
    exact hordered.mp hlaw.ordered a (hmem.mpr ⟨ha, hra⟩) b (hmem.mpr ⟨hb, hrb⟩) hdeadline hlt
  · intro hunwrapped
    refine ⟨hordered.mpr fun a ha b hb hdeadline hlt => ?_, ?_, fun e he => ?_,
      fun e he hskip hdue => hmem.mpr ⟨he, hdue, ?_⟩, fun e he hdue hout => ?_⟩
    · obtain ⟨ha, hra⟩ := hmem.mp ha
      obtain ⟨hb, hrb⟩ := hmem.mp hb
      rw [hseq a ha, hseq b hb]
      exact hunwrapped a ha b hb hra hrb hdeadline hlt
    · rw [hpop]
      refine List.filter_congr fun e _ => ?_
      rw [Bool.eq_iff_iff]
      simp
    · exact ⟨(hmem.mp he).1, (hmem.mp he).2.1⟩
    · rw [PriorityTimer.tooLate, hskip, Bool.false_and]
    · refine PriorityTimer.lt_of_tooLate hthreshold ?_
      by_contra hlate
      exact hout (hmem.mpr ⟨he, hdue, Bool.eq_false_of_not_eq_true hlate⟩)

/-- For every run of calls, each `pop_expired` returns what is due in the order of deadlines
and calls, leaves what is not due and drops only what is too late, and over the run nothing
is returned twice and nothing that may not be skipped is lost, exactly when the sequence
numbers did not wrap between entries with one deadline that a call returns. -/
theorem timer_queue_iff (calls : List TimerCall) (hthreshold : ∀ c ∈ calls, ThresholdNonneg c) :
    (Lib.Along TimerRun.step Lawful {} calls ∧ (run calls).Accounted) ↔
      Lib.Along TimerRun.step Unwrapped {} calls := by
  have hlawful : Lib.Along TimerRun.step Lawful {} calls ↔
      Lib.Along TimerRun.step Unwrapped {} calls := by
    simp only [Lib.along_iff_forall_split]
    refine forall_congr' fun pre => forall_congr' fun call => forall_congr' fun post =>
      forall_congr' fun hsplit => ?_
    have hcall := hthreshold call (by rw [hsplit]; simp)
    cases call with
    | scheduleAt tp skippable => exact Iff.rfl
    | popExpired now skipThreshold => exact (sound_run pre).popLaw_iff hcall
  exact and_iff_left_of_imp (fun _ => (sound_run calls).accounted) |>.trans hlawful

/-- The record of the scheduled entries holds what the calls asked for. -/
theorem run_scheduled (calls : List TimerCall) :
    (run calls).scheduled = TimerCall.entries calls := by
  induction calls using List.reverseRecOn with
  | nil => rfl
  | append_singleton calls call ih =>
    rw [run, List.foldl_append, List.foldl_cons, List.foldl_nil, ← run]
    cases call with
    | popExpired now skipThreshold =>
      have hnone : [TimerCall.popExpired now skipThreshold].filterMap TimerCall.request = [] := rfl
      rw [TimerCall.entries, List.filterMap_append, hnone, List.append_nil]
      exact ih
    | scheduleAt tp skippable =>
      have hlength : (run calls).scheduled.length = (calls.filterMap TimerCall.request).length := by
        rw [ih, TimerCall.entries, TimerEntry.numbered, List.length_map, List.length_zipIdx]
      have hseq : (run calls).timer.nextSeq = UInt64.ofNat (run calls).scheduled.length := by
        rw [← UInt64.toNat_inj, (sound_run calls).nextSeq_eq, UInt64.toNat_ofNat']
      rw [TimerCall.entries, List.filterMap_append, TimerEntry.numbered, List.zipIdx_append,
        List.map_append, ← TimerEntry.numbered, ← TimerCall.entries, ← ih]
      simp [TimerRun.step, TimerCall.request, hseq, hlength]

/-- The sequence numbers do not wrap in a run with no more calls of `schedule_at` than there are
words. -/
theorem along_unwrapped {calls : List TimerCall}
    (hcount : (calls.filterMap TimerCall.request).length ≤ 2 ^ 64) :
    Lib.Along TimerRun.step Unwrapped {} calls := by
  refine Lib.along_iff_forall_split.mpr fun pre call post hsplit => ?_
  have hsound : (run pre).Sound := sound_run pre
  have hlength : (run pre).scheduled.length ≤ 2 ^ 64 := by
    rw [run_scheduled, TimerCall.entries, TimerEntry.numbered, List.length_map, List.length_zipIdx]
    refine le_trans ?_ hcount
    rw [hsplit, List.filterMap_append, List.length_append]
    exact Nat.le_add_right _ _
  cases call with
  | scheduleAt tp skippable => trivial
  | popExpired now skipThreshold =>
    intro a ha b hb _ _ _ hlt
    have hb := hsound.fn_lt (hsound.mem_scheduled hb)
    rw [Nat.mod_eq_of_lt (hlt.trans (hb.trans_le hlength)),
      Nat.mod_eq_of_lt (hb.trans_le hlength)]
    exact hlt.le

/-- For every run with at most 2⁶⁴ calls of `schedule_at`, each `pop_expired` returns what is due
in the order of deadlines and calls, leaves what is not due and drops only what is too late; over
the run nothing is returned twice, and of the entries that the calls asked for, nothing that may
not be skipped is lost. -/
theorem timer_queue (calls : List TimerCall) (hthreshold : ∀ c ∈ calls, ThresholdNonneg c)
    (hcount : (calls.filterMap TimerCall.request).length ≤ 2 ^ 64) :
    Lib.Along TimerRun.step Lawful {} calls ∧ (run calls).Accounted ∧
      (run calls).scheduled = TimerCall.entries calls := by
  obtain ⟨hlawful, haccounted⟩ := (timer_queue_iff calls hthreshold).mpr (along_unwrapped hcount)
  exact ⟨hlawful, haccounted, run_scheduled calls⟩

/-- Four entries at two times, one of them dropped: the law applies to this run. -/
theorem timer_queue_four :
    (∀ c ∈ [TimerCall.scheduleAt 7 false, .scheduleAt 5 true, .scheduleAt 7 false,
        .popExpired 6 0, .scheduleAt 3 true, .popExpired 3000000000 1], ThresholdNonneg c) ∧
      (Lib.Along TimerRun.step Lawful {} [.scheduleAt 7 false, .scheduleAt 5 true,
          .scheduleAt 7 false, .popExpired 6 0, .scheduleAt 3 true, .popExpired 3000000000 1] ∧
        (run [.scheduleAt 7 false, .scheduleAt 5 true, .scheduleAt 7 false, .popExpired 6 0,
          .scheduleAt 3 true, .popExpired 3000000000 1]).Accounted) ∧
      (run [.scheduleAt 7 false, .scheduleAt 5 true, .scheduleAt 7 false, .popExpired 6 0,
          .scheduleAt 3 true, .popExpired 3000000000 1]).scheduled =
        [⟨7, false, 0, 0⟩, ⟨5, true, 1, 1⟩, ⟨7, false, 2, 2⟩, ⟨3, true, 3, 3⟩] := by
  obtain ⟨hlawful, haccounted, hscheduled⟩ := timer_queue [.scheduleAt 7 false, .scheduleAt 5 true,
    .scheduleAt 7 false, .popExpired 6 0, .scheduleAt 3 true, .popExpired 3000000000 1]
    (by decide) (by decide)
  exact ⟨by decide, ⟨hlawful, haccounted⟩, hscheduled.trans (by decide)⟩

/-- Rounds in which one callback is scheduled and taken out. -/
def rounds (n : ℕ) : List TimerCall :=
  (List.replicate n [.scheduleAt 0 false, .popExpired 0 0]).flatten

/-- After such rounds the timer is empty and its counter has advanced. -/
theorem run_rounds (n : ℕ) :
    (run (rounds n)).timer = ⟨[], UInt64.ofNat n⟩ ∧ (run (rounds n)).scheduled.length = n := by
  induction n with
  | zero => exact ⟨rfl, rfl⟩
  | succ n ih =>
    have hrun : run (rounds (n + 1)) =
        ((run (rounds n)).step (.scheduleAt 0 false)).step (.popExpired 0 0) := by
      rw [run, rounds, List.replicate_succ', List.flatten_append, List.flatten_singleton,
        List.foldl_append]
      rfl
    rw [hrun]
    simp [TimerRun.step, PriorityTimer.scheduleAt, PriorityTimer.popExpired,
      PriorityTimer.popExpiredFrom, PriorityTimer.tooLate, ih.1, ih.2]

/-- When the counter of an empty timer is about to wrap, two callbacks scheduled for one time
come out in the wrong order. -/
theorem not_popLaw_of_wrap {last : UInt64} (htimer : r.timer = ⟨[], last⟩)
    (hwrap : last + 1 < last) :
    ¬ PopLaw ((r.step (.scheduleAt 5 false)).step (.scheduleAt 5 false)).timer 5 0 := by
  intro hlaw
  have hheap : ((r.step (.scheduleAt 5 false)).step (.scheduleAt 5 false)).timer.heap =
      [⟨5, false, r.scheduled.length + 1, last + 1⟩, ⟨5, false, r.scheduled.length, last⟩] := by
    simp [TimerRun.step, PriorityTimer.scheduleAt, htimer, TimerEntry.gt, hwrap]
  have hordered := hlaw.ordered
  rw [PriorityTimer.popExpired, hheap] at hordered
  refine absurd hordered ?_
  simp [PriorityTimer.popExpiredFrom, PriorityTimer.tooLate, TimerEntry.DueBefore]

/-- The last sequence number and the first one after the wrap, with one deadline. -/
def wrappingCalls : List TimerCall :=
  rounds (2 ^ 64 - 1) ++ [.scheduleAt 5 false, .scheduleAt 5 false, .popExpired 5 0]

/-- After 2⁶⁴ - 1 calls, two callbacks scheduled for one time come out in the wrong order. -/
theorem wrapped_out_of_order :
    (∀ c ∈ wrappingCalls, ThresholdNonneg c) ∧
      ¬ Lib.Along TimerRun.step Lawful {} wrappingCalls := by
  constructor
  · intro c hc
    simp only [wrappingCalls, rounds, List.mem_append, List.mem_flatten, List.mem_replicate] at hc
    rcases hc with ⟨round, ⟨-, rfl⟩, hc⟩ | hc
    · revert c
      decide
    · revert c
      decide
  · intro h
    obtain ⟨-, -, hlaw, -⟩ := (Lib.along_append.mp h).2
    exact not_popLaw_of_wrap (run_rounds (2 ^ 64 - 1)).1 (by decide) hlaw

end TimerRun

end TtsServer
