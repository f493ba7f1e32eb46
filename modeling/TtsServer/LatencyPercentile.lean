import TtsServer.DataBoard
import Mathlib.Data.List.DropRight

/-!
# The latency percentile

The metrics keep a window of the last heartbeat latencies and report its 99th
percentile as an element of the sorted window. The factor 0.99 of the source is read
as 99/100.
-/

namespace TtsServer

/-! ### Ranks in a sorted list -/

section Rank

variable {α : Type*} {le : α → α → Bool} {samples : List α} {idx : ℕ} {v : α}

/-- In sorted order, the element at an index has all elements up to that index below it. -/
theorem lt_countP_of_mergeSort (htrans : ∀ a b c, le a b = true → le b c = true → le a c = true)
    (htotal : ∀ a b, (le a b || le b a) = true) (hv : (samples.mergeSort le)[idx]? = some v) :
    idx < samples.countP (le · v) := by
  obtain ⟨hidx, hget⟩ := List.getElem?_eq_some_iff.mp hv
  have hsorted := List.pairwise_iff_getElem.mp (List.pairwise_mergeSort htrans htotal samples)
  have hprefix : ((samples.mergeSort le).take (idx + 1)).countP (le · v) = idx + 1 := by
    rw [List.countP_eq_length.mpr, List.length_take, Nat.min_eq_left (by omega)]
    intro a ha
    obtain ⟨j, hj, rfl⟩ := List.mem_take_iff_getElem.mp ha
    by_cases hji : j = idx
    · subst hji
      rw [hget]
      simpa using htotal v v
    · rw [← hget]
      exact hsorted j idx (by omega) hidx (by omega)
  calc idx < ((samples.mergeSort le).take (idx + 1)).countP (le · v) := by omega
    _ ≤ (samples.mergeSort le).countP (le · v) := (List.take_sublist _ _).countP_le
    _ = samples.countP (le · v) := (List.mergeSort_perm samples le).countP_eq _

end Rank

namespace MetricsSnapshot

/-- `heartbeat_p99_us`. -/
def heartbeatP99Us (metrics : MetricsSnapshot) : UInt64 :=
  if metrics.hbSamples.isEmpty then 0
  else
    let v := metrics.hbSamples.mergeSort fun a b => decide (a ≤ b)
    let idx := v.length * 99 / 100
    let idx := if idx ≥ v.length then v.length - 1 else idx
    v.getD idx 0

/-- The percentile of a window that is not empty. The correction of the index never
applies. -/
theorem getElem?_heartbeatP99Us {metrics : MetricsSnapshot} (hne : metrics.hbSamples ≠ []) :
    (metrics.hbSamples.mergeSort fun a b => decide (a ≤ b))[metrics.hbSamples.length * 99 / 100]? =
      some metrics.heartbeatP99Us := by
  have hpos := List.length_pos_iff.mpr hne
  have hidx : ¬ metrics.hbSamples.length * 99 / 100 ≥ metrics.hbSamples.length := by omega
  have hempty : metrics.hbSamples.isEmpty = false := by simpa using hne
  simp only [heartbeatP99Us, hempty, List.length_mergeSort, if_neg hidx, Bool.false_eq_true,
    if_false, List.getD_eq_getElem?_getD]
  rw [List.getElem?_eq_getElem (by rw [List.length_mergeSort]; omega), Option.getD_some]

/-- Recording a latency keeps the last 256 of what was recorded. -/
theorem hbSamples_recordHeartbeatLatencyUs (metrics : MetricsSnapshot) (recorded : List UInt64)
    (us : UInt64) (h : metrics.hbSamples = recorded.rtake (min recorded.length 256)) :
    (metrics.recordHeartbeatLatencyUs us).hbSamples =
      (recorded ++ [us]).rtake (min (recorded ++ [us]).length 256) := by
  simp only [recordHeartbeatLatencyUs, h, List.rtake, List.length_append, List.length_drop,
    List.length_singleton]
  by_cases hfull : recorded.length < 256
  · rw [if_neg (by omega), Nat.min_eq_left (by omega), Nat.min_eq_left (by omega)]
    simp
  · rw [if_pos (by omega), Nat.min_eq_right (by omega), Nat.min_eq_right (by omega),
      ← List.drop_one, List.drop_append_of_le_length (by rw [List.length_drop]; omega),
      List.drop_drop, List.drop_append_of_le_length (by omega),
      show recorded.length + 1 - 256 = recorded.length - 256 + 1 by omega]

/-- The metrics of a new server after a run of recorded latencies. -/
def recordAll (recorded : List UInt64) : MetricsSnapshot :=
  recorded.foldl recordHeartbeatLatencyUs {}

/-- Recording a run of latencies leaves the last 256 of them. -/
theorem hbSamples_recordAll (recorded : List UInt64) :
    (recordAll recorded).hbSamples = recorded.rtake (min recorded.length 256) := by
  induction recorded using List.reverseRecOn with
  | nil => rfl
  | append_singleton recorded us ih =>
    rw [recordAll, List.foldl_append]
    exact hbSamples_recordHeartbeatLatencyUs _ recorded us ih

/-- After any run of recorded latencies the window holds the last 256 of them in order, and
the reported percentile is one of them, with at least 99 % of the window at or below it and
at most 1 % above. -/
theorem heartbeat_percentile (recorded : List UInt64) (hne : recorded ≠ []) :
    (recordAll recorded).hbSamples = recorded.rtake (min recorded.length 256) ∧
    (recordAll recorded).heartbeatP99Us ∈ (recordAll recorded).hbSamples ∧
    99 * (recordAll recorded).hbSamples.length ≤
      100 * (recordAll recorded).hbSamples.countP
        (fun us => decide (us ≤ (recordAll recorded).heartbeatP99Us)) ∧
    100 * (recordAll recorded).hbSamples.countP
        (fun us => decide ((recordAll recorded).heartbeatP99Us < us)) ≤
      (recordAll recorded).hbSamples.length := by
  have hwindow := hbSamples_recordAll recorded
  have hpos := List.length_pos_iff.mpr hne
  have hlen : (recordAll recorded).hbSamples.length = min recorded.length 256 := by
    rw [hwindow, List.rtake, List.length_drop]
    omega
  have hget := getElem?_heartbeatP99Us
    (List.length_pos_iff.mp (by omega) : (recordAll recorded).hbSamples ≠ [])
  have hrank := lt_countP_of_mergeSort (by simpa using fun _ _ _ => UInt64.le_trans)
    (by simpa using UInt64.le_total) hget
  have hsplit := List.length_eq_countP_add_countP
    (fun us => decide (us ≤ (recordAll recorded).heartbeatP99Us))
    (l := (recordAll recorded).hbSamples)
  have habove : (fun us => decide (¬ decide (us ≤ (recordAll recorded).heartbeatP99Us) = true)) =
      fun us => decide ((recordAll recorded).heartbeatP99Us < us) := by
    funext us
    simp
  rw [habove] at hsplit
  refine ⟨hwindow, ?_, by omega, by omega⟩
  exact (List.mergeSort_perm _ _).mem_iff.mp (List.mem_of_getElem? hget)

/-- Of two latencies the greater one is reported. -/
theorem heartbeat_percentile_two :
    [(3 : UInt64), 7] ≠ [] ∧ (recordAll [3, 7]).heartbeatP99Us = 7 := by
  obtain ⟨hwindow, hmem, hrank, -⟩ := heartbeat_percentile [3, 7] (by decide)
  have hsamples : (recordAll [3, 7]).hbSamples = [3, 7] := hwindow
  rw [hsamples] at hmem hrank
  refine ⟨by decide, ?_⟩
  rcases List.mem_cons.mp hmem with h | h
  · rw [h] at hrank
    exact absurd hrank (by decide)
  · exact List.mem_singleton.mp h

end MetricsSnapshot

end TtsServer
