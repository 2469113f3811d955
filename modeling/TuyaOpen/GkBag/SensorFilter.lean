import TuyaOpen.Basic.Window
import TuyaOpen.GkBag.ForceSensor
import Mathlib.Data.List.Sort

/-!
# The filters of the force sensor

`gk_sensor_read_data` keeps the last five calibrated readings and the last five medians in two
buffers that are written in rotation. Both are read as sets, and the buffers are only partly filled
at first.

## Main results

* `bubbleSort_eq_insertionSort`: the loops of `calculate_median` sort.
* `Windowed.read`: one more reading.
* `gkSensorReadData_eq_filtered`: every reading shows what it should.
-/

namespace TuyaOpen.GkBag

/-! ### Sorting -/

section Sorting

variable {α : Type*} [LinearOrder α]

theorem exists_bubblePass_eq (m : Nat) (xs ys : List α) (h : xs.length = m + 1) :
    ∃ front last, bubblePass m (xs ++ ys) = front ++ last :: ys ∧
      (front ++ [last]).Perm xs ∧ ∀ x ∈ xs, x ≤ last := by
  induction m generalizing xs with
  | zero =>
    obtain ⟨x, rfl⟩ := List.length_eq_one_iff.1 h
    refine ⟨[], x, ?_, List.Perm.refl _, by simp⟩
    rw [bubblePass]
    · rfl
    · simp
  | succ m ih =>
    match xs, h with
    | x :: y :: xs, h =>
      simp only [List.length_cons, Nat.add_right_cancel_iff] at h
      simp only [List.cons_append, bubblePass]
      split_ifs with hlt
      · obtain ⟨front, last, heq, hperm, hall⟩ := ih (x :: xs) (by simpa using h)
        refine ⟨y :: front, last, ?_, ?_, ?_⟩
        · rw [← List.cons_append, heq, List.cons_append]
        · exact (hperm.cons y).trans (List.Perm.swap x y xs)
        · have hx := hall x List.mem_cons_self
          intro z hz
          rcases List.mem_cons.1 hz with rfl | hz
          · exact hx
          rcases List.mem_cons.1 hz with rfl | hz
          · exact hlt.le.trans hx
          · exact hall z (List.mem_cons_of_mem _ hz)
      · obtain ⟨front, last, heq, hperm, hall⟩ := ih (y :: xs) (by simpa using h)
        refine ⟨x :: front, last, ?_, ?_, ?_⟩
        · rw [← List.cons_append, heq, List.cons_append]
        · exact hperm.cons x
        · have hy := hall y List.mem_cons_self
          intro z hz
          rcases List.mem_cons.1 hz with rfl | hz
          · exact (not_lt.1 hlt).trans hy
          · exact hall z hz

/-- After some rounds of the outer loop, the greatest elements are in order at the end. -/
structure Bubbled (values tempArray : List α) (i : Nat) : Prop where
  exists_eq : ∃ front back, tempArray = front ++ back ∧ tempArray.Perm values ∧
    front.length = values.length - i ∧ back.Pairwise (· ≤ ·) ∧ ∀ x ∈ front, ∀ y ∈ back, x ≤ y

theorem Bubbled.round {values tempArray : List α} {i : Nat} (h : Bubbled values tempArray i)
    (hi : i < values.length - 1) :
    Bubbled values (bubblePass (values.length - i - 1) tempArray) (i + 1) := by
  obtain ⟨front, back, rfl, hperm, hlen, hback, hle⟩ := h.exists_eq
  obtain ⟨front', last, heq, hfront, hlast⟩ :=
    exists_bubblePass_eq (values.length - i - 1) front back (by omega)
  have hlen' := hfront.length_eq
  rw [List.length_append, List.length_singleton] at hlen'
  have hmem (x : α) (hx : x ∈ front' ++ [last]) : x ∈ front := hfront.subset hx
  refine ⟨front', last :: back, heq, (perm_bubblePass _ _).trans hperm, by omega, ?_, ?_⟩
  · exact List.pairwise_cons.2 ⟨hle last (hmem last (by simp)), hback⟩
  · intro x hx y hy
    have hx' := hmem x (List.mem_append_left _ hx)
    rcases List.mem_cons.1 hy with rfl | hy
    · exact hlast x hx'
    · exact hle x hx' y hy

theorem bubbled_bubbleSort (values : List α) :
    Bubbled values (bubbleSort values) (values.length - 1) := by
  have h (n : Nat) (hn : n ≤ values.length - 1) : Bubbled values ((List.range n).foldl
      (fun tempArray i => bubblePass (values.length - i - 1) tempArray) values) n := by
    induction n with
    | zero => exact ⟨values, [], by simp⟩
    | succ n ih =>
      rw [List.range_succ, List.foldl_append]
      exact (ih (by omega)).round (by omega)
  exact h _ le_rfl

/-- **Sorting.** The loops of `calculate_median` sort. -/
theorem bubbleSort_eq_insertionSort (values : List α) :
    bubbleSort values = values.insertionSort (· ≤ ·) := by
  obtain ⟨front, back, heq, hperm, hlen, hback, hle⟩ := (bubbled_bubbleSort values).exists_eq
  refine (hperm.trans (List.perm_insertionSort (· ≤ ·) values).symm).eq_of_pairwise' ?_
    (List.pairwise_insertionSort (· ≤ ·) values)
  rw [heq, List.pairwise_append]
  refine ⟨?_, hback, hle⟩
  match front, hlen with
  | [], _ => exact List.Pairwise.nil
  | [x], _ => exact List.pairwise_singleton _ _
  | x :: y :: front, hlen =>
    simp only [List.length_cons] at hlen
    omega

theorem insertionSort_eq_of_perm {xs ys : List α} (h : xs.Perm ys) :
    xs.insertionSort (· ≤ ·) = ys.insertionSort (· ≤ ·) := by
  have hperm := (List.perm_insertionSort (· ≤ ·) xs).trans
    (h.trans (List.perm_insertionSort (· ≤ ·) ys).symm)
  exact hperm.eq_of_pairwise' (List.pairwise_insertionSort (· ≤ ·) xs)
    (List.pairwise_insertionSort (· ≤ ·) ys)

end Sorting

/-! ### What the filters should show -/

variable {K : Type*} [Field K] [LinearOrder K]

/-- For every channel, the element of the middle rank of the sorted readings. -/
def median (readings : List (Channels K)) : Channels K := fun i =>
  ((readings.map fun c => c i).insertionSort (· ≤ ·)).getD (readings.length / 2) 0

def mean (readings : List (Channels K)) : Channels K := fun i =>
  (readings.map fun c => c i).sum / readings.length

def medians (readings : List (Channels K)) : List (Channels K) :=
  (List.range readings.length).map fun k => median (lastN 5 (readings.take (k + 1)))

def filtered (readings : List (Channels K)) : Channels K := mean (lastN 5 (medians readings))

def SensorState.reading (s : SensorState K) : SensorCall K → List (Channels K)
  | .read (some raw) _ => [s.calibrated raw]
  | _ => []

def readings (R : SquareRoot K) : SensorState K → List (SensorCall K) → List (Channels K)
  | _, [] => []
  | s, call :: calls => s.reading call ++ readings R (sensorNext R s call) calls

/-! ### The filters -/

section Filters

variable {s : SensorState K} {R : SquareRoot K} {cs : List (Channels K)} {c : Channels K}

theorem length_medians (cs : List (Channels K)) : (medians cs).length = cs.length := by
  rw [medians, List.length_map, List.length_range]

theorem medians_concat (cs : List (Channels K)) (c : Channels K) :
    medians (cs ++ [c]) = medians cs ++ [median (lastN 5 (cs ++ [c]))] := by
  have hlen : (cs ++ [c]).length = cs.length + 1 := by simp
  rw [medians, hlen, List.range_succ, List.map_append, List.map_singleton, ← hlen, List.take_length,
    medians]
  refine congrArg (· ++ _) (List.map_congr_left fun k hk => ?_)
  rw [List.take_append_of_le_length (List.mem_range.1 hk)]

omit [Field K] [LinearOrder K] in
theorem channelValues_perm {buffer : Fin 5 → Channels K} (h : Rotated buffer cs) (i : Fin 6) :
    (channelValues buffer (min cs.length 5) i).Perm ((lastN 5 cs).map fun c => c i) := by
  have hperm := h.perm_lastN.map fun c => c i
  rwa [List.map_map] at hperm

theorem calculateMedian_channelValues {buffer : Fin 5 → Channels K} (h : Rotated buffer cs) :
    (fun i => calculateMedian (channelValues buffer (min cs.length 5) i)) =
      median (lastN 5 cs) := by
  funext i
  have hperm := channelValues_perm h i
  have hlen := hperm.length_eq
  rw [List.length_map] at hlen
  rw [calculateMedian, bubbleSort_eq_insertionSort, insertionSort_eq_of_perm hperm, hlen, median]

omit [LinearOrder K] in
theorem sum_channelValues {buffer : Fin 5 → Channels K} (h : Rotated buffer cs) :
    (fun i => (channelValues buffer (min cs.length 5) i).sum / (min cs.length 5 : ℕ)) =
      mean (lastN 5 cs) := by
  funext i
  rw [(channelValues_perm h i).sum_eq, mean, length_lastN]

/-- The buffers of the sensor after some readings. -/
structure Windowed (s : SensorState K) (cs : List (Channels K)) : Prop where
  isInitialized : s.isInitialized = true
  historyIndex : s.historyIndex = cs.length
  historyCount : s.historyCount = min cs.length 5
  history : Rotated s.history cs
  smoothedHistory : Rotated s.smoothedHistory (medians cs)

theorem windowed_gkSensorInit : Windowed (gkSensorInit : SensorState K) [] :=
  ⟨rfl, rfl, rfl, rotated_nil, rotated_nil⟩

/-- **Step lemma.** A reading shows what it should, and the buffers have it. -/
theorem Windowed.read (h : Windowed s cs) (raw : Channels K) (posix : UInt32) :
    ∃ s', gkSensorReadData s (some raw) posix =
        ((oprtOk, some ⟨filtered (cs ++ [s.calibrated raw]), posix⟩), s') ∧
      Windowed s' (cs ++ [s.calibrated raw]) := by
  set c := s.calibrated raw with hc
  have hlen : (cs ++ [c]).length = cs.length + 1 := by simp
  have hcount : (if s.historyCount < 5 then s.historyCount + 1 else s.historyCount) =
      min (cs ++ [c]).length 5 := by
    rw [h.historyCount, hlen]
    split_ifs <;> omega
  have hhistory : Rotated (Function.update s.history (Fin.ofNat 5 s.historyIndex) c)
      (cs ++ [c]) := by
    rw [h.historyIndex]
    exact h.history.update c
  have hmedian := calculateMedian_channelValues hhistory
  have hsmoothed : Rotated (Function.update s.smoothedHistory (Fin.ofNat 5 s.historyIndex)
      (median (lastN 5 (cs ++ [c])))) (medians (cs ++ [c])) := by
    rw [medians_concat, h.historyIndex, ← length_medians cs]
    exact h.smoothedHistory.update _
  have hmean := sum_channelValues hsmoothed
  rw [length_medians] at hmean
  have hsmooth : (if min (cs ++ [c]).length 5 < 5 then min (cs ++ [c]).length 5 else 5) =
      min (cs ++ [c]).length 5 := by
    split_ifs <;> omega
  rw [gkSensorReadData, if_neg (by simp [h.isInitialized])]
  simp only [← hc, hcount, hmedian, hsmooth, Nat.add_sub_cancel]
  refine ⟨_, congrArg₂ Prod.mk (congrArg (fun d => (oprtOk, some (ForceData.mk d posix))) ?_) rfl,
    h.isInitialized, ?_, rfl, hhistory, hsmoothed⟩
  · exact hmean
  · rw [hlen, ← h.historyIndex]

theorem Windowed.congr {s' : SensorState K} (h : Windowed s cs)
    (hinit : s'.isInitialized = s.isInitialized) (hindex : s'.historyIndex = s.historyIndex)
    (hcount : s'.historyCount = s.historyCount) (hhistory : s'.history = s.history)
    (hsmoothed : s'.smoothedHistory = s.smoothedHistory) : Windowed s' cs :=
  ⟨hinit.trans h.isInitialized, hindex.trans h.historyIndex, hcount.trans h.historyCount,
    hhistory ▸ h.history, hsmoothed ▸ h.smoothedHistory⟩

/-- **Run lemma.** The buffers after a run. -/
theorem Windowed.foldl (h : Windowed s cs) (calls : List (SensorCall K)) :
    Windowed (calls.foldl (sensorNext R) s) (cs ++ readings R s calls) := by
  induction calls generalizing s cs with
  | nil =>
    rw [readings, List.append_nil]
    exact h
  | cons call calls ih =>
    cases call with
    | read raw posix =>
      cases raw with
      | none =>
        refine ih ?_
        rw [sensorNext, gkSensorReadData, if_neg (by simp [h.isInitialized])]
        exact h
      | some raw =>
        obtain ⟨s', heq, hs'⟩ := h.read raw posix
        have hnext : sensorNext R s (.read (some raw) posix) = s' := by rw [sensorNext, heq]
        rw [List.foldl_cons, readings, hnext, ← List.append_assoc]
        exact ih hs'
    | calculate forceData =>
      refine ih ?_
      obtain ⟨hitCount, maxForceSession, heq⟩ :=
        exists_gkCalculateHitPoint_snd_eq R s forceData
      rw [sensorNext, heq]
      exact h.congr rfl rfl rfl rfl rfl
    | calibrate samples => exact ih (h.congr rfl rfl rfl rfl rfl)
    | resetSessionStats => exact ih (h.congr rfl rfl rfl rfl rfl)

theorem readings_concat (s : SensorState K) (calls : List (SensorCall K)) (call : SensorCall K) :
    readings R s (calls ++ [call]) =
      readings R s calls ++ (calls.foldl (sensorNext R) s).reading call := by
  induction calls generalizing s with
  | nil => simp [readings]
  | cons call' calls ih =>
    rw [List.cons_append, readings, readings, ih, List.foldl_cons, List.append_assoc]

/-- **Filters.** After `gk_sensor_init` and any calls, a reading shows for every channel the mean of
the last five medians, each of them of the last five calibrated readings, or of as many as there
have been. The counter `history_index` is an `int`, which does not wrap below `2 ^ 31` readings. -/
theorem gkSensorReadData_eq_filtered (R : SquareRoot K) (calls : List (SensorCall K))
    (raw : Channels K) (posix : UInt32) :
    (gkSensorReadData (sensorAfter R calls) (some raw) posix).1 =
      (oprtOk, some ⟨filtered
        (readings R gkSensorInit (calls ++ [.read (some raw) posix])), posix⟩) := by
  obtain ⟨s', heq, -⟩ := (windowed_gkSensorInit.foldl calls).read raw posix
  rw [List.nil_append] at heq
  rw [sensorAfter, heq, readings_concat, SensorState.reading]

end Filters

end TuyaOpen.GkBag
