import TuyaOpen.Basic.Bytes
import TuyaOpen.Common.OperateRet
import Mathlib.Data.List.GetD
import Mathlib.Analysis.Real.Sqrt
import Mathlib.LinearAlgebra.CrossProduct
import Mathlib.Tactic.FieldSimp
import Mathlib.Tactic.NormNum

/-!
# The force sensor of the punching bag

`force_sensor.c` of the application `gk_bag`: a reading of the sensor is calibrated, filtered by a
median and by a moving average over five readings, and counts as a hit when its force is at least
`FORCE_THRESHOLD`.

The weight of the bag is in every reading: at rest it is `-9.81` in the direction of `fz`.
`gk_sensor_init` sets the offset of `fz` to `9.81` and `gk_sensor_calibrate` adds `9.81` to the
reading at rest, and the offset is subtracted from a reading. Neither takes the weight away: what
is left is `-19.62` or `-9.81`, and the sensor reports hits at rest.

The arithmetic is exact: the numbers are those of an ordered field with square roots.
-/

namespace TuyaOpen.GkBag

/-! ### Sorting -/

section Sorting

variable {α : Type*} [LinearOrder α]

/-- The inner loop of `calculate_median`: neighbours at the first `m` positions are swapped when
they are not in order. -/
def bubblePass : Nat → List α → List α
  | m + 1, x :: y :: xs =>
    if y < x then y :: bubblePass m (x :: xs) else x :: bubblePass m (y :: xs)
  | _, xs => xs

/-- The sorted array of `calculate_median`. -/
def bubbleSort (values : List α) : List α :=
  (List.range (values.length - 1)).foldl
    (fun tempArray i => bubblePass (values.length - i - 1) tempArray) values

theorem perm_bubblePass (m : Nat) (xs : List α) : (bubblePass m xs).Perm xs := by
  fun_induction bubblePass m xs with
  | case1 m x y xs hlt ih => exact (ih.cons y).trans (List.Perm.swap x y xs)
  | case2 m x y xs hlt ih => exact ih.cons x
  | case3 xs => exact List.Perm.refl _

theorem perm_bubbleSort (values : List α) : (bubbleSort values).Perm values := by
  have h (is : List Nat) (xs : List α) (n : Nat) :
      (is.foldl (fun tempArray i => bubblePass (n - i - 1) tempArray) xs).Perm xs := by
    induction is generalizing xs with
    | nil => exact List.Perm.refl _
    | cons i is ih => exact (ih _).trans (perm_bubblePass _ _)
  exact h _ _ _

end Sorting

/-! ### Buffers -/

section Buffers

variable {α : Type*} {buffer : Fin 5 → α} {index n : Nat} {c : α}

/-- A buffer that has been written at `n` positions from an index on holds a value there. -/
def Filled (buffer : Fin 5 → α) (index n : Nat) (c : α) : Prop :=
  ∀ m < n, buffer (Fin.ofNat 5 (index + m)) = c

theorem Filled.update (h : Filled buffer index n c) :
    Filled (Function.update buffer (Fin.ofNat 5 (index + n)) c) index (n + 1) c := by
  intro m hm
  by_cases heq : Fin.ofNat 5 (index + m) = Fin.ofNat 5 (index + n)
  · rw [heq, Function.update_self]
  · have hne : m ≠ n := fun h => heq (by rw [h])
    rw [Function.update_of_ne heq]
    exact h m (by omega)

theorem Filled.all (h : Filled buffer index n c) (hn : 5 ≤ n) (k : Fin 5) : buffer k = c := by
  have hk : Fin.ofNat 5 (index + (k.1 + 5 - index % 5) % 5) = k := by
    ext
    simp only [Fin.ofNat]
    omega
  rw [← hk]
  exact h _ (by omega)

end Buffers

/-! ### The functions -/

/-- The function `sqrtf` in exact arithmetic. -/
structure SquareRoot (K : Type*) [Mul K] [Zero K] [LE K] where
  sqrtf : K → K
  sqrtf_nonneg : ∀ x, 0 ≤ sqrtf x
  sqrtf_mul_self : ∀ x, 0 ≤ x → sqrtf x * sqrtf x = x

variable {K : Type*} [Field K] [LinearOrder K]

/-- The three forces and the three torques of a reading: `fx`, `fy`, `fz`, `mx`, `my`, `mz`. -/
abbrev Channels (K : Type*) := Fin 6 → K

/-- `gk_force_data_t`. -/
structure ForceData (K : Type*) where
  channels : Channels K
  timestamp : UInt32

/-- `gk_hit_point_t`, without the field that is not written. -/
structure HitPoint (K : Type*) where
  x : K
  y : K
  force : K
  timestamp : UInt32

/-- `g_sensor_cal` and `g_sensor_state`, without the fields that are not read. -/
structure SensorState (K : Type*) where
  offset : Channels K
  scale : Channels K
  isInitialized : Bool
  hitCount : UInt32
  maxForceSession : K
  history : Fin 5 → Channels K
  smoothedHistory : Fin 5 → Channels K
  historyIndex : Nat
  historyCount : Nat

/-- `FORCE_THRESHOLD`. -/
def forceThreshold : K := 5

/-- `gk_sensor_init`. -/
def gkSensorInit : SensorState K where
  offset := fun i => if i = 2 then 9.81 else 0
  scale := fun _ => 1
  isInitialized := true
  hitCount := 0
  maxForceSession := 0
  history := fun _ _ => 0
  smoothedHistory := fun _ _ => 0
  historyIndex := 0
  historyCount := 0

/-- `calculate_median`. -/
def calculateMedian (values : List K) : K := (bubbleSort values).getD (values.length / 2) 0

def SensorState.calibrated (s : SensorState K) (raw : Channels K) : Channels K :=
  fun i => (raw i - s.offset i) * s.scale i

/-- The first `count` values of a channel of a buffer. -/
def channelValues (buffer : Fin 5 → Channels K) (count : Nat) (i : Fin 6) : List K :=
  ((List.finRange 5).take count).map fun k => buffer k i

/-- `gk_sensor_read_data`, with what `read_raw_sensor_data` and `tal_time_get_posix` give. -/
def gkSensorReadData (s : SensorState K) (raw : Option (Channels K)) (posix : UInt32) :
    (OperateRet × Option (ForceData K)) × SensorState K :=
  if s.isInitialized = false then ((oprtInvalidParm, none), s)
  else
    match raw with
    | none => ((oprtComError, none), s)
    | some raw =>
      let idx := Fin.ofNat 5 s.historyIndex
      let history := Function.update s.history idx (s.calibrated raw)
      let historyIndex := s.historyIndex + 1
      let historyCount := if s.historyCount < 5 then s.historyCount + 1 else s.historyCount
      let medianFiltered : Channels K := fun i =>
        calculateMedian (channelValues history historyCount i)
      let smoothIdx := Fin.ofNat 5 (historyIndex - 1)
      let smoothedHistory := Function.update s.smoothedHistory smoothIdx medianFiltered
      let smoothCount := if historyCount < 5 then historyCount else 5
      let smoothedData : Channels K := fun i =>
        (channelValues smoothedHistory smoothCount i).sum / smoothCount
      ((oprtOk, some ⟨smoothedData, posix⟩),
        { s with
          history := history
          smoothedHistory := smoothedHistory
          historyIndex := historyIndex
          historyCount := historyCount })

/-- The parameter `k1` of `gk_calculate_hit_point`. -/
def hitParameter (R : SquareRoot K) (F gammaPerp : Fin 3 → K) : K :=
  let eps : K := 1e-6
  let radius : K := 0.10
  let a := F 0 * F 0 + F 1 * F 1
  let b := 2 * (F 0 * gammaPerp 0 + F 1 * gammaPerp 1)
  let c := gammaPerp 0 * gammaPerp 0 + gammaPerp 1 * gammaPerp 1 - radius * radius
  if a < eps then -(F 2 * gammaPerp 2) / (F 2 * F 2 + eps)
  else
    let discriminant := b * b - 4 * a * c
    if 0 ≤ discriminant then (-b - R.sqrtf discriminant) / (2 * a)
    else -(F 0 * gammaPerp 0 + F 1 * gammaPerp 1) / a

/-- `gk_calculate_hit_point`. -/
def gkCalculateHitPoint (R : SquareRoot K) (s : SensorState K) (forceData : ForceData K) :
    (OperateRet × Option (HitPoint K)) × SensorState K :=
  let F : Fin 3 → K := ![forceData.channels 0, forceData.channels 1, forceData.channels 2]
  let tau : Fin 3 → K :=
    ![forceData.channels 3 + F 1 * 0.20, forceData.channels 4 + F 0 * 0.15, forceData.channels 5]
  let fNormSq := F 0 * F 0 + F 1 * F 1 + F 2 * F 2
  let eps : K := 1e-6
  let forceMagnitude := R.sqrtf fNormSq
  if forceMagnitude < forceThreshold ∨ fNormSq < eps then ((oprtComError, none), s)
  else
    let gammaPerp : Fin 3 → K :=
      ![(F 1 * tau 2 - F 2 * tau 1) / fNormSq, (F 2 * tau 0 - F 0 * tau 2) / fNormSq,
        (F 0 * tau 1 - F 1 * tau 0) / fNormSq]
    let k1 := hitParameter R F gammaPerp
    let gamma : Fin 3 → K := fun i => k1 * F i + gammaPerp i
    ((oprtOk, some
        { x := max (-15) (min 15 (gamma 1 * 100))
          y := max (-15) (min 15 (gamma 0 * 100))
          force := forceMagnitude
          timestamp := forceData.timestamp }),
      { s with
        hitCount := s.hitCount + 1
        maxForceSession :=
          if s.maxForceSession < forceMagnitude then forceMagnitude else s.maxForceSession })

/-- `gk_sensor_reset_session_stats`. -/
def gkSensorResetSessionStats (s : SensorState K) : SensorState K :=
  { s with hitCount := 0, maxForceSession := 0 }

def calSamples : Nat := 100

/-- `gk_sensor_calibrate`, with what `read_raw_sensor_data` gives for each sample. -/
def gkSensorCalibrate (s : SensorState K) (samples : Fin calSamples → Option (Channels K)) :
    OperateRet × SensorState K :=
  let sum : Channels K := (List.ofFn samples).foldl
    (fun sum raw =>
      match raw with
      | some raw => fun i => sum i + raw i
      | none => sum)
    fun _ => 0
  (oprtOk,
    { s with
      offset := fun i => if i = 2 then sum i / calSamples - -9.81 else sum i / calSamples })

/-! ### The line of action -/

section Line

open Matrix

variable {K : Type*} [Field K]

def normSq (F : Fin 3 → K) : K := F 0 * F 0 + F 1 * F 1 + F 2 * F 2

/-- The square of the horizontal part of a vector: of its distance from the axis of the bag, for a
point. -/
def horizontalSq (v : Fin 3 → K) : K := v 0 * v 0 + v 1 * v 1

/-- A point of the line of action of a force: its moment about the origin differs from the moment
`tau` only along the force. -/
def OnLineOfAction (F tau p : Fin 3 → K) : Prop := ∃ l : K, p ⨯₃ F = tau - l • F

/-- `gamma_perp`: the cross product of force and moment over the square of the force. -/
def gammaPerp (F tau : Fin 3 → K) : Fin 3 → K :=
  ![(F 1 * tau 2 - F 2 * tau 1) / normSq F, (F 2 * tau 0 - F 0 * tau 2) / normSq F,
    (F 0 * tau 1 - F 1 * tau 0) / normSq F]

/-- The `discriminant` of the quadratic equation of `gk_calculate_hit_point`. -/
def discriminant (F g : Fin 3 → K) : K :=
  let b := 2 * (F 0 * g 0 + F 1 * g 1)
  b * b - 4 * horizontalSq F * (horizontalSq g - 0.10 * 0.10)

/-- The vector `F` of `gk_calculate_hit_point`. -/
def ForceData.force (forceData : ForceData K) : Fin 3 → K :=
  ![forceData.channels 0, forceData.channels 1, forceData.channels 2]

/-- The vector `tau` of `gk_calculate_hit_point`, after the compensation of the offset. -/
def ForceData.compensatedMoment (forceData : ForceData K) : Fin 3 → K :=
  ![forceData.channels 3 + forceData.channels 1 * 0.20,
    forceData.channels 4 + forceData.channels 0 * 0.15, forceData.channels 5]

/-- The cut-off of a coordinate at `15` cm. -/
def clampCm [LinearOrder K] (v : K) : K := max (-15) (min 15 v)

end Line

/-! ### Runs -/

/-- A call of a function of the sensor, with what it reads. -/
inductive SensorCall (K : Type*)
  | read (raw : Option (Channels K)) (posix : UInt32)
  | calculate (forceData : ForceData K)
  | calibrate (samples : Fin calSamples → Option (Channels K))
  | resetSessionStats

def sensorNext (R : SquareRoot K) (s : SensorState K) : SensorCall K → SensorState K
  | .read raw posix => (gkSensorReadData s raw posix).2
  | .calculate forceData => (gkCalculateHitPoint R s forceData).2
  | .calibrate samples => (gkSensorCalibrate s samples).2
  | .resetSessionStats => gkSensorResetSessionStats s

/-- The sensor after `gk_sensor_init` and some calls. -/
def sensorAfter (R : SquareRoot K) (calls : List (SensorCall K)) : SensorState K :=
  calls.foldl (sensorNext R) gkSensorInit

def readAndCalculate (R : SquareRoot K) (s : SensorState K) (raw : Channels K) (posix : UInt32) :
    OperateRet × SensorState K :=
  match gkSensorReadData s (some raw) posix with
  | ((_, some forceData), s) =>
    let r := gkCalculateHitPoint R s forceData
    (r.1.1, r.2)
  | ((rt, none), s) => (rt, s)

def steady (R : SquareRoot K) (s : SensorState K) (raw : Channels K) (times : List UInt32) :
    SensorState K :=
  times.foldl (fun s posix => (readAndCalculate R s raw posix).2) s

def NoPhantom (R : SquareRoot K) (s : SensorState K) (baseline : Channels K) : Prop :=
  ∀ times posix,
    let s' := steady R s baseline times
    let r := readAndCalculate R s' baseline posix
    r.1 = oprtComError ∧ r.2.hitCount = s'.hitCount ∧ r.2.maxForceSession = s'.maxForceSession

def nominalRest : Channels K := fun i => if i = 2 then -9.81 else 0

def calibratedAt (s : SensorState K) (baseline : Channels K) : SensorState K :=
  (gkSensorCalibrate s fun _ => some baseline).2

/-! ### The filters -/

section Filters

variable {s : SensorState K} {R : SquareRoot K} {raw c : Channels K} {posix : UInt32}

theorem calculateMedian_mem {values : List K} (h : values ≠ []) :
    calculateMedian values ∈ values := by
  have hperm := perm_bubbleSort values
  have hlt : values.length / 2 < (bubbleSort values).length := by
    rw [hperm.length_eq]
    have := List.length_pos_iff.2 h
    omega
  rw [calculateMedian, List.getD_eq_getElem _ _ hlt]
  exact hperm.subset (List.getElem_mem hlt)

omit [Field K] [LinearOrder K] in
theorem channelValues_of_forall {buffer : Fin 5 → Channels K} (h : ∀ k, buffer k = c)
    {count : Nat} (hcount : 5 ≤ count) (i : Fin 6) :
    channelValues buffer count i = List.replicate 5 (c i) := by
  rw [channelValues, List.take_of_length_le (by simpa using hcount)]
  simp [h, List.finRange]

theorem exists_gkSensorReadData_eq (h : s.isInitialized = true) (raw : Channels K)
    (posix : UInt32) :
    ∃ data s', gkSensorReadData s (some raw) posix = ((oprtOk, some ⟨data, posix⟩), s') ∧
      s'.isInitialized = true ∧ s'.offset = s.offset ∧ s'.scale = s.scale ∧
      s'.historyIndex = s.historyIndex + 1 ∧ min (s.historyCount + 1) 5 ≤ s'.historyCount ∧
      s'.history =
        Function.update s.history (Fin.ofNat 5 s.historyIndex) (s.calibrated raw) ∧
      s'.smoothedHistory = Function.update s.smoothedHistory (Fin.ofNat 5 s.historyIndex)
        (fun i => calculateMedian (channelValues s'.history s'.historyCount i)) ∧
      (5 ≤ s'.historyCount →
        data = fun i => (channelValues s'.smoothedHistory 5 i).sum / 5) := by
  rw [gkSensorReadData, if_neg (by simp [h])]
  refine ⟨_, _, rfl, h, rfl, rfl, rfl, ?_, rfl, rfl, fun hcount => ?_⟩
  · dsimp only
    split_ifs <;> omega
  · dsimp only at hcount ⊢
    funext i
    rw [if_neg (Nat.not_lt.2 hcount)]
    norm_num

theorem exists_gkCalculateHitPoint_snd_eq (R : SquareRoot K) (s : SensorState K)
    (forceData : ForceData K) :
    ∃ hitCount maxForceSession, (gkCalculateHitPoint R s forceData).2 =
      { s with hitCount := hitCount, maxForceSession := maxForceSession } := by
  rw [gkCalculateHitPoint]
  dsimp only
  split
  next => exact ⟨s.hitCount, s.maxForceSession, rfl⟩
  next => exact ⟨_, _, rfl⟩

/-- The sensor after `n` readings whose calibrated values are `c`. The buffer of the moving average
holds them from the fifth reading on. -/
structure SteadyAfter (s₀ : SensorState K) (c : Channels K) (n : Nat) (s : SensorState K) :
    Prop where
  isInitialized : s.isInitialized = true
  offset : s.offset = s₀.offset
  scale : s.scale = s₀.scale
  historyIndex : s.historyIndex = s₀.historyIndex + n
  historyCount : min n 5 ≤ s.historyCount
  history : Filled s.history s₀.historyIndex n c
  smoothedHistory : Filled s.smoothedHistory (s₀.historyIndex + 4) (n - 4) c

variable {s₀ : SensorState K} {n : Nat}

omit [LinearOrder K] in
theorem calibrated_of_steadyAfter (h : SteadyAfter s₀ (s₀.calibrated raw) n s) :
    s.calibrated raw = s₀.calibrated raw := by
  funext i
  simp only [SensorState.calibrated, h.offset, h.scale]

variable [IsStrictOrderedRing K]

theorem SteadyAfter.read (h : SteadyAfter s₀ (s₀.calibrated raw) n s) (posix : UInt32) :
    ∃ data s', gkSensorReadData s (some raw) posix = ((oprtOk, some ⟨data, posix⟩), s') ∧
      SteadyAfter s₀ (s₀.calibrated raw) (n + 1) s' ∧ (8 ≤ n → data = s₀.calibrated raw) := by
  obtain ⟨data, s', hread, hinit, hoffset, hscale, hindex, hcount, hhist, hsmooth, hdata⟩ :=
    exists_gkSensorReadData_eq h.isInitialized raw posix
  rw [calibrated_of_steadyAfter h, h.historyIndex] at hhist
  rw [h.historyIndex] at hsmooth
  have hcount' : min (n + 1) 5 ≤ s'.historyCount := by
    have := h.historyCount
    omega
  have hhistory : Filled s'.history s₀.historyIndex (n + 1) (s₀.calibrated raw) := by
    rw [hhist]
    exact h.history.update
  have hsmoothed : Filled s'.smoothedHistory (s₀.historyIndex + 4) (n + 1 - 4)
      (s₀.calibrated raw) := by
    by_cases hn : n < 4
    · intro m hm
      omega
    · have hmedian : (fun i => calculateMedian (channelValues s'.history s'.historyCount i)) =
          s₀.calibrated raw := by
        funext i
        rw [channelValues_of_forall (hhistory.all (by omega)) (by omega)]
        exact List.eq_of_mem_replicate (calculateMedian_mem (by simp))
      have hpos : s₀.historyIndex + n = s₀.historyIndex + 4 + (n - 4) := by omega
      have hsucc : n + 1 - 4 = n - 4 + 1 := by omega
      rw [hsmooth, hmedian, hpos, hsucc]
      exact h.smoothedHistory.update
  refine ⟨data, s', hread, ⟨hinit, hoffset.trans h.offset, hscale.trans h.scale, ?_, hcount',
    hhistory, hsmoothed⟩, fun hn => ?_⟩
  · rw [hindex, h.historyIndex, Nat.add_assoc]
  · rw [hdata (by omega)]
    funext i
    rw [channelValues_of_forall (hsmoothed.all (by omega)) le_rfl, List.sum_replicate,
      nsmul_eq_mul]
    norm_num

theorem SteadyAfter.readAndCalculate (h : SteadyAfter s₀ (s₀.calibrated raw) n s)
    (R : SquareRoot K) (posix : UInt32) :
    SteadyAfter s₀ (s₀.calibrated raw) (n + 1) (readAndCalculate R s raw posix).2 := by
  obtain ⟨data, s', hread, hsteady, -⟩ := h.read posix
  rw [GkBag.readAndCalculate, hread]
  dsimp only
  obtain ⟨hitCount, maxForceSession, heq⟩ :=
    exists_gkCalculateHitPoint_snd_eq R s' ⟨data, posix⟩
  rw [heq]
  exact ⟨hsteady.1, hsteady.2, hsteady.3, hsteady.4, hsteady.5, hsteady.6, hsteady.7⟩

theorem steadyAfter_steady (h : SteadyAfter s₀ (s₀.calibrated raw) n s) (R : SquareRoot K)
    (times : List UInt32) :
    SteadyAfter s₀ (s₀.calibrated raw) (n + times.length) (steady R s raw times) := by
  induction times generalizing s n with
  | nil => exact h
  | cons posix times ih =>
    rw [steady, List.foldl_cons, List.length_cons, Nat.add_comm times.length, ← Nat.add_assoc]
    exact ih (h.readAndCalculate R posix)

end Filters

/-! ### Hits at rest -/

section Phantom

variable {s : SensorState K} {R : SquareRoot K} {baseline : Channels K} [IsStrictOrderedRing K]

theorem le_sqrtf {x y : K} (hy : y * y ≤ x) : y ≤ R.sqrtf x := by
  by_contra hlt
  have hx : 0 ≤ x := (mul_self_nonneg y).trans hy
  have := mul_self_lt_mul_self (R.sqrtf_nonneg x) (not_le.1 hlt)
  rw [R.sqrtf_mul_self x hx] at this
  exact absurd hy (not_le.2 this)

theorem gkCalculateHitPoint_of_le (R : SquareRoot K) (s : SensorState K) {forceData : ForceData K}
    (h : 25 ≤ forceData.channels 2 * forceData.channels 2) :
    (gkCalculateHitPoint R s forceData).1.1 = oprtOk := by
  have hx := mul_self_nonneg (forceData.channels 0)
  have hy := mul_self_nonneg (forceData.channels 1)
  have hnorm : (25 : K) ≤ forceData.channels 0 * forceData.channels 0 +
      forceData.channels 1 * forceData.channels 1 +
      forceData.channels 2 * forceData.channels 2 := by linarith
  have hmagnitude := @le_sqrtf K _ _ R _ _ 5 ((by norm_num : (5 : K) * 5 ≤ 25).trans hnorm)
  rw [gkCalculateHitPoint]
  dsimp only
  rw [if_neg]
  rintro (hlt | hlt)
  · exact absurd hmagnitude (not_le.2 hlt)
  · have : (25 : K) < 1e-6 := hnorm.trans_lt hlt
    norm_num at this

theorem not_noPhantom_of_le (h : s.isInitialized = true)
    (hfz : 25 ≤ s.calibrated baseline 2 * s.calibrated baseline 2) :
    ¬NoPhantom R s baseline := by
  intro hno
  have hstart : SteadyAfter s (s.calibrated baseline) 0 s :=
    ⟨h, rfl, rfl, rfl, Nat.zero_le _, fun _ hm => absurd hm (Nat.not_lt_zero _),
      fun _ hm => absurd hm (Nat.not_lt_zero _)⟩
  obtain ⟨data, s', hread, -, hdata⟩ :=
    (steadyAfter_steady hstart R (List.replicate 8 0)).read 0
  have hrt := (hno (List.replicate 8 0) 0).1
  rw [readAndCalculate, hread] at hrt
  dsimp only at hrt
  rw [gkCalculateHitPoint_of_le R s'] at hrt
  · exact absurd hrt.symm oprtComError_ne_ok
  · dsimp only
    rw [hdata (by simp)]
    exact hfz

/-- The sensor has been initialised, and its scales are those of `gk_sensor_init`. -/
def Ready (s : SensorState K) : Prop := s.isInitialized = true ∧ s.scale = fun _ => 1

omit [IsStrictOrderedRing K] in
theorem Ready.next (h : Ready s) (call : SensorCall K) : Ready (sensorNext R s call) := by
  cases call with
  | read raw posix =>
    cases raw with
    | none => simpa [sensorNext, gkSensorReadData, h.1] using h
    | some raw =>
      obtain ⟨data, s', hread, hinit, -, hscale, -⟩ :=
        exists_gkSensorReadData_eq h.1 raw posix
      rw [sensorNext, hread]
      exact ⟨hinit, hscale.trans h.2⟩
  | calculate forceData =>
    obtain ⟨hitCount, maxForceSession, heq⟩ := exists_gkCalculateHitPoint_snd_eq R s forceData
    rw [sensorNext, heq]
    exact h
  | calibrate samples => exact h
  | resetSessionStats => exact h

omit [IsStrictOrderedRing K] in
theorem ready_sensorAfter (R : SquareRoot K) (calls : List (SensorCall K)) :
    Ready (sensorAfter R calls) := by
  have h (s : SensorState K) (hs : Ready s) : Ready (calls.foldl (sensorNext R) s) := by
    induction calls generalizing s with
    | nil => exact hs
    | cons call calls ih => exact ih _ (hs.next call)
  exact h _ ⟨rfl, rfl⟩

omit [LinearOrder K] [IsStrictOrderedRing K] in
theorem foldl_samples (n : Nat) (sum baseline : Channels K) :
    (List.replicate n (some baseline)).foldl
        (fun sum raw =>
          match raw with
          | some raw => fun i => sum i + raw i
          | none => sum) sum =
      fun i => sum i + n * baseline i := by
  induction n generalizing sum with
  | zero => simp
  | succ n ih =>
    rw [List.replicate_succ, List.foldl_cons, ih]
    funext i
    push_cast
    ring

theorem calibrated_calibratedAt (h : Ready s) (baseline : Channels K) :
    (calibratedAt s baseline).calibrated baseline 2 = -9.81 := by
  have hoffset : (calibratedAt s baseline).offset 2 = baseline 2 + 9.81 := by
    have hmean : (calSamples * baseline 2) / (calSamples : K) = baseline 2 := by
      rw [calSamples]
      field_simp
    simp only [calibratedAt, gkSensorCalibrate, if_true, List.ofFn_const, foldl_samples, zero_add,
      hmean, sub_neg_eq_add]
  have hscale : (calibratedAt s baseline).scale 2 = 1 := congrFun h.2 2
  rw [SensorState.calibrated, hoffset, hscale]
  ring

end Phantom

noncomputable def realRoot : SquareRoot ℝ where
  sqrtf := Real.sqrt
  sqrtf_nonneg := Real.sqrt_nonneg
  sqrtf_mul_self _ := Real.mul_self_sqrt

/-- **Hits at rest.** After every run of calls and a calibration at any baseline, a reading of this
baseline is taken for a hit at some time, and so is a reading of the nominal rest after
`gk_sensor_init` alone. -/
theorem not_noPhantom (calls : List (SensorCall ℝ)) (baseline : Channels ℝ) :
    ¬NoPhantom realRoot (calibratedAt (sensorAfter realRoot calls) baseline) baseline ∧
      ¬NoPhantom realRoot gkSensorInit nominalRest := by
  constructor
  · have hready := ready_sensorAfter realRoot calls
    refine not_noPhantom_of_le hready.1 ?_
    rw [calibrated_calibratedAt hready]
    norm_num
  · refine not_noPhantom_of_le rfl ?_
    have hfz : (gkSensorInit : SensorState ℝ).calibrated nominalRest 2 = -19.62 := by
      norm_num [SensorState.calibrated, gkSensorInit, nominalRest]
    rw [hfz]
    norm_num

/-- A calibration at the nominal rest, right after `gk_sensor_init`. -/
theorem not_noPhantom_nominalRest :
    ¬NoPhantom realRoot (calibratedAt gkSensorInit nominalRest) nominalRest := by
  have hready : Ready (gkSensorInit : SensorState ℝ) := ⟨rfl, rfl⟩
  refine not_noPhantom_of_le hready.1 ?_
  rw [calibrated_calibratedAt hready]
  norm_num

end TuyaOpen.GkBag
