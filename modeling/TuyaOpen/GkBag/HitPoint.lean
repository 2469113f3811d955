import TuyaOpen.GkBag.ForceSensor
import Mathlib.Tactic.LinearCombination

/-!
# Hit points on the bag

`gk_calculate_hit_point` reads the line of action of a blow off the force and the moment that the
sensor shows: the points whose moment about the origin differs from the compensated moment only
along the force. The parameter `k1` picks a point of it. It is the intersection with the circle of
`10` cm about the axis that is reached first along the force where there is one, and otherwise the
point of the line nearest to the axis. The coordinates are then exchanged, turned into centimetres
and cut off at `15`.

A cut-off changes nothing on the circle. Off the circle it can: a nearest point one metre away
from the axis is reported `15` cm away.
-/

namespace TuyaOpen.GkBag

open Matrix

/-! ### The line of action -/

section Line

variable {K : Type*} [Field K] {F tau p : Fin 3 → K}

theorem onLineOfAction_iff (hF : normSq F ≠ 0) :
    OnLineOfAction F tau p ↔ ∃ t : K, p = t • F + gammaPerp F tau := by
  constructor
  · rintro ⟨l, hl⟩
    have hcoord (i : Fin 3) := congrFun hl i
    simp only [cross_apply, Pi.sub_apply, Pi.smul_apply, smul_eq_mul] at hcoord
    have h0 := hcoord 0
    have h1 := hcoord 1
    have h2 := hcoord 2
    simp only [cons_val_zero, cons_val_one, cons_val] at h0 h1 h2
    refine ⟨(F 0 * p 0 + F 1 * p 1 + F 2 * p 2) / normSq F, ?_⟩
    ext i
    fin_cases i <;>
      simp only [Fin.zero_eta, Fin.mk_one, Fin.reduceFinMk, Pi.add_apply, Pi.smul_apply, gammaPerp,
        cons_val_zero, cons_val_one, cons_val, smul_eq_mul] <;>
      field_simp <;> rw [normSq]
    · linear_combination F 1 * h2 - F 2 * h1
    · linear_combination F 2 * h0 - F 0 * h2
    · linear_combination F 0 * h1 - F 1 * h0
  · rintro ⟨t, rfl⟩
    refine ⟨(F 0 * tau 0 + F 1 * tau 1 + F 2 * tau 2) / normSq F, ?_⟩
    ext i
    fin_cases i <;>
      simp only [Fin.zero_eta, Fin.mk_one, Fin.reduceFinMk, cross_apply, Pi.add_apply,
        Pi.sub_apply, Pi.smul_apply, gammaPerp, cons_val_zero, cons_val_one, cons_val,
        smul_eq_mul] <;>
      field_simp <;> rw [normSq] <;> ring

theorem four_mul_horizontalSq_sub (t : K) (F g : Fin 3 → K) :
    4 * horizontalSq F * (horizontalSq (t • F + g) - 0.10 * 0.10) =
      (2 * horizontalSq F * t + 2 * (F 0 * g 0 + F 1 * g 1)) ^ 2 - discriminant F g := by
  simp only [horizontalSq, discriminant, Pi.add_apply, Pi.smul_apply, smul_eq_mul]
  ring

end Line

/-! ### The parameter -/

section Parameter

variable {K : Type*} [Field K] [LinearOrder K] {R : SquareRoot K} {F g : Fin 3 → K}

theorem hitParameter_of_nonneg (ha : (1e-6 : K) ≤ horizontalSq F) (hd : 0 ≤ discriminant F g) :
    hitParameter R F g =
      (-(2 * (F 0 * g 0 + F 1 * g 1)) - R.sqrtf (discriminant F g)) / (2 * horizontalSq F) :=
  (if_neg (not_lt.2 ha)).trans (if_pos hd)

theorem hitParameter_of_neg (ha : (1e-6 : K) ≤ horizontalSq F) (hd : discriminant F g < 0) :
    hitParameter R F g = -(F 0 * g 0 + F 1 * g 1) / horizontalSq F :=
  (if_neg (not_lt.2 ha)).trans (if_neg (not_le.2 hd))

variable [IsStrictOrderedRing K]

theorem horizontalSq_pos (ha : (1e-6 : K) ≤ horizontalSq F) : 0 < horizontalSq F :=
  lt_of_lt_of_le (by norm_num) ha

theorem horizontalSq_hitParameter (ha : (1e-6 : K) ≤ horizontalSq F)
    (hd : 0 ≤ discriminant F g) :
    horizontalSq (hitParameter R F g • F + g) = 0.10 * 0.10 := by
  have hpos := horizontalSq_pos ha
  have hroot := R.sqrtf_mul_self _ hd
  have hlin : 2 * horizontalSq F * hitParameter R F g + 2 * (F 0 * g 0 + F 1 * g 1) =
      -R.sqrtf (discriminant F g) := by
    rw [hitParameter_of_nonneg ha hd]
    field_simp
    ring
  have hzero := four_mul_horizontalSq_sub (hitParameter R F g) F g
  rw [hlin, neg_sq, pow_two, hroot, sub_self] at hzero
  exact sub_eq_zero.1 ((mul_eq_zero.1 hzero).resolve_left (by positivity))

theorem hitParameter_le (ha : (1e-6 : K) ≤ horizontalSq F) (hd : 0 ≤ discriminant F g) {t : K}
    (ht : horizontalSq (t • F + g) = 0.10 * 0.10) : hitParameter R F g ≤ t := by
  have hpos := horizontalSq_pos ha
  have hsq := four_mul_horizontalSq_sub t F g
  rw [ht, sub_self, mul_zero] at hsq
  have hle : -R.sqrtf (discriminant F g) ≤
      2 * horizontalSq F * t + 2 * (F 0 * g 0 + F 1 * g 1) := by
    refine neg_le.1 (@le_sqrtf K _ _ R _ _ _ (le_of_eq ?_))
    linear_combination -hsq
  rw [hitParameter_of_nonneg ha hd, div_le_iff₀ (by positivity)]
  linarith

theorem horizontalSq_hitParameter_lt (ha : (1e-6 : K) ≤ horizontalSq F)
    (hd : discriminant F g < 0) {t : K} (ht : t ≠ hitParameter R F g) :
    horizontalSq (hitParameter R F g • F + g) < horizontalSq (t • F + g) := by
  have hpos := horizontalSq_pos ha
  have hk : horizontalSq F * hitParameter R F g = -(F 0 * g 0 + F 1 * g 1) := by
    rw [hitParameter_of_neg ha hd]
    field_simp
  have hgap : horizontalSq (t • F + g) - horizontalSq (hitParameter R F g • F + g) =
      horizontalSq F * (t - hitParameter R F g) ^ 2 := by
    have hsub : horizontalSq (t • F + g) - horizontalSq (hitParameter R F g • F + g) =
        (t - hitParameter R F g) *
          (horizontalSq F * t + horizontalSq F * hitParameter R F g +
            2 * (F 0 * g 0 + F 1 * g 1)) := by
      simp only [horizontalSq, Pi.add_apply, Pi.smul_apply, smul_eq_mul]
      ring
    rw [hsub, hk]
    linear_combination (t - hitParameter R F g) * hk
  rw [← sub_pos, hgap]
  have := sub_ne_zero.2 ht
  positivity

end Parameter

/-! ### The reported point -/

section Report

variable {K : Type*} [Field K] [LinearOrder K] [IsStrictOrderedRing K] {R : SquareRoot K}

theorem clampCm_of_sq_le {v : K} (h : v * v ≤ 10 ^ 2) : clampCm v = v := by
  have hv : |v| ≤ 10 := by
    rw [← sq_le_sq₀ (abs_nonneg v) (by norm_num), sq_abs, pow_two]
    exact h
  obtain ⟨hlo, hhi⟩ := abs_le.1 hv
  rw [clampCm, min_eq_right (by linarith), max_eq_right (by linarith)]

theorem normSq_ge {F : Fin 3 → K} (h : forceThreshold ≤ R.sqrtf (normSq F)) :
    25 ≤ normSq F := by
  have h5 : (5 : K) ≤ R.sqrtf (normSq F) := h
  have hnonneg : 0 ≤ normSq F := by
    have h0 := mul_self_nonneg (F 0)
    have h1 := mul_self_nonneg (F 1)
    have h2 := mul_self_nonneg (F 2)
    rw [normSq]
    positivity
  rw [← R.sqrtf_mul_self _ hnonneg]
  nlinarith

theorem gkCalculateHitPoint_of_threshold_le (s : SensorState K) {forceData : ForceData K}
    (h : forceThreshold ≤ R.sqrtf (normSq forceData.force)) :
    let g := gammaPerp forceData.force forceData.compensatedMoment
    let gamma := hitParameter R forceData.force g • forceData.force + g
    (gkCalculateHitPoint R s forceData).1 = (oprtOk, some
      { x := clampCm (gamma 1 * 100)
        y := clampCm (gamma 0 * 100)
        force := R.sqrtf (normSq forceData.force)
        timestamp := forceData.timestamp }) := by
  have heps : ¬normSq forceData.force < 1e-6 := by
    have := normSq_ge h
    refine not_lt.2 (le_trans ?_ this)
    norm_num
  have hno : ¬(R.sqrtf (normSq forceData.force) < forceThreshold ∨
      normSq forceData.force < 1e-6) := by
    rintro (hlt | hlt)
    · exact absurd h (not_le.2 hlt)
    · exact heps hlt
  intro g gamma
  exact congrArg Prod.fst (if_neg hno)

theorem clampCm_le (v : K) : clampCm v ≤ 15 :=
  max_le (by linarith) (min_le_left 15 v)

end Report

/-! ### Points of the line of action -/

section Main

variable (s : SensorState ℝ) {forceData : ForceData ℝ}

/-- **The reported point.** A blow of at least the threshold whose force is not vertical is
reported with the coordinates of a point of its line of action. If the discriminant is not negative,
these are on the circle of `10` cm, and every other point of the line above this circle is further
along the force. If it is negative, the point is nearer to the axis than every other one of the
line, and its coordinates are cut off at `15` cm. -/
theorem gkCalculateHitPoint_onLine
    (hforce : forceThreshold ≤ realRoot.sqrtf (normSq forceData.force))
    (ha : 1e-6 ≤ horizontalSq forceData.force) :
    ∃ hit p, (gkCalculateHitPoint realRoot s forceData).1 = (oprtOk, some hit) ∧
      OnLineOfAction forceData.force forceData.compensatedMoment p ∧
      (0 ≤ discriminant forceData.force
          (gammaPerp forceData.force forceData.compensatedMoment) →
        hit.x = p 1 * 100 ∧ hit.y = p 0 * 100 ∧ hit.x * hit.x + hit.y * hit.y = 10 ^ 2 ∧
          ∀ q, OnLineOfAction forceData.force forceData.compensatedMoment q →
            horizontalSq q = 0.10 * 0.10 → ∃ t : ℝ, 0 ≤ t ∧ q = t • forceData.force + p) ∧
      (discriminant forceData.force
          (gammaPerp forceData.force forceData.compensatedMoment) < 0 →
        hit.x = clampCm (p 1 * 100) ∧ hit.y = clampCm (p 0 * 100) ∧
          ∀ q, OnLineOfAction forceData.force forceData.compensatedMoment q → q ≠ p →
            horizontalSq p < horizontalSq q) := by
  have hF : normSq forceData.force ≠ 0 := by
    have := normSq_ge hforce
    positivity
  set F := forceData.force
  set tau := forceData.compensatedMoment
  set k1 := hitParameter realRoot F (gammaPerp F tau) with hk1
  refine ⟨_, k1 • F + gammaPerp F tau, gkCalculateHitPoint_of_threshold_le s hforce,
    (onLineOfAction_iff hF).2 ⟨k1, rfl⟩, fun hd => ?_, fun hd => ⟨rfl, rfl, fun q hq hne => ?_⟩⟩
  · have hcircle := horizontalSq_hitParameter (R := realRoot) ha hd
    rw [← hk1] at hcircle
    generalize hp : k1 • F + gammaPerp F tau = p at hcircle
    rw [horizontalSq] at hcircle
    have h0 := mul_self_nonneg (p 0)
    have h1 := mul_self_nonneg (p 1)
    have hx : clampCm (p 1 * 100) = p 1 * 100 := clampCm_of_sq_le (by linarith)
    have hy : clampCm (p 0 * 100) = p 0 * 100 := clampCm_of_sq_le (by linarith)
    refine ⟨hx, hy, ?_, fun q hq hcq => ?_⟩
    · dsimp only
      rw [hx, hy]
      linarith
    · obtain ⟨t, rfl⟩ := (onLineOfAction_iff hF).1 hq
      refine ⟨t - k1, sub_nonneg.2 (hitParameter_le ha hd hcq), ?_⟩
      rw [← hp, sub_smul]
      abel
  · obtain ⟨t, rfl⟩ := (onLineOfAction_iff hF).1 hq
    refine horizontalSq_hitParameter_lt ha hd fun ht => hne ?_
    rw [ht]

noncomputable def wideBlow : ForceData ℝ := ⟨![forceThreshold, 0, 0, 0, 0, -forceThreshold], 0⟩

theorem force_wideBlow : wideBlow.force = ![5, 0, 0] := by
  simp [wideBlow, ForceData.force, forceThreshold]

theorem gammaPerp_wideBlow :
    gammaPerp wideBlow.force wideBlow.compensatedMoment = ![0, 1, 0.15] := by
  have htau : wideBlow.compensatedMoment = ![0, 0.75, -5] := by
    simp only [ForceData.compensatedMoment, wideBlow, cons_val, forceThreshold]
    norm_num
  rw [force_wideBlow, htau]
  simp only [gammaPerp, normSq, cons_val]
  norm_num

theorem threshold_le_wideBlow :
    forceThreshold ≤ realRoot.sqrtf (normSq wideBlow.force) := by
  refine @le_sqrtf ℝ _ _ realRoot _ _ _ ?_
  rw [force_wideBlow]
  simp only [forceThreshold, normSq, cons_val]
  norm_num

theorem horizontalSq_wideBlow : (1e-6 : ℝ) ≤ horizontalSq wideBlow.force := by
  rw [force_wideBlow]
  norm_num [horizontalSq]

theorem discriminant_wideBlow :
    discriminant wideBlow.force (gammaPerp wideBlow.force wideBlow.compensatedMoment) < 0 := by
  rw [gammaPerp_wideBlow, force_wideBlow]
  norm_num [discriminant, horizontalSq]

/-- A blow for which the report is that of a point above the circle, as above. -/
theorem gkCalculateHitPoint_onLine_wideBlow :
    ∃ hit p, (gkCalculateHitPoint realRoot gkSensorInit wideBlow).1 = (oprtOk, some hit) ∧
      hit.x = clampCm (p 1 * 100) ∧
      OnLineOfAction wideBlow.force wideBlow.compensatedMoment p := by
  obtain ⟨hit, p, hhit, hp, -, hneg⟩ := gkCalculateHitPoint_onLine gkSensorInit
    threshold_le_wideBlow horizontalSq_wideBlow
  exact ⟨hit, p, hhit, (hneg discriminant_wideBlow).1, hp⟩

/-- The coordinates that are reported for the wide blow are those of no point of its line of
action, the nearest one included. -/
theorem not_onLine_wideBlow :
    forceThreshold ≤ realRoot.sqrtf (normSq wideBlow.force) ∧
      1e-6 ≤ horizontalSq wideBlow.force ∧
      discriminant wideBlow.force (gammaPerp wideBlow.force wideBlow.compensatedMoment) < 0 ∧
      ¬∃ hit p, (gkCalculateHitPoint realRoot gkSensorInit wideBlow).1 = (oprtOk, some hit) ∧
        OnLineOfAction wideBlow.force wideBlow.compensatedMoment p ∧
        hit.x = p 1 * 100 ∧ hit.y = p 0 * 100 := by
  refine ⟨threshold_le_wideBlow, horizontalSq_wideBlow, discriminant_wideBlow, ?_⟩
  rintro ⟨hit, p, hhit, hp, hx, -⟩
  have hF : normSq wideBlow.force ≠ 0 := by
    have := normSq_ge threshold_le_wideBlow
    positivity
  obtain ⟨t, rfl⟩ := (onLineOfAction_iff hF).1 hp
  have hle : hit.x ≤ 15 := by
    rw [gkCalculateHitPoint_of_threshold_le gkSensorInit threshold_le_wideBlow] at hhit
    cases hhit
    exact clampCm_le _
  rw [hx, gammaPerp_wideBlow, force_wideBlow] at hle
  norm_num at hle

end Main

end TuyaOpen.GkBag
