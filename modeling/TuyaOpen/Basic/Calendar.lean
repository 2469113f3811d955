import Mathlib.Algebra.Order.Ring.Int
import Mathlib.Logic.Function.Iterate
import Mathlib.Order.Monotone.Basic

/-!
# The proleptic Gregorian calendar

A date is a year, a month and a day that go together. Each date has a next one. Counting the days
from the beginning of the year zero gives every date a number, and the number of the next date is
larger by one. So a date that comes a number of days after another one, or before it, is determined
by the numbers.

## Main results

* `daysBeforeYear_eq`: the number of days before a year in closed form.
* `dayNumber_injective`: different dates have different numbers.
* `daysAfter_iff`: days after a date, by the numbers.
-/

namespace TuyaOpen.Calendar

/-! ### Dates -/

def IsLeap (y : ℕ) : Prop := y % 4 = 0 ∧ (y % 100 = 0 → y % 400 = 0)

instance instDecidableIsLeap (y : ℕ) : Decidable (IsLeap y) := inferInstanceAs (Decidable (_ ∧ _))

def daysInYear (y : ℕ) : ℕ := if IsLeap y then 366 else 365

def daysInMonth (y m : ℕ) : ℕ :=
  if m = 1 then if IsLeap y then 29 else 28
  else if m = 3 ∨ m = 5 ∨ m = 8 ∨ m = 10 then 30
  else 31

/-- A date. Its days are numbered from one. -/
@[ext]
structure Date where
  year : ℕ
  month : ℕ
  day : ℕ
  month_lt : month < 12
  day_pos : 1 ≤ day
  day_le : day ≤ daysInMonth year month

theorem one_le_daysInMonth (y m : ℕ) : 1 ≤ daysInMonth y m := by
  rw [daysInMonth]
  split_ifs
  all_goals decide

theorem daysInMonth_le (y m : ℕ) : daysInMonth y m ≤ 31 := by
  rw [daysInMonth]
  split_ifs
  all_goals decide

def newYear (y : ℕ) : Date := ⟨y, 0, 1, by decide, le_rfl, one_le_daysInMonth y 0⟩

def Date.next (d : Date) : Date :=
  if hday : d.day < daysInMonth d.year d.month then
    ⟨d.year, d.month, d.day + 1, d.month_lt, Nat.le_add_left 1 d.day, hday⟩
  else if hmonth : d.month + 1 < 12 then
    ⟨d.year, d.month + 1, 1, hmonth, le_rfl, one_le_daysInMonth d.year (d.month + 1)⟩
  else newYear (d.year + 1)

/-- The date `d'` comes `n` days after `d`, or before it when `n` is negative. -/
def DaysAfter (n : ℤ) (d d' : Date) : Prop :=
  match n with
  | .ofNat k => Date.next^[k] d = d'
  | .negSucc k => Date.next^[k + 1] d' = d

/-! ### The numbers of dates -/

def daysBeforeYear : ℕ → ℕ
  | 0 => 0
  | y + 1 => daysBeforeYear y + daysInYear y

def daysBeforeMonth (y : ℕ) : ℕ → ℕ
  | 0 => 0
  | m + 1 => daysBeforeMonth y m + daysInMonth y m

def Date.dayNumber (d : Date) : ℕ :=
  daysBeforeYear d.year + daysBeforeMonth d.year d.month + (d.day - 1)

section Numbers

variable {d d' : Date} {y m n : ℕ}

theorem daysBeforeYear_succ (y : ℕ) : daysBeforeYear (y + 1) = daysBeforeYear y + daysInYear y :=
  rfl

theorem daysBeforeYear_succ_eq (y : ℕ) :
    daysBeforeYear (y + 1) + y / 100 = 365 * (y + 1) + y / 4 + y / 400 + 1 := by
  induction y with
  | zero => rfl
  | succ y ih =>
    rw [daysBeforeYear, daysInYear]
    split_ifs with hleap
    all_goals
      simp only [IsLeap] at hleap
      omega

theorem daysBeforeYear_eq {n : ℕ} (h : n = y + 1) :
    daysBeforeYear n + y / 100 = 365 * n + y / 4 + y / 400 + 1 := by
  rw [h]
  exact daysBeforeYear_succ_eq y

theorem leap_counts (y : ℕ) :
    (y + 1) / 4 + (y + 1) / 400 + y / 100 =
      y / 4 + y / 400 + (y + 1) / 100 + if IsLeap (y + 1) then 1 else 0 := by
  split_ifs with hleap
  all_goals
    simp only [IsLeap] at hleap
    omega

theorem daysBeforeMonth_twelve (y : ℕ) : daysBeforeMonth y 12 = daysInYear y := by
  by_cases h : IsLeap y
  all_goals simp [daysBeforeMonth, daysInMonth, daysInYear, h]

theorem daysBeforeMonth_mono (y : ℕ) : Monotone (daysBeforeMonth y) :=
  monotone_nat_of_le_succ fun _ => Nat.le_add_right _ _

theorem daysBeforeYear_mono : Monotone daysBeforeYear :=
  monotone_nat_of_le_succ fun _ => Nat.le_add_right _ _

theorem Date.day_sub_one_lt (d : Date) :
    daysBeforeMonth d.year d.month + (d.day - 1) < daysBeforeMonth d.year (d.month + 1) := by
  have hpos := d.day_pos
  have hle := d.day_le
  rw [daysBeforeMonth]
  omega

theorem Date.dayNumber_lt (d : Date) : d.dayNumber < daysBeforeYear (d.year + 1) := by
  have hday := d.day_sub_one_lt
  have hmonth : daysBeforeMonth d.year (d.month + 1) ≤ daysBeforeMonth d.year 12 :=
    daysBeforeMonth_mono d.year d.month_lt
  rw [daysBeforeMonth_twelve] at hmonth
  rw [Date.dayNumber, daysBeforeYear]
  omega

theorem Date.le_dayNumber (d : Date) : daysBeforeYear d.year ≤ d.dayNumber := by
  rw [Date.dayNumber, Nat.add_assoc]
  exact Nat.le_add_right _ _

theorem Date.le_year (d : Date) (h : daysBeforeYear y ≤ d.dayNumber) : y ≤ d.year := by
  by_contra hlt
  have hmono : daysBeforeYear (d.year + 1) ≤ daysBeforeYear y :=
    daysBeforeYear_mono (Nat.lt_of_not_le hlt)
  exact absurd (h.trans_lt d.dayNumber_lt) hmono.not_gt

theorem dayNumber_newYear (y : ℕ) : (newYear y).dayNumber = daysBeforeYear y := rfl

theorem dayNumber_next (d : Date) : d.next.dayNumber = d.dayNumber + 1 := by
  have hpos := d.day_pos
  have hle := d.day_le
  rw [Date.next]
  split_ifs with hday hmonth
  · simp only [Date.dayNumber]
    omega
  · simp only [Date.dayNumber, daysBeforeMonth]
    omega
  · have hlast : d.month = 11 := by
      have hlt := d.month_lt
      omega
    have hyear := daysBeforeMonth_twelve d.year
    rw [dayNumber_newYear, Date.dayNumber, daysBeforeYear, ← hyear, daysBeforeMonth, hlast]
    rw [hlast] at hday hle
    omega

theorem dayNumber_iterate_next (d : Date) (n : ℕ) :
    (Date.next^[n] d).dayNumber = d.dayNumber + n := by
  induction n with
  | zero => rfl
  | succ n ih => rw [Function.iterate_succ_apply', dayNumber_next, ih, Nat.add_assoc]

theorem eq_of_between {f : ℕ → ℕ} (hf : Monotone f) {a b : ℕ} (ha : f a ≤ n) (ha' : n < f (a + 1))
    (hb : f b ≤ n) (hb' : n < f (b + 1)) : a = b := by
  rcases Nat.lt_trichotomy a b with hlt | heq | hlt
  · have hle : f (a + 1) ≤ f b := hf hlt
    omega
  · exact heq
  · have hle : f (b + 1) ≤ f a := hf hlt
    omega

theorem dayNumber_injective : Function.Injective Date.dayNumber := by
  intro d d' h
  have hyear : d.year = d'.year :=
    eq_of_between daysBeforeYear_mono d.le_dayNumber d.dayNumber_lt (h ▸ d'.le_dayNumber)
      (h ▸ d'.dayNumber_lt)
  have hday := d.day_sub_one_lt
  have hday' := d'.day_sub_one_lt
  have hpos := d.day_pos
  have hpos' := d'.day_pos
  rw [Date.dayNumber, Date.dayNumber, hyear, Nat.add_assoc, Nat.add_assoc, Nat.add_left_cancel_iff]
    at h
  rw [hyear] at hday
  have hmonth : d.month = d'.month :=
    eq_of_between (daysBeforeMonth_mono d'.year) (Nat.le_add_right _ _) hday
      (h ▸ Nat.le_add_right _ _) (h ▸ hday')
  rw [hmonth] at h
  exact Date.ext hyear hmonth (by omega)

theorem daysAfter_iff {n : ℤ} : DaysAfter n d d' ↔ (d'.dayNumber : ℤ) = d.dayNumber + n := by
  have hiterate (k : ℕ) (e e' : Date) :
      Date.next^[k] e = e' ↔ e'.dayNumber = e.dayNumber + k := by
    rw [← dayNumber_iterate_next, eq_comm]
    exact dayNumber_injective.eq_iff.symm
  match n with
  | .ofNat k =>
    rw [DaysAfter, hiterate]
    simp only [Int.ofNat_eq_natCast]
    omega
  | .negSucc k =>
    rw [DaysAfter, hiterate]
    omega

end Numbers

end TuyaOpen.Calendar
