import Mathlib.Tactic.IntervalCases
import Mathlib.Tactic.Ring
import TuyaOpen.Basic.Calendar
import TuyaOpen.System.TimeService

/-!
# Calendar dates

`tal_time_mktime` and `tal_time_gmtime_r` of `tal_time_serivce.c` convert between seconds since the
beginning of 1970, in 32 bits, and dates. One of them adds the lengths of years and months, and the
other one takes them away. The day of the week comes from a formula.

The loops of `tal_time_gmtime_r` have no bound of their own. The first one is a recursion on the
seconds that are left. The second one reads a table of twelve months, and has no result outside it.

## Main results

* `yearLoop_spec`, `monthLoop_spec`: what the loops find.
* `toNat_getDayOfWeek`: the formula for the day of the week.
* `talTimeGmtimeR_spec`: the date of every time value.
* `conversion_exact`: both conversions are exact over the whole range.
-/

namespace TuyaOpen.System

open TuyaOpen.Calendar

/-! ### The conversions -/

/-- `POSIX_TM_S`. -/
@[ext]
structure PosixTm where
  tmSec : ℤ
  tmMin : ℤ
  tmHour : ℤ
  tmMday : ℤ
  tmMon : ℤ
  tmYear : ℤ
  tmWday : ℤ
  deriving DecidableEq

/-- `SEC_PER_DAY`. -/
def secPerDay : ℕ := 86400

/-- `SEC_PER_HOUR`. -/
def secPerHour : ℕ := 3600

/-- `__is_leap`. -/
def isLeap (yr : ℤ) : Bool := if yr % 100 = 0 then yr % 400 = 0 else yr % 4 = 0

/-- `SEC_PER_YR`. -/
def secPerYr (leapyr : Bool) : ℕ := if leapyr then 31622400 else 31536000

/-- `SEC_PER_MT`. -/
def secPerMt (leapyr : Bool) : List ℕ :=
  if leapyr then
    [2678400, 2505600, 2678400, 2592000, 2678400, 2592000, 2678400, 2678400, 2592000, 2678400,
      2592000, 2678400]
  else
    [2678400, 2419200, 2678400, 2592000, 2678400, 2592000, 2678400, 2678400, 2592000, 2678400,
      2592000, 2678400]

/-- The table of `__get_day_of_week`. -/
def dayOfWeekTab : List ℕ := [0, 3, 2, 5, 0, 3, 5, 1, 4, 6, 2, 4]

/-- `__get_day_of_week`. -/
def getDayOfWeek (month day : UInt8) (year : UInt16) : UInt8 :=
  let year := if month < 3 then year - 1 else year
  let y := year.toNat
  UInt8.ofNat ((y + y / 4 - y / 100 + y / 400 + dayOfWeekTab.getD (month.toNat - 1) 0 +
    day.toNat) % 7)

/-- The years of `tal_time_mktime`. -/
def mktimeYears (year : ℤ) : UInt32 :=
  (List.range (year - 1970).toNat).foldl
    (fun time (i : ℕ) => time + UInt32.ofNat (secPerYr (isLeap (1970 + (i : ℤ))))) 0

/-- The months of `tal_time_mktime`. The table has twelve of them. -/
def mktimeMonths (leapyr : Bool) (mon : ℤ) (time : UInt32) : Option UInt32 :=
  (List.range mon.toNat).foldlM
    (fun time i => (secPerMt leapyr)[i]?.map fun sec => time + UInt32.ofNat sec) time

/-- `tal_time_mktime`. The sums are those of `TIME_T`, which has 32 bits. -/
def talTimeMktime (tm : PosixTm) : Option UInt32 :=
  let year := tm.tmYear + 1900
  (mktimeMonths (isLeap year) tm.tmMon (mktimeYears year)).map fun time =>
    let time := time + UInt32.ofInt ((tm.tmMday - 1) * secPerDay)
    let time := time + UInt32.ofInt (tm.tmHour * secPerHour)
    let time := time + UInt32.ofInt (tm.tmMin * 60)
    time + UInt32.ofInt tm.tmSec

theorem secPerYr_pos (leapyr : Bool) : 0 < secPerYr leapyr := by
  cases leapyr
  all_goals decide

/-- The first loop of `tal_time_gmtime_r`: the seconds that are left, and the year. -/
def yearLoop (ltm : ℕ) (year : ℤ) : ℕ × ℤ :=
  if h : ltm < secPerYr (isLeap year) then (ltm, year)
  else yearLoop (ltm - secPerYr (isLeap year)) (year + 1)
termination_by ltm
decreasing_by
  have hpos := secPerYr_pos (isLeap year)
  omega

def monthLoop (leapyr : Bool) (ltm mon : ℕ) : Option (ℕ × ℕ) :=
  if h : mon < (secPerMt leapyr).length then
    if ltm < (secPerMt leapyr)[mon] then some (ltm, mon)
    else monthLoop leapyr (ltm - (secPerMt leapyr)[mon]) (mon + 1)
  else none
termination_by (secPerMt leapyr).length - mon

/-- `tal_time_gmtime_r`. -/
def talTimeGmtimeR (tm : UInt32) : Option PosixTm :=
  let (ltm, year) := yearLoop tm.toNat 1970
  (monthLoop (isLeap year) ltm 0).map fun (ltm, mon) =>
    let mday : ℕ := ltm / secPerDay + 1
    let ltm := ltm % secPerDay
    { tmSec := (ltm % secPerHour % 60 : ℕ)
      tmMin := (ltm % secPerHour / 60 : ℕ)
      tmHour := (ltm / secPerHour : ℕ)
      tmMday := mday
      tmMon := mon
      tmYear := year - 1900
      tmWday := (getDayOfWeek (UInt8.ofNat (mon + 1)) (UInt8.ofNat mday)
        (UInt16.ofNat year.toNat)).toNat }

/-! ### What a date shows -/

def epoch : Date := newYear 1970

/-- A date of the calendar at a time of the day. The first day of 1970 is a Thursday. -/
structure Shows (z : ℤ) (tm : PosixTm) : Prop where
  date : ∃ d, DaysAfter (z / 86400) epoch d ∧ tm.tmYear + 1900 = d.year ∧ tm.tmMon = d.month ∧
    tm.tmMday = d.day
  hour : tm.tmHour = z % 86400 / 3600
  min : tm.tmMin = z % 3600 / 60
  sec : tm.tmSec = z % 60
  wday : tm.tmWday = (4 + z / 86400) % 7

def secondsOf (tm : PosixTm) : ℤ :=
  ((daysBeforeYear (tm.tmYear + 1900).toNat : ℤ) - daysBeforeYear 1970 +
      daysBeforeMonth (tm.tmYear + 1900).toNat tm.tmMon.toNat + (tm.tmMday - 1)) * 86400 +
    tm.tmHour * 3600 + tm.tmMin * 60 + tm.tmSec

/-! ### The tables -/

section Tables

variable {n m ltm : ℕ}

theorem isLeap_natCast (n : ℕ) : isLeap n = decide (IsLeap n) := by
  rw [Bool.eq_iff_iff, decide_eq_true_iff, isLeap]
  split_ifs with h
  all_goals
    rw [decide_eq_true_iff]
    simp only [IsLeap]
    omega

theorem secPerYr_isLeap (n : ℕ) : secPerYr (isLeap n) = 86400 * daysInYear n := by
  rw [isLeap_natCast, secPerYr, daysInYear]
  by_cases h : IsLeap n
  all_goals simp [h]

theorem length_secPerMt (leapyr : Bool) : (secPerMt leapyr).length = 12 := by
  cases leapyr
  all_goals rfl

theorem secPerMt_isLeap (n : ℕ) (hm : m < 12) :
    (secPerMt (isLeap n))[m]? = some (86400 * daysInMonth n m) := by
  rw [isLeap_natCast, secPerMt, daysInMonth]
  by_cases h : IsLeap n
  all_goals
    interval_cases m
    all_goals simp [h]

theorem toNat_getDayOfWeek_eq {k day : ℕ} (hm : m < 12) (hday : day ≤ 31) (hk : k + 1 < 65536) :
    (getDayOfWeek (UInt8.ofNat (m + 1)) (UInt8.ofNat day) (UInt16.ofNat (k + 1))).toNat =
      ((if m < 2 then k + k / 4 - k / 100 + k / 400
        else k + 1 + (k + 1) / 4 - (k + 1) / 100 + (k + 1) / 400) + dayOfWeekTab.getD m 0 + day) %
        7 := by
  have hmonth : (UInt8.ofNat (m + 1)).toNat = m + 1 :=
    UInt8.toNat_ofNat_of_lt' (by change _ < 256; omega)
  have hday : (UInt8.ofNat day).toNat = day := UInt8.toNat_ofNat_of_lt' (by change _ < 256; omega)
  have hyear : (UInt16.ofNat (k + 1)).toNat = k + 1 :=
    UInt16.toNat_ofNat_of_lt' (by change _ < 65536; omega)
  have hone : (1 : UInt16) ≤ UInt16.ofNat (k + 1) := by
    rw [UInt16.le_iff_toNat_le, hyear]
    exact Nat.le_add_left 1 k
  have hbefore : (UInt16.ofNat (k + 1) - 1).toNat = k := by
    rw [UInt16.toNat_sub_of_le _ _ hone, hyear]
    rfl
  have hless : UInt8.ofNat (m + 1) < 3 ↔ m < 2 := by
    rw [UInt8.lt_iff_toNat_lt, hmonth]
    exact Nat.succ_lt_succ_iff
  have hmod (n : ℕ) : (UInt8.ofNat (n % 7)).toNat = n % 7 :=
    UInt8.toNat_ofNat_of_lt' (by change _ < 256; omega)
  simp only [getDayOfWeek, hless, hmonth, hday, Nat.add_sub_cancel]
  rw [hmod]
  split_ifs
  · rw [hbefore]
  · rw [hyear]

theorem toNat_getDayOfWeek (d : Date) (hpos : 1 ≤ d.year) (hlt : d.year < 65536) :
    (getDayOfWeek (UInt8.ofNat (d.month + 1)) (UInt8.ofNat d.day) (UInt16.ofNat d.year)).toNat =
      (d.dayNumber + 6) % 7 := by
  obtain ⟨y, m, day, hm, hday, hle⟩ := d
  obtain ⟨k, rfl⟩ : ∃ k, y = k + 1 := ⟨y - 1, (Nat.sub_add_cancel hpos).symm⟩
  have hyears := daysBeforeYear_succ_eq k
  have hcounts := leap_counts k
  have hk : k / 100 ≤ k := Nat.div_le_self k 100
  have hk' : (k + 1) / 100 ≤ k + 1 := Nat.div_le_self (k + 1) 100
  rw [toNat_getDayOfWeek_eq hm (hle.trans (daysInMonth_le (k + 1) m)) hlt, Date.dayNumber]
  dsimp only
  generalize (k + 1) / 4 = a, (k + 1) / 100 = b, (k + 1) / 400 = c at *
  generalize k / 4 = a', k / 100 = b', k / 400 = c' at *
  by_cases h : IsLeap (k + 1)
  all_goals
    simp only [h, if_true, if_false] at hcounts
    interval_cases m
    all_goals
      simp [daysBeforeMonth, daysInMonth, h, dayOfWeekTab]
      omega

end Tables

/-! ### The loops -/

section Loops

variable {n m ltm : ℕ}

theorem yearLoop_spec (n ltm : ℕ) :
    ∃ n' r : ℕ, yearLoop ltm n = (r, (n' : ℤ)) ∧ r < 86400 * daysInYear n' ∧
      daysBeforeYear n' * 86400 + r = daysBeforeYear n * 86400 + ltm := by
  induction ltm using Nat.strong_induction_on generalizing n with
  | _ ltm ih =>
    rw [yearLoop, secPerYr_isLeap]
    split_ifs with hlt
    · exact ⟨n, ltm, rfl, hlt, rfl⟩
    · have hpos := secPerYr_pos (isLeap n)
      rw [secPerYr_isLeap] at hpos
      have hnext : daysBeforeYear (n + 1) * 86400 + (ltm - 86400 * daysInYear n) =
          daysBeforeYear n * 86400 + ltm := by
        rw [daysBeforeYear_succ, Nat.add_mul, Nat.mul_comm (daysInYear n), Nat.add_assoc,
          Nat.add_sub_cancel' (Nat.le_of_not_lt hlt)]
      obtain ⟨n', r, hloop, hr, hsum⟩ := ih (ltm - 86400 * daysInYear n)
        (Nat.sub_lt (hpos.trans_le (Nat.le_of_not_lt hlt)) hpos) (n + 1)
      exact ⟨n', r, by exact_mod_cast hloop, hr, hsum.trans hnext⟩

theorem monthLoop_spec (hltm : daysBeforeMonth n m * 86400 + ltm < 86400 * daysInYear n)
    (hm : m < 12) :
    ∃ m' r : ℕ, monthLoop (isLeap n) ltm m = some (r, m') ∧ m' < 12 ∧
      r < 86400 * daysInMonth n m' ∧
      daysBeforeMonth n m' * 86400 + r = daysBeforeMonth n m * 86400 + ltm := by
  induction hk : 12 - m generalizing m ltm with
  | zero => omega
  | succ k ih =>
    have hlen : m < (secPerMt (isLeap n)).length := by rwa [length_secPerMt]
    have hsec : (secPerMt (isLeap n))[m] = 86400 * daysInMonth n m := by
      have hget := secPerMt_isLeap n hm
      rw [List.getElem?_eq_getElem hlen] at hget
      exact Option.some.inj hget
    rw [monthLoop, dif_pos hlen, hsec]
    split_ifs with hlt
    · exact ⟨m, ltm, rfl, hm, hlt, rfl⟩
    · have hnext : daysBeforeMonth n (m + 1) * 86400 + (ltm - 86400 * daysInMonth n m) =
          daysBeforeMonth n m * 86400 + ltm := by
        rw [daysBeforeMonth]
        omega
      have hm' : m + 1 < 12 := by
        by_contra hge
        have hlast : m + 1 = 12 := by omega
        rw [hlast, daysBeforeMonth_twelve] at hnext
        omega
      obtain ⟨m', r, hloop, hm'', hr, hsum⟩ := ih (hnext.symm ▸ hltm) hm' (by omega)
      exact ⟨m', r, hloop, hm'', hr, hsum.trans hnext⟩

end Loops

/-! ### Dates and instants -/

section Instants

variable {n m : ℕ} {z z' : ℤ} {tm tm' : PosixTm}

theorem daysBeforeYear_1970 : daysBeforeYear 1970 = 719528 := by
  have h := @daysBeforeYear_eq 1969 1970 rfl
  omega

theorem dayNumber_epoch : epoch.dayNumber = 719528 := by
  rw [epoch, dayNumber_newYear, daysBeforeYear_1970]

theorem Shows.secondsOf_eq (h : Shows z tm) : secondsOf tm = z := by
  obtain ⟨d, hafter, hyear, hmon, hmday⟩ := h.date
  have hday := daysAfter_iff.1 hafter
  have hpos := d.day_pos
  rw [dayNumber_epoch, Date.dayNumber] at hday
  rw [secondsOf, hyear, hmon, hmday, h.hour, h.min, h.sec, Int.toNat_natCast, Int.toNat_natCast,
    daysBeforeYear_1970]
  omega

/-- **The date of a time value.** Both loops end, within the table of months, and the date is that
of the calendar. -/
theorem talTimeGmtimeR_spec (t : UInt32) :
    ∃ tm, talTimeGmtimeR t = some tm ∧ Shows t.toNat tm ∧ tm.tmMon ≤ 11 := by
  have ht := t.toNat_lt
  obtain ⟨n, r, hyears, hr, hsum⟩ := yearLoop_spec 1970 t.toNat
  rw [Nat.cast_ofNat] at hyears
  obtain ⟨m, r', hmonths, hm, hr', hsum'⟩ := @monthLoop_spec n 0 r (by
    rw [daysBeforeMonth]
    omega) (by decide)
  rw [daysBeforeYear_1970] at hsum
  rw [daysBeforeMonth, Nat.zero_mul, Nat.zero_add] at hsum'
  have hday : r' / 86400 < daysInMonth n m := Nat.div_lt_of_lt_mul hr'
  let d : Date := ⟨n, m, r' / 86400 + 1, hm, Nat.le_add_left 1 _, hday⟩
  have hnumber : d.dayNumber = 719528 + t.toNat / 86400 := by
    rw [Date.dayNumber]
    dsimp only [d]
    omega
  have hrest : r' % 86400 = t.toNat % 86400 := by omega
  have hlt : n < 65536 := by
    by_contra hge
    have hmono := daysBeforeYear_mono (Nat.le_of_not_lt hge)
    have hlarge := @daysBeforeYear_eq 65535 65536 rfl
    omega
  have hpos : 1 ≤ n := by
    by_contra hzero
    obtain rfl : n = 0 := by omega
    have hyear : daysInYear 0 = 366 := rfl
    rw [hyear] at hr
    rw [daysBeforeYear] at hsum
    omega
  have hwday := toNat_getDayOfWeek d hpos hlt
  rw [hnumber] at hwday
  have hafter : DaysAfter ((t.toNat : ℤ) / 86400) epoch d := by
    rw [daysAfter_iff, dayNumber_epoch, hnumber]
    omega
  refine ⟨_, by rw [talTimeGmtimeR, hyears]; dsimp only; rw [hmonths]; rfl, ⟨?_, ?_, ?_, ?_, ?_⟩,
    by dsimp only; omega⟩
  · exact ⟨d, hafter, Int.sub_add_cancel _ _, rfl, rfl⟩
  · simp only [secPerDay, secPerHour]
    omega
  · simp only [secPerDay, secPerHour]
    omega
  · simp only [secPerDay, secPerHour]
    omega
  · dsimp only [secPerDay]
    rw [Int.toNat_natCast, hwday]
    omega

theorem ofInt_natCast (k : ℕ) : UInt32.ofInt k = UInt32.ofNat k := by
  rw [UInt32.ofInt, ← UInt32.toNat_inj]
  simp only [UInt32.toNat_ofNat']
  omega

theorem mktimeYears_eq (hn : 1970 ≤ n) :
    mktimeYears n = UInt32.ofInt ((daysBeforeYear n - daysBeforeYear 1970) * 86400) := by
  obtain ⟨k, rfl⟩ := Nat.exists_eq_add_of_le hn
  have hk : ((1970 + k : ℕ) - 1970 : ℤ).toNat = k := by omega
  rw [mktimeYears, hk]
  clear hn hk
  induction k with
  | zero => rw [Nat.add_zero, Int.sub_self]; rfl
  | succ k ih =>
    have hyear : (1970 + (k : ℤ)) = (1970 + k : ℕ) := by push_cast; rfl
    rw [List.range_succ, List.foldl_append, ih, List.foldl_cons, List.foldl_nil, hyear,
      secPerYr_isLeap, ← ofInt_natCast, ← UInt32.ofInt_add, ← Nat.add_assoc,
      daysBeforeYear_succ (1970 + k)]
    refine congrArg UInt32.ofInt ?_
    push_cast
    ring

theorem mktimeMonths_eq (hm : m ≤ 12) (time : UInt32) :
    mktimeMonths (isLeap n) m time =
      some (time + UInt32.ofInt ((daysBeforeMonth n m : ℤ) * 86400)) := by
  rw [mktimeMonths, Int.toNat_natCast]
  induction m with
  | zero =>
    have hzero : UInt32.ofInt 0 = 0 := rfl
    simp [daysBeforeMonth, hzero]
  | succ m ih =>
    rw [List.range_succ, List.foldlM_append, ih (Nat.le_of_succ_le hm)]
    simp only [Option.bind_eq_bind, Option.bind_some, List.foldlM_cons, List.foldlM_nil]
    rw [secPerMt_isLeap n hm, Option.map_some, Option.bind_some, ← ofInt_natCast, UInt32.add_assoc,
      ← UInt32.ofInt_add, daysBeforeMonth]
    refine congrArg (fun x => some (time + UInt32.ofInt x)) ?_
    push_cast
    ring

theorem talTimeMktime_eq (hyear : tm.tmYear + 1900 = n) (hn : 1970 ≤ n) (hmon : tm.tmMon = m)
    (hm : m ≤ 12) : talTimeMktime tm = some (UInt32.ofInt (secondsOf tm)) := by
  rw [talTimeMktime, hyear, hmon, mktimeYears_eq hn, mktimeMonths_eq hm, Option.map_some,
    secondsOf, hyear, hmon, Int.toNat_natCast, Int.toNat_natCast]
  simp only [← UInt32.ofInt_add, secPerDay, secPerHour]
  refine congrArg (fun x => some (UInt32.ofInt x)) ?_
  push_cast
  ring

end Instants

/-- **Calendar conversion.** For every time value, `tal_time_gmtime_r` gives the calendar date that
many seconds after the beginning of 1970, its loops end with a month of the table, and
`tal_time_mktime` gives back the value. -/
theorem conversion_exact (t : UInt32) :
    ∃ tm, talTimeGmtimeR t = some tm ∧ Shows t.toNat tm ∧ tm.tmMon ≤ 11 ∧
      talTimeMktime tm = some t := by
  obtain ⟨tm, hgmtime, hshows, hmon⟩ := talTimeGmtimeR_spec t
  obtain ⟨d, hafter, hyear, hmonth, -⟩ := hshows.date
  refine ⟨tm, hgmtime, hshows, hmon, ?_⟩
  have hn : 1970 ≤ d.year := by
    refine d.le_year ?_
    have hday := daysAfter_iff.1 hafter
    rw [dayNumber_epoch] at hday
    rw [daysBeforeYear_1970]
    omega
  rw [talTimeMktime_eq hyear hn hmonth d.month_lt.le, hshows.secondsOf_eq, ofInt_natCast,
    UInt32.ofNat_toNat]

end TuyaOpen.System
