import TuyaOpen.Common.OperateRet
import TuyaOpen.System.CalendarTime

/-!
# Setting the time by a date

`tal_time_set` of `tal_time_serivce.c` takes a date that `__is_valid_date_time` accepts, and sets
the time to what `tal_time_mktime` makes of it. `tal_time_get` gives the date of the present time.

The check bounds seconds, minutes, hours and months from above only, and it accepts years up to
2111. The time has 32 bits, which last until February 2106. While updates are disabled, nothing is
set.

## Main results

* `exists_date_of_valid`: an accepted date with a month of the table is one of the calendar.
* `sameDate_of_shows`: a date is determined by its instant.
* `readsBack_iff`: the dates that are read back.
-/

namespace TuyaOpen.System

open TuyaOpen.Calendar

/-! ### The functions -/

/-- `__is_valid_date_time`. -/
def isValidDateTime (tm : PosixTm) : ℤ :=
  if 59 < tm.tmSec then -1
  else if 59 < tm.tmMin then -1
  else if 23 < tm.tmHour then -1
  else if tm.tmYear + 1900 < 1970 ∨ 2111 < tm.tmYear + 1900 then -1
  else if 12 ≤ tm.tmMon then -1
  else if tm.tmMon = 1 ∧ isLeap (tm.tmYear + 1900) = false ∧ 28 < tm.tmMday then -1
  else if tm.tmMon = 1 ∧ isLeap (tm.tmYear + 1900) = true ∧ 29 < tm.tmMday then -1
  else if (tm.tmMon = 3 ∨ tm.tmMon = 5 ∨ tm.tmMon = 8 ∨ tm.tmMon = 10) ∧ 30 < tm.tmMday then -1
  else if tm.tmMday < 1 ∨ 31 < tm.tmMday then -1
  else 0

/-- `tal_time_set`, `now` milliseconds after the start of the system. -/
def talTimeSet (st : TimeState) (tm : PosixTm) (now : ℕ) : Option (OperateRet × TimeState) :=
  if isValidDateTime tm = 0 then
    (talTimeMktime tm).map fun time => (oprtOk, talTimeSetPosix st time 2 now)
  else some (oprtComError, st)

/-- `tal_time_get`. -/
def talTimeGet (st : TimeState) (now : ℕ) : Option (PosixTm × TimeState) :=
  let (curtime, st) := talTimeGetPosix st now
  (talTimeGmtimeR (UInt32.ofNat curtime)).map fun tm => (tm, st)

/-! ### Reading back -/

/-- The same year, month, day, hour, minute and second. -/
structure SameDate (tm tm' : PosixTm) : Prop where
  year : tm.tmYear = tm'.tmYear
  mon : tm.tmMon = tm'.tmMon
  mday : tm.tmMday = tm'.tmMday
  hour : tm.tmHour = tm'.tmHour
  min : tm.tmMin = tm'.tmMin
  sec : tm.tmSec = tm'.tmSec

def ReadsBack (st : TimeState) (tm : PosixTm) (now now' : ℕ) : Prop :=
  ∃ st' st'' tm', talTimeSet st tm now = some (oprtOk, st') ∧
    talTimeGet st' now' = some (tm', st'') ∧ SameDate tm' tm

/-- No field is negative, and 32 bits hold the time. -/
structure Representable (tm : PosixTm) : Prop where
  mon : 0 ≤ tm.tmMon
  hour : 0 ≤ tm.tmHour
  min : 0 ≤ tm.tmMin
  sec : 0 ≤ tm.tmSec
  seconds : secondsOf tm < 2 ^ 32

section Setting

variable {st : TimeState} {tm tm' : PosixTm} {now now' : ℕ} {z : ℤ}

theorem bounds_of_valid (hvalid : isValidDateTime tm = 0) :
    tm.tmSec ≤ 59 ∧ tm.tmMin ≤ 59 ∧ tm.tmHour ≤ 23 ∧ 1970 ≤ tm.tmYear + 1900 ∧ tm.tmMon < 12 := by
  rw [isValidDateTime] at hvalid
  split_ifs at hvalid
  omega

theorem mday_of_valid (hvalid : isValidDateTime tm = 0) :
    1 ≤ tm.tmMday ∧ tm.tmMday ≤ 31 ∧
      (tm.tmMon = 1 → isLeap (tm.tmYear + 1900) = false → tm.tmMday ≤ 28) ∧
      (tm.tmMon = 1 → isLeap (tm.tmYear + 1900) = true → tm.tmMday ≤ 29) ∧
      (tm.tmMon = 3 ∨ tm.tmMon = 5 ∨ tm.tmMon = 8 ∨ tm.tmMon = 10 → tm.tmMday ≤ 30) := by
  rw [isValidDateTime] at hvalid
  split_ifs at hvalid with _ _ _ _ _ hshort hleap hthirty hday
  simp only [not_and, not_lt, not_or] at hshort hleap hthirty hday
  exact ⟨hday.1, hday.2, hshort, hleap, hthirty⟩

theorem exists_date_of_valid (hvalid : isValidDateTime tm = 0) (hmon : 0 ≤ tm.tmMon) :
    ∃ d : Date, tm.tmYear + 1900 = d.year ∧ tm.tmMon = d.month ∧ tm.tmMday = d.day := by
  obtain ⟨-, -, -, hyear, hmon'⟩ := bounds_of_valid hvalid
  obtain ⟨hpos, hmday, hshort, hlong, hthirty⟩ := mday_of_valid hvalid
  obtain ⟨y, hy⟩ := Int.eq_ofNat_of_zero_le (by omega : 0 ≤ tm.tmYear + 1900)
  obtain ⟨m, hm⟩ := Int.eq_ofNat_of_zero_le hmon
  obtain ⟨day, hday⟩ := Int.eq_ofNat_of_zero_le (by omega : 0 ≤ tm.tmMday)
  rw [hy, isLeap_natCast, hm, hday] at hshort hlong
  refine ⟨⟨y, m, day, by omega, by omega, ?_⟩, hy, hm, hday⟩
  rw [daysInMonth]
  split_ifs with hone hleap hthirty'
  · exact_mod_cast hlong (by omega) (decide_eq_true hleap)
  · exact_mod_cast hshort (by omega) (decide_eq_false hleap)
  · have hle := hthirty (by omega)
    omega
  · omega

theorem sameDate_of_shows (hvalid : isValidDateTime tm = 0) (hrep : Representable tm)
    (hshows : Shows (secondsOf tm) tm') : SameDate tm' tm := by
  obtain ⟨d, hyear, hmon, hmday⟩ := exists_date_of_valid hvalid hrep.mon
  obtain ⟨hsec, hmin, hhour, -⟩ := bounds_of_valid hvalid
  have hseconds : secondsOf tm = ((d.dayNumber : ℤ) - 719528) * 86400 + tm.tmHour * 3600 +
      tm.tmMin * 60 + tm.tmSec := by
    rw [secondsOf, hyear, hmon, hmday, Int.toNat_natCast, Int.toNat_natCast, daysBeforeYear_1970,
      Date.dayNumber]
    have hpos := d.day_pos
    omega
  generalize secondsOf tm = z at hseconds hshows
  obtain ⟨d', hafter, hyear', hmon', hmday'⟩ := hshows.date
  have hnumber := daysAfter_iff.1 hafter
  have hsec₀ := hrep.sec
  have hmin₀ := hrep.min
  have hhour₀ := hrep.hour
  rw [dayNumber_epoch] at hnumber
  have hdate : d = d' := dayNumber_injective (by omega)
  subst hdate
  refine ⟨by omega, hmon'.trans hmon.symm, hmday'.trans hmday.symm, ?_, ?_, ?_⟩
  · rw [hshows.hour]
    omega
  · rw [hshows.min]
    omega
  · rw [hshows.sec]
    omega

theorem SameDate.secondsOf_eq (h : SameDate tm tm') : secondsOf tm = secondsOf tm' := by
  rw [secondsOf, secondsOf, h.year, h.mon, h.mday, h.hour, h.min, h.sec]

theorem Representable.of_sameDate (h : Representable tm) (hsame : SameDate tm tm') :
    Representable tm' where
  mon := hsame.mon ▸ h.mon
  hour := hsame.hour ▸ h.hour
  min := hsame.min ▸ h.min
  sec := hsame.sec ▸ h.sec
  seconds := hsame.secondsOf_eq ▸ h.seconds

theorem Shows.representable (h : Shows z tm) (hlt : z < 2 ^ 32) : Representable tm := by
  obtain ⟨d, -, -, hmon, -⟩ := h.date
  refine ⟨hmon ▸ Int.natCast_nonneg _, ?_, ?_, ?_, h.secondsOf_eq.trans_lt hlt⟩
  · rw [h.hour]
    omega
  · rw [h.min]
    omega
  · rw [h.sec]
    omega

theorem talTimeGetPosix_lt (st : TimeState) (now : ℕ) : (talTimeGetPosix st now).1 < 2 ^ 32 :=
  u32_lt _

theorem talTimeGet_spec (st : TimeState) (now : ℕ) :
    ∃ tm, talTimeGet st now = some (tm, (talTimeGetPosix st now).2) ∧
      Shows (talTimeGetPosix st now).1 tm := by
  have hlt := talTimeGetPosix_lt st now
  obtain ⟨tm, hgmtime, hshows, -⟩ := talTimeGmtimeR_spec (UInt32.ofNat (talTimeGetPosix st now).1)
  rw [UInt32.toNat_ofNat_of_lt' hlt] at hshows
  refine ⟨tm, ?_, hshows⟩
  rw [talTimeGet]
  dsimp only
  rw [hgmtime]
  rfl

theorem talTimeGetPosix_talTimeSetPosix (time : UInt32) (updateSource : ℤ)
    (hset : st.timeDisableUpdate = false) (hle : now ≤ now') (hlt : now' < now + 1000) :
    (talTimeGetPosix (talTimeSetPosix st time updateSource now) now').1 = time.toNat := by
  have ht := time.toNat_lt
  rw [talTimeSetPosix, if_neg (by simp [hset]), talTimeGetPosix]
  by_cases hback : now' % 0x100000000 < now % 0x100000000
  all_goals
    simp only [recycle, talSystemGetMillisecond, hback, if_true, if_false, u32]
    omega

theorem talTimeSetPosix_disabled (time : UInt32) (updateSource : ℤ) (now : ℕ)
    (hset : st.timeDisableUpdate = true) : talTimeSetPosix st time updateSource now = st :=
  if_pos hset

theorem talTimeSet_eq (st : TimeState) (now : ℕ) (hvalid : isValidDateTime tm = 0)
    (hmon : 0 ≤ tm.tmMon) :
    talTimeSet st tm now =
      some (oprtOk, talTimeSetPosix st (UInt32.ofInt (secondsOf tm)) 2 now) := by
  obtain ⟨d, hyear, hmonth, -⟩ := exists_date_of_valid hvalid hmon
  obtain ⟨-, -, -, hyears, -⟩ := bounds_of_valid hvalid
  rw [talTimeSet, if_pos hvalid, talTimeMktime_eq hyear (by omega) hmonth d.month_lt.le,
    Option.map_some]

theorem ReadsBack.representable (h : ReadsBack st tm now now') : Representable tm := by
  obtain ⟨st', st'', tm', -, hget, hsame⟩ := h
  obtain ⟨tm'', hget', hshows⟩ := talTimeGet_spec st' now'
  rw [hget'] at hget
  obtain ⟨rfl, -⟩ := Prod.mk.inj (Option.some.inj hget)
  exact (hshows.representable (Int.ofNat_lt.2 (talTimeGetPosix_lt st' now'))).of_sameDate hsame

theorem toNat_ofInt (hz : 0 ≤ z) (hlt : z < 2 ^ 32) : ((UInt32.ofInt z).toNat : ℤ) = z := by
  rw [UInt32.ofInt, UInt32.toNat_ofNat']
  omega

theorem secondsOf_nonneg (hvalid : isValidDateTime tm = 0) (hrep : Representable tm) :
    0 ≤ secondsOf tm := by
  obtain ⟨-, -, -, hyear, -⟩ := bounds_of_valid hvalid
  obtain ⟨hpos, -⟩ := mday_of_valid hvalid
  have hmono : daysBeforeYear 1970 ≤ daysBeforeYear (tm.tmYear + 1900).toNat :=
    daysBeforeYear_mono (by omega)
  have hsec := hrep.sec
  have hmin := hrep.min
  have hhour := hrep.hour
  rw [secondsOf]
  generalize daysBeforeYear 1970 = a at *
  omega

end Setting

/-- **Setting a date and reading it back.** For every date that the check accepts, in every state,
the date is read back within a second after it has been set if and only if none of its fields is
negative and 32 bits hold it, and, if updates are disabled, it is the present time already. -/
theorem readsBack_iff (st : TimeState) (tm : PosixTm) (now now' : ℕ)
    (hvalid : isValidDateTime tm = 0) (hle : now ≤ now') (hlt : now' < now + 1000) :
    ReadsBack st tm now now' ↔ Representable tm ∧
      (st.timeDisableUpdate = true → ((talTimeGetPosix st now').1 : ℤ) = secondsOf tm) := by
  constructor
  · intro hreads
    have hrep := hreads.representable
    refine ⟨hrep, fun hdisabled => ?_⟩
    obtain ⟨st', st'', tm', hset, hget, hsame⟩ := hreads
    rw [talTimeSet_eq st now hvalid hrep.mon, talTimeSetPosix_disabled _ 2 now hdisabled] at hset
    obtain ⟨-, rfl⟩ := Prod.mk.inj (Option.some.inj hset)
    obtain ⟨tm'', hget', hshows⟩ := talTimeGet_spec st now'
    rw [hget'] at hget
    obtain ⟨rfl, -⟩ := Prod.mk.inj (Option.some.inj hget)
    rw [← hsame.secondsOf_eq, hshows.secondsOf_eq]
  · rintro ⟨hrep, hdisabled⟩
    obtain ⟨tm', hget, hshows⟩ :=
      talTimeGet_spec (talTimeSetPosix st (UInt32.ofInt (secondsOf tm)) 2 now) now'
    refine ⟨_, _, tm', talTimeSet_eq st now hvalid hrep.mon, hget,
      sameDate_of_shows hvalid hrep ?_⟩
    have hreading : ((talTimeGetPosix (talTimeSetPosix st (UInt32.ofInt (secondsOf tm)) 2 now)
        now').1 : ℤ) = secondsOf tm := by
      cases hdisable : st.timeDisableUpdate with
      | false =>
        rw [talTimeGetPosix_talTimeSetPosix _ 2 hdisable hle hlt]
        exact toNat_ofInt (secondsOf_nonneg hvalid hrep) hrep.seconds
      | true =>
        rw [talTimeSetPosix_disabled _ 2 now hdisable]
        exact hdisabled hdisable
    rwa [hreading] at hshows

def lastSecond : PosixTm := ⟨15, 28, 6, 7, 1, 206, 0⟩

theorem readsBack_iff_lastSecond :
    ReadsBack ⟨0, 0, false, false⟩ lastSecond 5000 5999 := by
  refine (readsBack_iff _ lastSecond 5000 5999 (by decide) (by decide) (by decide)).2 ⟨?_, ?_⟩
  · refine ⟨by decide, by decide, by decide, by decide, ?_⟩
    decide +kernel
  · simp

/-- Minus one second is accepted, and so is the second after the last one. Neither is read back. -/
theorem not_readsBack_accepted :
    (isValidDateTime ⟨-1, 0, 0, 2, 0, 70, 0⟩ = 0 ∧
      ¬ReadsBack ⟨0, 0, false, false⟩ ⟨-1, 0, 0, 2, 0, 70, 0⟩ 5000 5000) ∧
    isValidDateTime ⟨16, 28, 6, 7, 1, 206, 0⟩ = 0 ∧
      ¬ReadsBack ⟨0, 0, false, false⟩ ⟨16, 28, 6, 7, 1, 206, 0⟩ 5000 5000 := by
  refine ⟨⟨by decide, ?_⟩, by decide, ?_⟩
  · intro hreads
    have hrep := hreads.representable
    exact absurd hrep.sec (by decide)
  · intro hreads
    have hrep := hreads.representable
    exact absurd hrep.seconds (by decide +kernel)

end TuyaOpen.System
