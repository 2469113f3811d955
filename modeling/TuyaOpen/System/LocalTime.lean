import TuyaOpen.System.CalendarTime

/-!
# Local time

`tal_time_get_local_time_custom` of `tal_time_serivce.c` adds the time zone to a time, and an hour
in summer. Summer is a table of intervals. Whether it is summer is asked for the present time, and
not for the time that is converted. The time zero stands for the present time.

The sums have 32 bits. A local time before 1970 or after February 2106 comes out at the other end.
-/

namespace TuyaOpen.System

/-- `SUM_ZONE_TAB_LMT`. -/
def sumZoneTabLmt : ℕ := 6

/-- `SUM_ZONE_S`. -/
structure SumZone where
  posixMin : UInt32
  posixMax : UInt32

/-- `SUM_ZONE_TBL_S`, the intervals that count. -/
structure SumZoneTbl where
  zone : List SumZone
  length_le : zone.length ≤ sumZoneTabLmt

/-- `tal_time_set_sum_zone_tbl`. The table holds six intervals. -/
def talTimeSetSumZoneTbl (zone : List SumZone) : SumZoneTbl :=
  ⟨zone.take sumZoneTabLmt, List.length_take_le _ _⟩

/-- `tal_time_is_in_sum_zone`. -/
def talTimeIsInSumZone (tbl : SumZoneTbl) (time : UInt32) : Bool :=
  tbl.zone.any fun zone => zone.posixMin ≤ time && time ≤ zone.posixMax

/-- The time with the variables `s_time_tz` and `s_time_sz_tbl`. -/
structure LocalClock where
  time : TimeState
  timeTz : ℤ
  timeSzTbl : SumZoneTbl

/-- `__is_in_sum_zone`, with two readings of the time. -/
def isInSumZone (s : LocalClock) (now now' : ℕ) : Bool × TimeState :=
  let (time, st) := talTimeGetPosix s.time now
  let (time', st) := talTimeGetPosix st now'
  (if time' < time then false else talTimeIsInSumZone s.timeSzTbl (UInt32.ofNat time), st)

/-- The moments of the readings: the one of the time zero, and the two for the summer. -/
structure Readings where
  first : ℕ
  second : ℕ
  third : ℕ

def convertedTime (s : LocalClock) (inTime : UInt32) (nows : Readings) : ℕ × TimeState :=
  if inTime = 0 then talTimeGetPosix s.time nows.first else (inTime.toNat, s.time)

/-- Whether it is summer for `tal_time_get_local_time_custom`. -/
def summerNow (s : LocalClock) (inTime : UInt32) (nows : Readings) : Bool :=
  (isInSumZone { s with time := (convertedTime s inTime nows).2 } nows.second nows.third).1

/-- `tal_time_get_local_time_custom`. -/
def talTimeGetLocalTimeCustom (s : LocalClock) (inTime : UInt32) (nows : Readings) :
    Option PosixTm :=
  let localTime := UInt32.ofNat (convertedTime s inTime nows).1 + UInt32.ofInt s.timeTz
  let localTime :=
    if summerNow s inTime nows then localTime + UInt32.ofNat secPerHour else localTime
  talTimeGmtimeR localTime

def summerOffset (summer : Bool) : ℤ := if summer then 3600 else 0

def localInstant (s : LocalClock) (time : UInt32) : ℤ :=
  time.toNat + s.timeTz + summerOffset (talTimeIsInSumZone s.timeSzTbl time)

/-- It is summer now exactly if it is summer at the time that is converted. The time zero is the
present one, and so has the right local time by chance only. -/
def Agrees (s : LocalClock) (inTime : UInt32) (nows : Readings) : Prop :=
  if inTime = 0 then
    ((convertedTime s 0 nows).1 + summerOffset (summerNow s 0 nows)) % 2 ^ 32 =
      summerOffset (talTimeIsInSumZone s.timeSzTbl 0)
  else summerNow s inTime nows = talTimeIsInSumZone s.timeSzTbl inTime

def InRange (s : LocalClock) (inTime : UInt32) : Prop :=
  0 ≤ localInstant s inTime ∧ localInstant s inTime < 2 ^ 32

section Conversion

variable {s : LocalClock} {inTime : UInt32} {nows : Readings} {tm : PosixTm}

theorem toNat_ofInt_eq (z : ℤ) : ((UInt32.ofInt z).toNat : ℤ) = z % 2 ^ 32 := by
  rw [UInt32.ofInt, UInt32.toNat_ofNat']
  omega

theorem talTimeGetLocalTimeCustom_spec (s : LocalClock) (inTime : UInt32) (nows : Readings) :
    ∃ tm, talTimeGetLocalTimeCustom s inTime nows = some tm ∧
      Shows (((convertedTime s inTime nows).1 + s.timeTz +
        summerOffset (summerNow s inTime nows)) % 2 ^ 32) tm := by
  have hlocal : talTimeGetLocalTimeCustom s inTime nows = talTimeGmtimeR
      (UInt32.ofInt ((convertedTime s inTime nows).1 + s.timeTz +
        summerOffset (summerNow s inTime nows))) := by
    rw [talTimeGetLocalTimeCustom]
    cases summerNow s inTime nows
    · simp [summerOffset, UInt32.ofInt_add, ofInt_natCast]
    · simp [summerOffset, UInt32.ofInt_add, ofInt_natCast, secPerHour]
      rfl
  obtain ⟨tm, hgmtime, hshows, -⟩ := talTimeGmtimeR_spec (UInt32.ofInt
    ((convertedTime s inTime nows).1 + s.timeTz + summerOffset (summerNow s inTime nows)))
  rw [toNat_ofInt_eq] at hshows
  exact ⟨tm, hlocal.trans hgmtime, hshows⟩

theorem summerOffset_injective : Function.Injective summerOffset := by
  intro summer summer' h
  cases summer <;> cases summer' <;> simp_all [summerOffset]

theorem summerOffset_mem (summer : Bool) :
    summerOffset summer = 0 ∨ summerOffset summer = 3600 := by
  cases summer
  · exact .inl rfl
  · exact .inr rfl

theorem emod_eq_localInstant_iff (s : LocalClock) (inTime : UInt32) (nows : Readings) :
    ((convertedTime s inTime nows).1 + s.timeTz + summerOffset (summerNow s inTime nows)) % 2 ^ 32 =
        localInstant s inTime ↔ Agrees s inTime nows ∧ InRange s inTime := by
  have hnow := summerOffset_mem (summerNow s inTime nows)
  have hthen := summerOffset_mem (talTimeIsInSumZone s.timeSzTbl inTime)
  rw [Agrees, InRange, localInstant]
  split_ifs with hzero
  · subst hzero
    rw [UInt32.toNat_zero]
    omega
  · have hbase : (convertedTime s inTime nows).1 = inTime.toNat := by
      rw [convertedTime, if_neg hzero]
    rw [hbase, ← summerOffset_injective.eq_iff]
    omega

end Conversion

/-- **Local time.** For every time zone, every table of intervals, every time and every present of
the device, the conversion gives the local time of its argument if and only if it is summer now
exactly if it is summer then, and 32 bits hold the local time. -/
theorem shows_localInstant_iff (s : LocalClock) (inTime : UInt32) (nows : Readings) :
    (∃ tm, talTimeGetLocalTimeCustom s inTime nows = some tm ∧ Shows (localInstant s inTime) tm) ↔
      Agrees s inTime nows ∧ InRange s inTime := by
  obtain ⟨tm, hlocal, hshows⟩ := talTimeGetLocalTimeCustom_spec s inTime nows
  rw [← emod_eq_localInstant_iff]
  constructor
  · rintro ⟨tm', hlocal', hshows'⟩
    rw [hlocal] at hlocal'
    obtain rfl := Option.some.inj hlocal'
    rw [← hshows.secondsOf_eq, hshows'.secondsOf_eq]
  · intro heq
    exact ⟨tm, hlocal, heq ▸ hshows⟩

def summerClock : LocalClock := ⟨⟨0, 150, true, false⟩, 0, talTimeSetSumZoneTbl [⟨100, 200⟩]⟩

/-- The time 1000 is not in summer, and is converted as if it were. -/
theorem not_shows_localInstant_summerClock :
    ¬∃ tm, talTimeGetLocalTimeCustom summerClock 1000 ⟨0, 0, 0⟩ = some tm ∧
      Shows (localInstant summerClock 1000) tm := by
  rintro ⟨tm, hlocal, hshows⟩
  obtain ⟨tm', hlocal', hshows'⟩ := talTimeGetLocalTimeCustom_spec summerClock 1000 ⟨0, 0, 0⟩
  rw [hlocal'] at hlocal
  obtain rfl := Option.some.inj hlocal
  have heq := hshows'.secondsOf_eq.symm.trans hshows.secondsOf_eq
  revert heq
  decide +kernel

end TuyaOpen.System
