import TuyaOpen.Basic.Bytes
import TuyaOpen.Basic.Transition

/-!
# Wall-clock time

`tal_time_set_posix`, `tal_time_get_posix` and `tal_time_get_posix_ms` of `tal_time_serivce.c`. The
time is kept as the posix time at some moment together with the millisecond counter at that moment.
The counter has 32 bits. A reading that finds the counter below the saved value carries the posix
time to the last turn of the counter and saves the value zero, below which the counter never is.

The milliseconds since the start of the system are natural numbers, and the counter is their
remainder. `tal_time_get_system_time` has variables of its own and is not part of this.
-/

namespace TuyaOpen.System

/-! ### The functions -/

/-- The static variables `s_time_last_ms`, `s_time_cloud_posix`, `s_time_cloud_sync` and
`s_time_disable_update`. -/
structure TimeState where
  timeLastMs : Nat
  timeCloudPosix : Nat
  timeCloudSync : Bool
  timeDisableUpdate : Bool
  deriving DecidableEq

/-- `tal_system_get_millisecond` after `now` milliseconds. -/
def talSystemGetMillisecond (now : Nat) : Nat := now % 0x100000000

/-- `tal_time_set_posix`. -/
def talTimeSetPosix (st : TimeState) (time : UInt32) (updateSource : Int) (now : Nat) : TimeState :=
  if st.timeDisableUpdate then st
  else
    { st with
      timeCloudPosix := time.toNat
      timeLastMs := talSystemGetMillisecond now
      timeCloudSync := if updateSource = 1 then true else st.timeCloudSync }

/-- The beginning that `tal_time_get_posix` and `tal_time_get_posix_ms` share. -/
def recycle (st : TimeState) (currTimeMs : Nat) : TimeState :=
  if currTimeMs < st.timeLastMs then
    { st with
      timeCloudPosix := u32 (st.timeCloudPosix + (0x100000000 - st.timeLastMs) / 1000)
      timeLastMs := 0 }
  else st

/-- `tal_time_get_posix`. -/
def talTimeGetPosix (st : TimeState) (now : Nat) : Nat × TimeState :=
  let curr := talSystemGetMillisecond now
  let st := recycle st curr
  (u32 (st.timeCloudPosix + (curr - st.timeLastMs) / 1000), st)

/-- `tal_time_get_posix_ms`. -/
def talTimeGetPosixMs (st : TimeState) (now : Nat) : Nat × TimeState :=
  let curr := talSystemGetMillisecond now
  let st := recycle st curr
  (st.timeCloudPosix * 1000 + (curr - st.timeLastMs), st)

/-! ### Readings -/

/-- A reading after `now` milliseconds. -/
inductive ClockRead
  | posix (now : Nat)
  | posixMs (now : Nat)

def ClockRead.now : ClockRead → Nat
  | .posix now => now
  | .posixMs now => now

def ClockRead.isMs : ClockRead → Bool
  | .posix _ => false
  | .posixMs _ => true

def clockStep (st : TimeState) : ClockRead → Nat × TimeState
  | .posix now => talTimeGetPosix st now
  | .posixMs now => talTimeGetPosixMs st now

/-- The right reading when the time `p` has been set at `t₀`. -/
def rightReading (p : UInt32) (t₀ : Nat) : ClockRead → Nat
  | .posix now => p.toNat + (now - t₀) / 1000
  | .posixMs now => p.toNat * 1000 + (now - t₀)

/-- All readings are right, and those of one kind do not go backwards. -/
structure KeepsTime (p : UInt32) (t₀ : Nat) (reads : List ClockRead) (outs : List Nat) : Prop where
  right : outs = reads.map (rightReading p t₀)
  mono : (reads.zip outs).Pairwise fun a b => a.1.isMs = b.1.isMs → a.2 ≤ b.2

/-- A reading has found the counter below its value at `t₀`, or this one does. -/
def Carried (t₀ : Nat) (st : TimeState) (now : Nat) : Prop :=
  st.timeLastMs < t₀ % 0x100000000 ∨ now % 0x100000000 < st.timeLastMs

instance (t₀ : Nat) (st : TimeState) (now : Nat) : Decidable (Carried t₀ st now) :=
  inferInstanceAs (Decidable (_ ∨ _))

/-- The condition on a reading: the counter has not turned since the time `p` was set at `t₀`, or it
has turned once, this has been noticed, and no part of a second is lost; and the result has the
range of its type. -/
def ClockCond (p : UInt32) (t₀ : Nat) (st : TimeState) (read : ClockRead) : Prop :=
  let rest := 0x100000000 - t₀ % 0x100000000
  if Carried t₀ st read.now then
    read.now / 0x100000000 = t₀ / 0x100000000 + 1 ∧
      if read.isMs then rest % 1000 = 0 ∧ p.toNat + rest / 1000 < 0x100000000
      else
        rest % 1000 + read.now % 0x100000000 % 1000 < 1000 ∧
          p.toNat + (read.now - t₀) / 1000 < 0x100000000
  else
    read.now / 0x100000000 = t₀ / 0x100000000 ∧
      (read.isMs ∨ p.toNat + (read.now - t₀) / 1000 < 0x100000000)

instance (p : UInt32) (t₀ : Nat) (st : TimeState) (read : ClockRead) :
    Decidable (ClockCond p t₀ st read) := by
  unfold ClockCond
  infer_instance

/-! ### One reading -/

/-- The state after the time `p` has been set at `t₀`: as it was left, or carried to the first turn
of the counter. -/
def SetAt (p : UInt32) (t₀ : Nat) (st : TimeState) : Prop :=
  (st.timeLastMs = t₀ % 0x100000000 ∧ st.timeCloudPosix = p.toNat) ∨
    (st.timeLastMs = 0 ∧ 0 < t₀ % 0x100000000 ∧
      st.timeCloudPosix = u32 (p.toNat + (0x100000000 - t₀ % 0x100000000) / 1000))

section Reading

variable {p : UInt32} {t₀ now : Nat} {st : TimeState}

theorem setAt_talTimeSetPosix (hset : st.timeDisableUpdate = false) (p : UInt32)
    (updateSource : Int) (t₀ : Nat) : SetAt p t₀ (talTimeSetPosix st p updateSource t₀) := by
  rw [talTimeSetPosix, if_neg (by rw [hset]; exact Bool.false_ne_true)]
  exact Or.inl ⟨rfl, rfl⟩

theorem recycle_spec (h : SetAt p t₀ st) (now : Nat) :
    SetAt p t₀ (recycle st (talSystemGetMillisecond now)) ∧
      (recycle st (talSystemGetMillisecond now)).timeLastMs =
        (if Carried t₀ st now then 0 else t₀ % 0x100000000) ∧
      (recycle st (talSystemGetMillisecond now)).timeCloudPosix =
        if Carried t₀ st now then u32 (p.toNat + (0x100000000 - t₀ % 0x100000000) / 1000)
        else p.toNat := by
  rw [recycle, talSystemGetMillisecond]
  rcases h with ⟨hlast, hposix⟩ | ⟨hlast, hpos, hposix⟩
  · by_cases hback : now % 0x100000000 < st.timeLastMs
    · have hcarried : Carried t₀ st now := Or.inr hback
      rw [if_pos hback, if_pos hcarried, if_pos hcarried, hlast, hposix]
      exact ⟨Or.inr ⟨rfl, by omega, rfl⟩, rfl, rfl⟩
    · have hnot : ¬Carried t₀ st now := by
        rw [Carried]
        omega
      rw [if_neg hback, if_neg hnot, if_neg hnot]
      exact ⟨Or.inl ⟨hlast, hposix⟩, hlast, hposix⟩
  · have hcarried : Carried t₀ st now := Or.inl (by omega)
    rw [if_neg (by omega), if_pos hcarried, if_pos hcarried]
    exact ⟨Or.inr ⟨hlast, hpos, hposix⟩, hlast, hposix⟩

theorem setAt_clockStep (h : SetAt p t₀ st) (read : ClockRead) :
    SetAt p t₀ (clockStep st read).2 := by
  cases read with
  | posix now => exact (recycle_spec h now).1
  | posixMs now => exact (recycle_spec h now).1

theorem le_of_not_carried (h : SetAt p t₀ st) (hnot : ¬Carried t₀ st now) :
    t₀ % 0x100000000 ≤ now % 0x100000000 := by
  rw [Carried] at hnot
  rcases h with ⟨hlast, -⟩ | ⟨hlast, hpos, -⟩
  · omega
  · omega

theorem posix_carried_iff (p : UInt32) {rest m k : Nat} (hrest : rest ≤ 0x100000000) :
    u32 (u32 (p.toNat + rest / 1000) + m / 1000) =
        p.toNat + (k * 0x100000000 + rest + m) / 1000 ↔
      k = 0 ∧ rest % 1000 + m % 1000 < 1000 ∧
        p.toNat + (k * 0x100000000 + rest + m) / 1000 < 0x100000000 := by
  have hp := p.toNat_lt
  rw [u32, u32]
  constructor
  · intro h
    have hlt : p.toNat + (k * 0x100000000 + rest + m) / 1000 < 0x100000000 := by
      rw [← h]
      exact Nat.mod_lt _ (by decide)
    omega
  · rintro ⟨rfl, hmod, hlt⟩
    omega

theorem posixMs_carried_iff (p : UInt32) {rest m k : Nat} (hrest : rest ≤ 0x100000000) :
    u32 (p.toNat + rest / 1000) * 1000 + m =
        p.toNat * 1000 + (k * 0x100000000 + rest + m) ↔
      k = 0 ∧ rest % 1000 = 0 ∧ p.toNat + rest / 1000 < 0x100000000 := by
  have hp := p.toNat_lt
  rw [u32]
  constructor
  · intro h
    by_cases hlt : p.toNat + rest / 1000 < 0x100000000
    · rw [Nat.mod_eq_of_lt hlt] at h
      omega
    · omega
  · rintro ⟨rfl, hmod, hlt⟩
    rw [Nat.mod_eq_of_lt hlt]
    omega

/-- A state that has been carried shows that the counter has turned by `now`. -/
def Turned (t₀ : Nat) (st : TimeState) (now : Nat) : Prop :=
  st.timeLastMs < t₀ % 0x100000000 → t₀ / 0x100000000 < now / 0x100000000

theorem Turned.mono {now' : Nat} (h : Turned t₀ st now) (hle : now ≤ now') : Turned t₀ st now' :=
  fun hlt => Nat.lt_of_lt_of_le (h hlt) (Nat.div_le_div_right hle)

theorem Turned.of_carried (hturned : Turned t₀ st now) (h : SetAt p t₀ st) (hle : t₀ ≤ now)
    (hcarried : Carried t₀ st now) : t₀ / 0x100000000 < now / 0x100000000 := by
  rcases hcarried with hlt | hlt
  · exact hturned hlt
  · rcases h with ⟨hlast, -⟩ | ⟨hlast, -, -⟩
    · omega
    · omega

theorem Turned.clockStep {read : ClockRead} (hturned : Turned t₀ st read.now) (h : SetAt p t₀ st)
    (hle : t₀ ≤ read.now) : Turned t₀ (clockStep st read).2 read.now := by
  have key : Turned t₀ (recycle st (talSystemGetMillisecond read.now)) read.now := by
    intro hlt
    by_cases hcarried : Carried t₀ st read.now
    · exact hturned.of_carried h hle hcarried
    · rw [(recycle_spec h read.now).2.1, if_neg hcarried] at hlt
      exact absurd hlt (Nat.lt_irrefl _)
  cases read with
  | posix now => exact key
  | posixMs now => exact key

theorem elapsed_of_carried (hlt : t₀ / 0x100000000 < now / 0x100000000) :
    now - t₀ = (now / 0x100000000 - t₀ / 0x100000000 - 1) * 0x100000000 +
      (0x100000000 - t₀ % 0x100000000) + now % 0x100000000 := by
  omega

theorem clockStep_eq_iff_of_carried {read : ClockRead} (h : SetAt p t₀ st)
    (hcarried : Carried t₀ st read.now)
    (hlt : t₀ / 0x100000000 < read.now / 0x100000000) :
    (clockStep st read).1 = rightReading p t₀ read ↔ ClockCond p t₀ st read := by
  obtain ⟨-, hlast, hposix⟩ := recycle_spec h read.now
  have helapsed := elapsed_of_carried hlt
  have hturns : read.now / 0x100000000 - t₀ / 0x100000000 - 1 = 0 ↔
      read.now / 0x100000000 = t₀ / 0x100000000 + 1 := by
    omega
  have hrest : 0x100000000 - t₀ % 0x100000000 ≤ 0x100000000 := Nat.sub_le _ _
  rw [if_pos hcarried] at hlast hposix
  rw [ClockCond, if_pos hcarried]
  cases read with
  | posix now =>
    have key := posix_carried_iff p (m := now % 0x100000000)
      (k := now / 0x100000000 - t₀ / 0x100000000 - 1) hrest
    simp only [ClockRead.now] at helapsed hturns hlast hposix
    rw [← helapsed, hturns] at key
    rw [clockStep, talTimeGetPosix, hlast, hposix, rightReading]
    exact key
  | posixMs now =>
    have key := posixMs_carried_iff p (m := now % 0x100000000)
      (k := now / 0x100000000 - t₀ / 0x100000000 - 1) hrest
    simp only [ClockRead.now] at helapsed hturns hlast hposix
    rw [← helapsed, hturns] at key
    rw [clockStep, talTimeGetPosixMs, hlast, hposix, rightReading]
    exact key

theorem clockStep_eq_iff_of_not_carried {read : ClockRead} (h : SetAt p t₀ st)
    (hle : t₀ ≤ read.now) (hcarried : ¬Carried t₀ st read.now) :
    (clockStep st read).1 = rightReading p t₀ read ↔ ClockCond p t₀ st read := by
  obtain ⟨-, hlast, hposix⟩ := recycle_spec h read.now
  have hcounter := le_of_not_carried h hcarried
  have hp := p.toNat_lt
  rw [if_neg hcarried] at hlast hposix
  rw [ClockCond, if_neg hcarried]
  cases read with
  | posix now =>
    simp only [ClockRead.now] at hcounter hle hlast hposix
    rw [clockStep, talTimeGetPosix, hlast, hposix, rightReading, u32, talSystemGetMillisecond]
    simp only [ClockRead.now, ClockRead.isMs, Bool.false_eq_true, false_or]
    omega
  | posixMs now =>
    simp only [ClockRead.now] at hcounter hle hlast hposix
    rw [clockStep, talTimeGetPosixMs, hlast, hposix, rightReading, talSystemGetMillisecond]
    simp only [ClockRead.now, ClockRead.isMs, true_or, and_true]
    omega

/-- **A reading is right** exactly if it meets the condition. -/
theorem clockStep_eq_iff {read : ClockRead} (h : SetAt p t₀ st) (hle : t₀ ≤ read.now)
    (hturned : Turned t₀ st read.now) :
    (clockStep st read).1 = rightReading p t₀ read ↔ ClockCond p t₀ st read := by
  by_cases hcarried : Carried t₀ st read.now
  · exact clockStep_eq_iff_of_carried h hcarried (hturned.of_carried h hle hcarried)
  · exact clockStep_eq_iff_of_not_carried h hle hcarried

end Reading

/-! ### Runs -/

def clockNext (st : TimeState) (read : ClockRead) : TimeState :=
  (clockStep st read).2

theorem rightReading_le (p : UInt32) (t₀ : Nat) {a b : ClockRead} (hkind : a.isMs = b.isMs)
    (hle : a.now ≤ b.now) : rightReading p t₀ a ≤ rightReading p t₀ b := by
  cases a with
  | posix now =>
    cases b with
    | posix now' =>
      exact Nat.add_le_add_left (Nat.div_le_div_right (Nat.sub_le_sub_right hle t₀)) _
    | posixMs now' => cases hkind
  | posixMs now =>
    cases b with
    | posix now' => cases hkind
    | posixMs now' => exact Nat.add_le_add_left (Nat.sub_le_sub_right hle t₀) _

theorem outputs_clockStep_iff {p : UInt32} {t₀ : Nat} {reads : List ClockRead} {st : TimeState}
    {now : Nat} (h : SetAt p t₀ st) (hle : t₀ ≤ now) (hturned : Turned t₀ st now)
    (hsorted : (now :: reads.map ClockRead.now).Pairwise (· ≤ ·)) :
    (outputs clockStep st reads).1 = reads.map (rightReading p t₀) ↔
      Guarded clockNext (ClockCond p t₀) st reads := by
  induction reads generalizing st now with
  | nil => exact iff_of_true rfl trivial
  | cons read reads ih =>
    rw [List.map_cons, List.pairwise_cons] at hsorted
    have hnow : now ≤ read.now := hsorted.1 _ List.mem_cons_self
    have hread := hturned.mono hnow
    have hstep := clockStep_eq_iff h (hle.trans hnow) hread
    have hrest := ih (setAt_clockStep h read) (hle.trans hnow)
      (hread.clockStep h (hle.trans hnow)) hsorted.2
    rw [outputs, List.map_cons, List.cons.injEq, hstep, hrest]
    rfl

/-- **Wall-clock time** is right exactly if no reading comes after more than one turn of the
counter, a turn is noticed by the readings after it, and no part of a second is lost in it. -/
theorem keepsTime_iff (st : TimeState) (hset : st.timeDisableUpdate = false) (p : UInt32)
    (updateSource : Int) (t₀ : Nat) (reads : List ClockRead)
    (hsorted : (t₀ :: reads.map ClockRead.now).Pairwise (· ≤ ·)) :
    KeepsTime p t₀ reads (outputs clockStep (talTimeSetPosix st p updateSource t₀) reads).1 ↔
      Guarded clockNext (ClockCond p t₀) (talTimeSetPosix st p updateSource t₀) reads := by
  have h := setAt_talTimeSetPosix hset p updateSource t₀
  have hturned : Turned t₀ (talTimeSetPosix st p updateSource t₀) t₀ := by
    intro hlt
    rw [talTimeSetPosix, if_neg (by rw [hset]; exact Bool.false_ne_true)] at hlt
    exact absurd hlt (Nat.lt_irrefl _)
  rw [← outputs_clockStep_iff h le_rfl hturned hsorted]
  refine ⟨KeepsTime.right, fun hright => ⟨hright, ?_⟩⟩
  have hzip : reads.zip (reads.map (rightReading p t₀)) =
      reads.map fun read => (read, rightReading p t₀ read) := by
    have hmap := List.zip_map' (f := id) (g := rightReading p t₀) (l := reads)
    rwa [List.map_id] at hmap
  have htimes := (List.pairwise_cons.1 hsorted).2
  rw [List.pairwise_map] at htimes
  rw [hright, hzip, List.pairwise_map]
  exact htimes.imp fun hle hkind => rightReading_le p t₀ hkind hle

/-- The time 1000 is set 296 ms before a turn of the counter, and read before and after it. -/
theorem keepsTime_one_turn :
    KeepsTime 1000 4294967000 [.posix 4294967100, .posix 4294967296, .posix 8589933900]
      (outputs clockStep (talTimeSetPosix ⟨0, 0, false, false⟩ 1000 1 4294967000)
        [.posix 4294967100, .posix 4294967296, .posix 8589933900]).1 :=
  (keepsTime_iff ⟨0, 0, false, false⟩ rfl 1000 1 4294967000 _ (by decide)).2 (by decide)

/-- The time 0 is set at the start and read in every period of the counter. The reading after the
turn is 4294967 seconds behind the one before it. -/
theorem not_keepsTime_of_turn :
    ¬KeepsTime 0 0 [.posix 4294967000, .posix 4294968000]
      (outputs clockStep (talTimeSetPosix ⟨0, 0, false, false⟩ 0 1 0)
        [.posix 4294967000, .posix 4294968000]).1 := by
  intro h
  exact absurd h.right (by decide +kernel)

end TuyaOpen.System
