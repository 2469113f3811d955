import TuyaOpen.Basic.Transition
import TuyaOpen.Button.Handle

/-!
# The debounce of a button

A status is to change when as many samples in a row differ from it as scan times fit into the
debounce time, and at least one. `debounce_cnt` counts the samples that differ. It is not reset when
the status changes, so that the next sample that differs from the new status changes it back at
once. It has eight bits: a run of more than `255` samples is never counted, and with one sample to
wait for, the sample at which the count turns over does not change the status.

A run is watched with the samples since the last change of the status. What the handler drops, since
the button is not ready, is no sample.
-/

namespace TuyaOpen.Button

variable (b : ButtonSetup)

def ButtonSetup.debounceScans : Nat := b.scans b.cfg.buttonDebounceTime

/-- A button, with the samples since its status was changed, the latest first. -/
structure Watched where
  data : ButtonDriverData
  since : List UInt8

/-- The number of samples, up to the last one, that differ from the status held before them. -/
def Watched.runLength (w : Watched) : Nat :=
  (w.since.takeWhile fun sample => sample ≠ w.data.status).length

def Dropped (w : Watched) (sample : UInt8) : Prop := Unready b w.data ∧ sample ≠ 0

instance (w : Watched) (sample : UInt8) : Decidable (Dropped b w sample) :=
  inferInstanceAs (Decidable (_ ∧ _))

def watch (w : Watched) (sample : UInt8) : Watched where
  data := (tdlButtonHandle b w.data sample).2
  since :=
    if Dropped b w sample then w.since
    else if (tdlButtonHandle b w.data sample).2.status ≠ w.data.status then []
    else sample :: w.since

/-- A sample that completes a run of samples that differ from the status held before them. -/
def Completes (w : Watched) (sample : UInt8) : Prop :=
  ¬Dropped b w sample ∧ sample ≠ w.data.status ∧ max 1 b.debounceScans ≤ w.runLength + 1

instance (w : Watched) (sample : UInt8) : Decidable (Completes b w sample) :=
  inferInstanceAs (Decidable (_ ∧ _))

def DebounceRight (w : Watched) (sample : UInt8) : Prop :=
  (tdlButtonHandle b w.data sample).2.status ≠ w.data.status ↔ Completes b w sample

instance (w : Watched) (sample : UInt8) : Decidable (DebounceRight b w sample) :=
  inferInstanceAs (Decidable (_ ↔ _))

/-- The condition on a sample. If it differs from the status, then: where one sample is enough, the
count does not turn over; where it can be counted, the count is the length of the run, which fails
right after a change of the status (at `255` the count turns over there, and the run comes out one
too short); and a run that cannot be counted stays short of the debounce time. -/
def DebounceCond (w : Watched) (sample : UInt8) : Prop :=
  Dropped b w sample ∨ sample = w.data.status ∨
    if b.debounceScans ≤ 1 then b.debounceScans = 1 → w.data.debounceCnt ≠ 255
    else if b.debounceScans ≤ 255 then
      w.data.debounceCnt.toNat = w.runLength ∨ b.debounceScans = 255 ∧ w.runLength < 254
    else w.runLength + 1 < b.debounceScans

variable {b} {w : Watched} {sample : UInt8}

/-- The count and the length of the run, along the runs in which the debounce is right. -/
structure Counted (b : ButtonSetup) (w : Watched) : Prop where
  initFlag : w.data.initFlag = true
  count : 2 ≤ b.debounceScans → b.debounceScans ≤ 255 →
    (w.data.debounceCnt.toNat = w.runLength ∧ w.runLength < b.debounceScans) ∨
      (w.runLength = 0 ∧ w.data.debounceCnt.toNat = b.debounceScans) ∨
      (b.debounceScans = 255 ∧ w.data.debounceCnt.toNat + 1 = w.runLength ∧ w.runLength ≤ 254)

/-! ### A step -/

theorem toNat_debounceCnt_succ (c : UInt8) : (c + 1).toNat = (c.toNat + 1) % 256 :=
  UInt8.toNat_add c 1

theorem tdlButtonHandle_snd_eq (hinit : w.data.initFlag = true) (hdrop : ¬Dropped b w sample) :
    (tdlButtonHandle b w.data sample).2.debounceCnt = (debounce b w.data sample).1 ∧
      (tdlButtonHandle b w.data sample).2.status = (debounce b w.data sample).2 := by
  have h := tdlButtonHandle_of_not_unready hinit hdrop
  exact ⟨congrArg Prod.fst h, congrArg Prod.snd h⟩

theorem status_ne_iff (hinit : w.data.initFlag = true) (hdrop : ¬Dropped b w sample)
    (hne : sample ≠ w.data.status) :
    (tdlButtonHandle b w.data sample).2.status ≠ w.data.status ↔
      b.debounceScans ≤ (w.data.debounceCnt.toNat + 1) % 256 := by
  rw [(tdlButtonHandle_snd_eq hinit hdrop).2, debounce, if_pos hne, ← toNat_debounceCnt_succ]
  split_ifs with hle
  · exact iff_of_true hne hle
  · exact iff_of_false (fun h => h rfl) hle

theorem tdlButtonHandle_of_eq (hinit : w.data.initFlag = true) (hdrop : ¬Dropped b w sample)
    (heq : sample = w.data.status) :
    (tdlButtonHandle b w.data sample).2.debounceCnt = 0 ∧
      (tdlButtonHandle b w.data sample).2.status = w.data.status := by
  rw [(tdlButtonHandle_snd_eq hinit hdrop).1, (tdlButtonHandle_snd_eq hinit hdrop).2, debounce,
    if_neg (by simpa using heq)]
  exact ⟨rfl, rfl⟩

/-- **The exact condition.** -/
theorem debounceRight_iff (h : Counted b w) :
    DebounceRight b w sample ↔ DebounceCond b w sample := by
  rw [DebounceRight, DebounceCond, Completes]
  by_cases hdrop : Dropped b w sample
  · rw [tdlButtonHandle_of_unready hdrop.1 hdrop.2]
    exact iff_of_true (iff_of_false (fun h => h rfl) fun h => h.1 hdrop) (Or.inl hdrop)
  by_cases heq : sample = w.data.status
  · rw [(tdlButtonHandle_of_eq h.initFlag hdrop heq).2]
    exact iff_of_true (iff_of_false (fun h => h rfl) fun h => h.2.1 heq) (Or.inr (Or.inl heq))
  rw [status_ne_iff h.initFlag hdrop heq]
  have hcount := h.count
  have hcnt : w.data.debounceCnt.toNat < 256 := w.data.debounceCnt.toNat_lt
  have hlast : w.data.debounceCnt ≠ 255 ↔ w.data.debounceCnt.toNat ≠ 255 := by
    rw [Ne, ← UInt8.toNat_inj]
    rfl
  simp only [hdrop, heq, not_false_eq_true, true_and, false_or, ne_eq]
  rw [← Ne, hlast]
  split_ifs with hone hmany
  · omega
  · have := hcount (by omega) hmany
    omega
  · omega

theorem counted_watch (h : Counted b w) (hright : DebounceRight b w sample) :
    Counted b (watch b w sample) := by
  refine ⟨(tdlButtonHandle_snd_initFlag sample).trans h.initFlag, fun htwo hmany => ?_⟩
  have hcount := h.count htwo hmany
  by_cases hdrop : Dropped b w sample
  · rw [watch, if_pos hdrop, tdlButtonHandle_of_unready hdrop.1 hdrop.2]
    exact hcount
  by_cases heq : sample = w.data.status
  · obtain ⟨hcnt, hstatus⟩ := tdlButtonHandle_of_eq h.initFlag hdrop heq
    have hrun : (watch b w sample).runLength = 0 := by
      rw [watch, if_neg hdrop, if_neg (not_not.2 hstatus), Watched.runLength]
      dsimp only
      rw [hstatus, List.takeWhile_cons_of_neg (by simpa using heq)]
      rfl
    left
    rw [hrun]
    exact ⟨congrArg UInt8.toNat hcnt, by omega⟩
  · have hchange := status_ne_iff h.initFlag hdrop heq
    have hcnt : (watch b w sample).data.debounceCnt.toNat =
        (w.data.debounceCnt.toNat + 1) % 256 := by
      rw [watch, (tdlButtonHandle_snd_eq h.initFlag hdrop).1, debounce, if_pos heq,
        ← toNat_debounceCnt_succ]
      split_ifs <;> rfl
    by_cases hstatus : (tdlButtonHandle b w.data sample).2.status = w.data.status
    · have hrun : (watch b w sample).runLength = w.runLength + 1 := by
        rw [watch, if_neg hdrop, if_neg (not_not.2 hstatus), Watched.runLength]
        dsimp only
        rw [hstatus, List.takeWhile_cons_of_pos (by simpa using heq)]
        rfl
      have hshort : ¬max 1 b.debounceScans ≤ w.runLength + 1 := by
        intro hle
        exact hright.2 ⟨hdrop, heq, hle⟩ hstatus
      have hfew := mt hchange.2 (not_not.2 hstatus)
      rw [hcnt, hrun]
      omega
    · have hrun : (watch b w sample).runLength = 0 := by
        rw [watch, if_neg hdrop, if_pos hstatus]
        rfl
      have hlong := (hright.1 hstatus).2.2
      have hmuch := hchange.1 hstatus
      rw [hcnt, hrun]
      omega

/-! ### Runs -/

/-- **Debouncing.** From the creation of a button on, the status changes exactly at the samples that
complete a run, in exactly the runs in which every sample meets the condition. -/
theorem debounced_iff (b : ButtonSetup) (ready : Bool) (irqScanCnt : UInt32)
    (samples : List UInt8) :
    Guarded (watch b) (DebounceRight b) ⟨buttonCreated ready irqScanCnt, []⟩ samples ↔
      Guarded (watch b) (DebounceCond b) ⟨buttonCreated ready irqScanCnt, []⟩ samples := by
  have hstart : Counted b ⟨buttonCreated ready irqScanCnt, []⟩ :=
    ⟨rfl, fun htwo _ => Or.inl ⟨rfl, lt_of_lt_of_le Nat.zero_lt_two htwo⟩⟩
  have hiff (w : Watched) (sample : UInt8) (h : Counted b w) :
      DebounceRight b w sample ↔ DebounceCond b w sample := debounceRight_iff h
  exact guarded_iff_of_invariant hiff
    (fun w sample h hcond => counted_watch h ((hiff w sample h).2 hcond)) hstart

def sixSamples : ButtonSetup := minScanSetup ⟨1500, 100, 60, 3, 500⟩ .timerScan

/-- Six samples change the status, and the seventh one changes it back alone. -/
theorem not_debounced_sixSamples :
    ¬Guarded (watch sixSamples) (DebounceRight sixSamples) ⟨buttonCreated false 1000, []⟩
      [0, 1, 1, 1, 1, 1, 1, 0] := by
  decide +kernel

end TuyaOpen.Button
