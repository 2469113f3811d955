import TuyaOpen.Basic.Transition
import TuyaOpen.Ota.Firmware

/-!
# The progress of upgrades

`file_download_event_cb` computes the percentage of an upgrade from a product of 32 bits, and
reports it when it is more than five above `progress_percent`. `tuya_ota_init` clears
`progress_percent`, and nothing clears it afterwards: `tuya_ota_start` begins the next upgrade of
the device with the percentage of the last one.

A device gets upgrades one after another. An observer notes the true percentage and the reports of
the present upgrade.
-/

namespace TuyaOpen.Ota

open TuyaOpen.Http

/-! ### The device -/

/-- The part of the upgrade message that the handler looks at. -/
structure OtaMsg where
  channel : UInt8
  fwHmac : Bytes
  length_fwHmac : fwHmac.length = fwHmacLen + 1

/-- `tuya_ota_init`, with the configuration and the key of the device. -/
def tuyaOtaInit (eventCb : Bool) (seckey : Bytes) : OtaCtx where
  channel := 0
  progressPercent := 0
  eventCb := eventCb
  fwHmac := List.replicate (fwHmacLen + 1) 0
  length_fwHmac := List.length_replicate
  seckey := seckey
  sha256 := []

/-- `tuya_ota_start`. -/
def tuyaOtaStart (ota : OtaCtx) (upgrade : OtaMsg) : OtaCtx :=
  { ota with
    channel := upgrade.channel
    fwHmac := upgrade.fwHmac
    length_fwHmac := upgrade.length_fwHmac }

/-- A report, with the true percentage at that time. -/
structure Report where
  percent : Nat
  reported : Nat
  deriving DecidableEq

/-- The upgrade context, with what an observer notes of the present upgrade. -/
structure OtaDevice where
  ota : OtaCtx
  /-- The size of the file. -/
  fileSize : Nat
  /-- The offset of the last data. -/
  offset : Nat
  /-- The true percentage. -/
  percent : Nat
  ended : Bool
  reports : List Report

inductive DeviceEvent
  /-- An upgrade begins, to a file of some size. -/
  | upgrade (msg : OtaMsg) (fileSize : Nat)
  | download (ev : OtaEvent)

/-- The percentages that are passed to `tuya_ota_upgrade_progress_report`. -/
def progressReports (calls : List OtaCall) : List Nat :=
  calls.filterMap fun call =>
    match call with
    | .progressReport percent => some percent.toNat
    | _ => none

/-- The true percentage after an event. A file that has come whole is one of a hundred percent. -/
def OtaDevice.percentAfter (H : Hashes) (s : OtaDevice) : OtaEvent → Nat
  | .onData event fileSize => 100 * event.offset / fileSize
  | .finish => if s.ota.hmacAgrees H then 100 else s.percent
  | _ => s.percent

def OtaDevice.offsetAfter (s : OtaDevice) : OtaEvent → Nat
  | .onData event _ => event.offset
  | _ => s.offset

def OtaEvent.isEnd : OtaEvent → Bool
  | .finish => true
  | .fault => true
  | _ => false

def OtaDevice.next (H : Hashes) (s : OtaDevice) : DeviceEvent → OtaDevice
  | .upgrade msg fileSize => ⟨tuyaOtaStart s.ota msg, fileSize, 0, 0, false, []⟩
  | .download ev =>
    { ota := (fileDownloadEventCb H s.ota ev).2
      fileSize := s.fileSize
      offset := s.offsetAfter ev
      percent := s.percentAfter H ev
      ended := s.ended || ev.isEnd
      reports := s.reports ++
        (progressReports (fileDownloadEventCb H s.ota ev).1).map (⟨s.percentAfter H ev, ·⟩) }

def DeviceEvent.dividesByZero : DeviceEvent → Bool
  | .download (.onData _ fileSize) => fileSize = 0
  | _ => false

/-- What an event does to the device. There is no state after a division by zero. -/
def deviceStep (H : Hashes) (s : OtaDevice) (ev : DeviceEvent) : Option OtaDevice :=
  if ev.dividesByZero then none else some (s.next H ev)

/-- The device after `tuya_ota_init`. -/
def OtaDevice.init (eventCb : Bool) (seckey : Bytes) : OtaDevice :=
  ⟨tuyaOtaInit eventCb seckey, 0, 0, 0, true, []⟩

/-! ### What should be reported -/

/-- The percentage that has been reported last, zero before the first report. -/
def OtaDevice.last (s : OtaDevice) : Nat := (s.reports.map Report.reported).getLast?.getD 0

/-- The reports of the present upgrade are the true percentages, they increase and do not exceed a
hundred, and the last one is within five of the true percentage. -/
structure Faithful (s : OtaDevice) : Prop where
  exact : ∀ report ∈ s.reports, report.reported = report.percent
  increasing : (s.reports.map Report.reported).Pairwise (· < ·)
  le_hundred : ∀ report ∈ s.reports, report.reported ≤ 100
  close : s.percent ≤ s.last + 5 ∧ s.last ≤ s.percent + 5

/-- What can happen. The data of an upgrade come in the order of their offsets, up to the size of
the file, which is a `size_t`, until the download ends. -/
def Permitted (s : OtaDevice) : DeviceEvent → Prop
  | .upgrade _ fileSize => fileSize < 2 ^ 32
  | .download (.onData event fileSize) =>
    s.ended = false ∧ fileSize = s.fileSize ∧ s.offset ≤ event.offset ∧ event.offset ≤ fileSize
  | .download _ => True

/-- A percentage that is to be reported gets through: it is also more than five above the one that
earlier upgrades have left in `progress_percent`, and its product is one of 32 bits. The end is not
reported after a hundred percent. -/
def Reports (H : Hashes) (s : OtaDevice) : DeviceEvent → Prop
  | .download (.onData event fileSize) =>
    fileSize ≠ 0 ∧ (s.last + 5 < 100 * event.offset / fileSize →
      s.ota.progressPercent.toNat + 5 < 100 * event.offset / fileSize ∧
        100 * event.offset < 2 ^ 32)
  | .download .finish => s.ota.hmacAgrees H = true → s.last < 100
  | _ => True

instance instDecidablePermitted (s : OtaDevice) (ev : DeviceEvent) : Decidable (Permitted s ev) :=
  match ev with
  | .upgrade _ fileSize => inferInstanceAs (Decidable (fileSize < 2 ^ 32))
  | .download (.onData event fileSize) =>
    inferInstanceAs (Decidable (s.ended = false ∧ fileSize = s.fileSize ∧
      s.offset ≤ event.offset ∧ event.offset ≤ fileSize))
  | .download .finish => isTrue trivial
  | .download .start => isTrue trivial
  | .download (.onFilesize _) => isTrue trivial
  | .download .fault => isTrue trivial

instance instDecidableReports (H : Hashes) (s : OtaDevice) (ev : DeviceEvent) :
    Decidable (Reports H s ev) :=
  match ev with
  | .upgrade _ _ => isTrue trivial
  | .download (.onData event fileSize) =>
    inferInstanceAs (Decidable (fileSize ≠ 0 ∧ (s.last + 5 < 100 * event.offset / fileSize →
      s.ota.progressPercent.toNat + 5 < 100 * event.offset / fileSize ∧
        100 * event.offset < 2 ^ 32)))
  | .download .finish => inferInstanceAs (Decidable (s.ota.hmacAgrees H = true → s.last < 100))
  | .download .start => isTrue trivial
  | .download (.onFilesize _) => isTrue trivial
  | .download .fault => isTrue trivial

/-! ### The percentage -/

section Percentage

variable {offset fileSize : Nat}

theorem u32_div_lt (hsize : fileSize < 2 ^ 32) (hzero : fileSize ≠ 0)
    (hproduct : 2 ^ 32 ≤ 100 * offset) :
    u32 (offset * 100) / fileSize < 100 * offset / fileSize := by
  have hsplit := Nat.div_add_mod (offset * 100) (2 ^ 32)
  have hquot : 1 ≤ offset * 100 / 2 ^ 32 := Nat.div_pos (by omega) (by omega)
  have hless : u32 (offset * 100) + fileSize ≤ 100 * offset := by
    rw [u32]
    omega
  calc u32 (offset * 100) / fileSize < u32 (offset * 100) / fileSize + 1 := Nat.lt_succ_self _
    _ = (u32 (offset * 100) + fileSize) / fileSize :=
      (Nat.add_div_right _ (Nat.pos_of_ne_zero hzero)).symm
    _ ≤ 100 * offset / fileSize := Nat.div_le_div_right hless

theorem percent_le_hundred (hoffset : offset ≤ fileSize) : 100 * offset / fileSize ≤ 100 :=
  Nat.div_le_of_le_mul (by rw [Nat.mul_comm]; exact Nat.mul_le_mul_right 100 hoffset)

theorem toNat_percent (hsize : fileSize < 2 ^ 32) (hzero : fileSize ≠ 0)
    (hoffset : offset ≤ fileSize) :
    (UInt8.ofNat (u32 (offset * 100) / fileSize)).toNat ≤ 100 * offset / fileSize ∧
      ((UInt8.ofNat (u32 (offset * 100) / fileSize)).toNat = 100 * offset / fileSize ↔
        100 * offset < 2 ^ 32) := by
  have hhundred := percent_le_hundred hoffset
  rcases Nat.lt_or_ge (100 * offset) (2 ^ 32) with hproduct | hproduct
  · have heq : u32 (offset * 100) = 100 * offset := by
      rw [Nat.mul_comm offset, u32_of_lt hproduct]
    rw [heq, UInt8.toNat_ofNat_of_lt' (by change _ < 256; omega)]
    exact ⟨le_rfl, iff_of_true rfl hproduct⟩
  · have hlt := u32_div_lt hsize hzero hproduct
    rw [UInt8.toNat_ofNat_of_lt' (by change _ < 256; omega)]
    exact ⟨hlt.le, iff_of_false hlt.ne hproduct.not_gt⟩

end Percentage

/-! ### The reports of an event -/

section Events

variable {H : Hashes} {s s' : OtaDevice} {ev : DeviceEvent} {event : DataEvent}
  {fileSize : Nat} {report : Report}

theorem progressReports_append (calls calls' : List OtaCall) :
    progressReports (calls ++ calls') = progressReports calls ++ progressReports calls' :=
  List.filterMap_append

theorem progressReports_process (ota : OtaCtx) (event : DataEvent) :
    progressReports (ota.process event).1 = [] ∧
      (ota.process event).2.progressPercent = ota.progressPercent := by
  rw [OtaCtx.process]
  split_ifs
  all_goals exact ⟨rfl, rfl⟩

theorem fileDownloadEventCb_onData (H : Hashes) (ota : OtaCtx) (event : DataEvent)
    (fileSize : Nat) {percent : Nat}
    (hpercent : (UInt8.ofNat (u32 (event.offset * 100) / fileSize)).toNat = percent) :
    (ota.progressPercent.toNat + 5 < percent ∧
      progressReports (fileDownloadEventCb H ota (.onData event fileSize)).1 = [percent] ∧
      (fileDownloadEventCb H ota (.onData event fileSize)).2.progressPercent.toNat = percent) ∨
    (percent ≤ ota.progressPercent.toNat + 5 ∧
      progressReports (fileDownloadEventCb H ota (.onData event fileSize)).1 = [] ∧
      (fileDownloadEventCb H ota (.onData event fileSize)).2.progressPercent =
        ota.progressPercent) := by
  obtain ⟨hnone, hkeep⟩ := progressReports_process ota event
  simp only [fileDownloadEventCb, progressReports_append, hnone, List.nil_append, OtaCtx.progress,
    hkeep]
  split_ifs with hmore
  · rw [hpercent] at hmore
    refine .inl ⟨by omega, ?_, hpercent⟩
    exact congrArg (fun n => [n]) hpercent
  · rw [hpercent] at hmore
    exact .inr ⟨by omega, rfl, hkeep⟩

theorem last_of_concat {reports : List Report} (h : s.reports = reports ++ [report]) :
    s.last = report.reported := by
  rw [OtaDevice.last, h, List.map_append]
  exact congrArg (Option.getD · 0) List.getLast?_concat

theorem last_eq_of_reports (h : s'.reports = s.reports) : s'.last = s.last := by
  rw [OtaDevice.last, h, OtaDevice.last]

theorem Faithful.le_last (h : Faithful s) : ∀ report ∈ s.reports, report.reported ≤ s.last := by
  intro report hmem
  rcases List.eq_nil_or_concat s.reports with hnil | ⟨reports, latest, hconcat⟩
  · rw [hnil] at hmem
    cases hmem
  · rw [List.concat_eq_append] at hconcat
    have hincreasing := h.increasing
    have hlast := last_of_concat hconcat
    rw [hconcat, List.map_append, List.pairwise_append] at hincreasing
    rw [hconcat, List.mem_append, List.mem_singleton] at hmem
    rw [hlast]
    rcases hmem with hmem | rfl
    · exact (hincreasing.2.2 _ (List.mem_map_of_mem hmem) _ List.mem_cons_self).le
    · exact le_rfl

theorem Faithful.add (h : Faithful s) (hreports : s'.reports = s.reports ++ [report])
    (hexact : report.reported = s'.percent) (hpercent : report.percent = s'.percent)
    (hhundred : s'.percent ≤ 100) (hmore : s.reports = [] ∨ s.last < report.reported) :
    Faithful s' where
  exact report' hmem := by
    rw [hreports, List.mem_append, List.mem_singleton] at hmem
    rcases hmem with hmem | rfl
    · exact h.exact report' hmem
    · exact hexact.trans hpercent.symm
  increasing := by
    rw [hreports, List.map_append, List.pairwise_append]
    refine ⟨h.increasing, List.pairwise_singleton _ _, fun n hn n' hn' => ?_⟩
    obtain ⟨report', hmem, rfl⟩ := List.mem_map.1 hn
    obtain rfl := List.mem_singleton.1 hn'
    rcases hmore with hnil | hmore
    · rw [hnil] at hmem
      cases hmem
    · exact (h.le_last report' hmem).trans_lt hmore
  le_hundred report' hmem := by
    rw [hreports, List.mem_append, List.mem_singleton] at hmem
    rcases hmem with hmem | rfl
    · exact h.le_hundred report' hmem
    · rwa [hexact]
  close := by
    rw [last_of_concat hreports, hexact]
    omega

theorem Faithful.keep (h : Faithful s) (hreports : s'.reports = s.reports)
    (hclose : s'.percent ≤ s.last + 5 ∧ s.last ≤ s'.percent + 5) : Faithful s' where
  exact := hreports ▸ h.exact
  increasing := hreports ▸ h.increasing
  le_hundred := hreports ▸ h.le_hundred
  close := by rwa [last_eq_of_reports hreports]

end Events

/-! ### Runs -/

/-- The invariant of the device: while a download runs, the last report is not more than the true
percentage, and it is what `progress_percent` holds. -/
structure Following (s : OtaDevice) : Prop where
  faithful : Faithful s
  fileSize : s.fileSize < 2 ^ 32
  running : s.ended = false → s.percent = 100 * s.offset / s.fileSize ∧ s.last ≤ s.percent ∧
    (s.reports = [] ∨ s.last = s.ota.progressPercent.toNat)

section Runs

variable {H : Hashes} {s s' : OtaDevice} {ev : DeviceEvent} {event : DataEvent} {fileSize : Nat}

theorem following_init (eventCb : Bool) (seckey : Bytes) : Following (.init eventCb seckey) where
  faithful := ⟨by simp [OtaDevice.init], by simp [OtaDevice.init], by simp [OtaDevice.init],
    ⟨Nat.zero_le _, Nat.zero_le _⟩⟩
  fileSize := Nat.two_pow_pos 32
  running := by simp [OtaDevice.init]

theorem last_eq_zero (h : s.reports = []) : s.last = 0 := by
  rw [OtaDevice.last, h]
  rfl

theorem next_onData (H : Hashes) (s : OtaDevice) (event : DataEvent) (fileSize : Nat)
    {percent : Nat}
    (hpercent : (UInt8.ofNat (u32 (event.offset * 100) / fileSize)).toNat = percent) :
    (s.ota.progressPercent.toNat + 5 < percent ∧
      (s.next H (.download (.onData event fileSize))).reports =
        s.reports ++ [⟨100 * event.offset / fileSize, percent⟩] ∧
      (s.next H (.download (.onData event fileSize))).ota.progressPercent.toNat = percent) ∨
    (percent ≤ s.ota.progressPercent.toNat + 5 ∧
      (s.next H (.download (.onData event fileSize))).reports = s.reports ∧
      (s.next H (.download (.onData event fileSize))).ota.progressPercent =
        s.ota.progressPercent) := by
  rcases fileDownloadEventCb_onData H s.ota event fileSize hpercent with
    ⟨hmore, hcalls, hset⟩ | ⟨hfew, hcalls, hset⟩
  · refine .inl ⟨hmore, ?_, hset⟩
    simp only [OtaDevice.next, hcalls, List.map_cons, List.map_nil, OtaDevice.percentAfter]
  · refine .inr ⟨hfew, ?_, hset⟩
    simp only [OtaDevice.next, hcalls, List.map_nil, List.append_nil]

/-- **Step lemma.** Data keep the invariant when their percentage gets through, and only then are
the reports faithful. -/
theorem Following.onData (h : Following s)
    (hpermitted : Permitted s (.download (.onData event fileSize))) (hzero : fileSize ≠ 0) :
    (Reports H s (.download (.onData event fileSize)) →
      Following (s.next H (.download (.onData event fileSize)))) ∧
    (Faithful (s.next H (.download (.onData event fileSize))) →
      Reports H s (.download (.onData event fileSize))) := by
  obtain ⟨hended, rfl, horder, hoffset⟩ := hpermitted
  obtain ⟨hpercent, hlast, hprogress⟩ := h.running hended
  obtain ⟨hle, hexact⟩ := toNat_percent h.fileSize hzero hoffset
  have hhundred := percent_le_hundred hoffset
  have hmono : s.percent ≤ 100 * event.offset / s.fileSize := by
    rw [hpercent]
    exact Nat.div_le_div_right (Nat.mul_le_mul_left 100 horder)
  have hbelow : s.last ≤ s.ota.progressPercent.toNat := by
    rcases hprogress with hnil | heq
    · rw [last_eq_zero hnil]
      exact Nat.zero_le _
    · exact heq.le
  generalize hp : (UInt8.ofNat (u32 (event.offset * 100) / s.fileSize)).toNat = p at hle hexact
  rcases next_onData H s event s.fileSize hp with ⟨hmore, hreports, hset⟩ | ⟨hfew, hreports, hset⟩
  · -- a report is made, and it is right if the product is one of 32 bits
    have hlast' := last_of_concat hreports
    constructor
    · rintro ⟨-, hcond⟩
      have heq : p = 100 * event.offset / s.fileSize := hexact.2 (hcond (by omega)).2
      refine ⟨h.faithful.add hreports heq rfl hhundred ?_, h.fileSize, fun _ => ?_⟩
      · exact .inr (hbelow.trans_lt (by dsimp only; omega))
      · exact ⟨rfl, hlast'.le.trans hle, .inr (hlast'.trans hset.symm)⟩
    · intro hfaithful
      have heq : p = 100 * event.offset / s.fileSize :=
        hfaithful.exact _ (hreports ▸ List.mem_append_right _ List.mem_cons_self)
      exact ⟨hzero, fun _ => ⟨heq ▸ hmore, hexact.1 heq⟩⟩
  · -- no report is made, and it is right if the true percentage has not moved by more than five
    have hlast' := last_eq_of_reports hreports
    have hclose : Reports H s (.download (.onData event s.fileSize)) ↔
        100 * event.offset / s.fileSize ≤ s.last + 5 := by
      refine ⟨fun hcond => ?_, fun hle' => ⟨hzero, fun hlt => absurd hlt hle'.not_gt⟩⟩
      by_contra hfar
      obtain ⟨hmore, hproduct⟩ := hcond.2 (Nat.lt_of_not_le hfar)
      have heq := hexact.2 hproduct
      omega
    rw [hclose]
    constructor
    · intro hle'
      refine ⟨h.faithful.keep hreports ⟨hle', ?_⟩, h.fileSize, fun _ => ⟨rfl, ?_, ?_⟩⟩
      · exact (hlast.trans hmono).trans (Nat.le_add_right _ 5)
      · exact hlast'.le.trans (hlast.trans hmono)
      · rw [hreports, hlast', hset]
        exact hprogress
    · intro hfaithful
      have hclose' := hfaithful.close.1
      rwa [hlast'] at hclose'

theorem reports_next_finish (H : Hashes) (s : OtaDevice) :
    (s.next H (.download .finish)).reports =
      s.reports ++ if s.ota.hmacAgrees H = true then [⟨100, 100⟩] else [] := by
  simp only [OtaDevice.next, OtaDevice.percentAfter, fileDownloadEventCb]
  split_ifs
  all_goals rfl

/-- **Step lemma.** The end keeps the invariant unless a hundred percent has been reported. -/
theorem Following.finish (h : Following s) :
    (Reports H s (.download .finish) → Following (s.next H (.download .finish))) ∧
    (Faithful (s.next H (.download .finish)) → Reports H s (.download .finish)) := by
  have hstop : (s.next H (.download .finish)).ended ≠ false := by
    simp [OtaDevice.next, OtaEvent.isEnd]
  have hreports := reports_next_finish H s
  by_cases hagrees : s.ota.hmacAgrees H = true
  · rw [if_pos hagrees] at hreports
    have hpercent : (s.next H (.download .finish)).percent = 100 := if_pos hagrees
    constructor
    · intro hcond
      refine ⟨h.faithful.add hreports ?_ ?_ ?_ (.inr (hcond hagrees)), h.fileSize,
        fun h' => (hstop h').elim⟩
      all_goals rw [hpercent]
    · intro hfaithful _
      have hincreasing := hfaithful.increasing
      rw [hreports, List.map_append, List.pairwise_append] at hincreasing
      rcases List.eq_nil_or_concat s.reports with hnil | ⟨reports, latest, hconcat⟩
      · rw [last_eq_zero hnil]
        exact Nat.succ_pos 99
      · rw [List.concat_eq_append] at hconcat
        rw [last_of_concat hconcat]
        refine hincreasing.2.2 _ (List.mem_map_of_mem ?_) 100 List.mem_cons_self
        rw [hconcat]
        exact List.mem_append_right _ List.mem_cons_self
  · rw [if_neg hagrees, List.append_nil] at hreports
    have hpercent : (s.next H (.download .finish)).percent = s.percent := if_neg hagrees
    refine ⟨fun _ => ⟨h.faithful.keep hreports ?_, h.fileSize, fun h' => (hstop h').elim⟩,
      fun _ hagrees' => absurd hagrees' hagrees⟩
    rw [hpercent]
    exact h.faithful.close

theorem Following.other (h : Following s) {ev : OtaEvent}
    (hcalls : progressReports (fileDownloadEventCb H s.ota ev).1 = [])
    (hset : (fileDownloadEventCb H s.ota ev).2.progressPercent = s.ota.progressPercent)
    (hpercent : s.percentAfter H ev = s.percent) (hoffset : s.offsetAfter ev = s.offset) :
    Following (s.next H (.download ev)) := by
  have hreports : (s.next H (.download ev)).reports = s.reports := by
    simp only [OtaDevice.next, hcalls, List.map_nil, List.append_nil]
  refine ⟨h.faithful.keep hreports ?_, h.fileSize, fun hended => ?_⟩
  · change s.percentAfter H ev ≤ s.last + 5 ∧ s.last ≤ s.percentAfter H ev + 5
    rw [hpercent]
    exact h.faithful.close
  · obtain ⟨hrunning, -⟩ := Bool.or_eq_false_iff.1 hended
    rw [last_eq_of_reports hreports, hreports]
    simp only [OtaDevice.next, hpercent, hoffset, hset]
    exact h.running hrunning

theorem next_of_deviceStep (hstep : deviceStep H s ev = some s') : s' = s.next H ev := by
  rw [deviceStep] at hstep
  split_ifs at hstep
  exact (Option.some.inj hstep).symm

/-- **Step lemma.** A permitted event that meets the condition does not fault and keeps the
invariant. -/
theorem Following.step (h : Following s) (hpermitted : Permitted s ev) (hcond : Reports H s ev) :
    deviceStep H s ev = some (s.next H ev) ∧ Following (s.next H ev) := by
  match ev with
  | .upgrade msg fileSize =>
    refine ⟨rfl, ⟨fun _ => ?_, List.Pairwise.nil, fun _ => ?_, ⟨Nat.zero_le _, Nat.zero_le _⟩⟩,
      hpermitted, fun _ => ⟨?_, Nat.zero_le _, .inl rfl⟩⟩
    · exact fun hmem => absurd hmem List.not_mem_nil
    · exact fun hmem => absurd hmem List.not_mem_nil
    · exact (Nat.zero_div fileSize).symm
  | .download .start => exact ⟨rfl, h.other rfl rfl rfl rfl⟩
  | .download (.onFilesize fileSize) =>
    refine ⟨rfl, h.other ?_ ?_ rfl rfl⟩
    all_goals
      rw [fileDownloadEventCb]
      split_ifs
      all_goals rfl
  | .download (.onData event fileSize) =>
    exact ⟨if_neg (by simpa [DeviceEvent.dividesByZero] using hcond.1),
      (h.onData hpermitted hcond.1).1 hcond⟩
  | .download .finish => exact ⟨rfl, (h.finish).1 hcond⟩
  | .download .fault =>
    refine ⟨rfl, h.other ?_ rfl rfl rfl⟩
    rw [fileDownloadEventCb]
    split_ifs
    all_goals rfl

theorem Following.reports (h : Following s) (hpermitted : Permitted s ev)
    (hstep : deviceStep H s ev = some s') (hfaithful : Faithful s') : Reports H s ev := by
  match ev with
  | .upgrade _ _ => trivial
  | .download .start => trivial
  | .download (.onFilesize _) => trivial
  | .download (.onData event fileSize) =>
    have hnext := next_of_deviceStep hstep
    subst hnext
    rw [deviceStep] at hstep
    split_ifs at hstep with hzero
    exact (h.onData hpermitted (by simpa [DeviceEvent.dividesByZero] using hzero)).2 hfaithful
  | .download .finish =>
    obtain rfl := Option.some.inj hstep
    exact (h.finish).2 hfaithful
  | .download .fault => trivial

end Runs

/-- **The progress of upgrades.** Along every sequence of upgrades of a device, with files of every
size and data in the order of their offsets, the progress is reported faithfully if and only if
every percentage that is to be reported gets through. -/
theorem faithful_throughout_iff (H : Hashes) (eventCb : Bool) (seckey : Bytes)
    (evs : List DeviceEvent)
    (hpermitted : Guarded (OtaDevice.next H) Permitted (.init eventCb seckey) evs) :
    Throughout (deviceStep H) Faithful (.init eventCb seckey) evs ↔
      Guarded (OtaDevice.next H) (Reports H) (.init eventCb seckey) evs :=
  throughout_iff_of_exact (fun _ h => h.faithful)
    (fun _ _ h hev hcond => h.step hev hcond)
    (fun _ _ _ h hev hstep hfaithful => h.reports hev hstep hfaithful)
    (following_init eventCb seckey) hpermitted

/-- The upgrade message of `abc`. -/
def abcMsg : OtaMsg := ⟨0, hex2str abcMac ++ [0], (abcUpgrade 0).length_fwHmac⟩

/-- An upgrade to `abc`, with data from the offsets 0 and 2. -/
def abcDevice : List DeviceEvent :=
  [.upgrade abcMsg 3, .download .start, .download (.onFilesize 3),
    .download (.onData ⟨0, [97, 98], 0⟩ 3), .download (.onData ⟨2, [99], 0⟩ 3), .download .finish]

theorem faithful_throughout_iff_abc :
    Throughout (deviceStep abcHashes) Faithful (.init true (abcKey ++ [0])) abcDevice :=
  (faithful_throughout_iff abcHashes true (abcKey ++ [0]) abcDevice (by decide +kernel)).2
    (by decide +kernel)

def twoHalves : List DeviceEvent :=
  [.upgrade abcMsg 100, .download (.onData ⟨50, [], 0⟩ 100),
    .upgrade abcMsg 100, .download (.onData ⟨50, [], 0⟩ 100)]

/-- Half of the second file is not reported. -/
theorem not_faithful_twoHalves :
    Guarded (OtaDevice.next abcHashes) Permitted (.init true (abcKey ++ [0])) twoHalves ∧
      ¬Throughout (deviceStep abcHashes) Faithful (.init true (abcKey ++ [0])) twoHalves := by
  refine ⟨by decide +kernel, ?_⟩
  rintro ⟨-, _, h₁, -, _, h₂, -, _, h₃, -, _, h₄, hfaithful⟩
  obtain rfl := next_of_deviceStep h₁
  obtain rfl := next_of_deviceStep h₂
  obtain rfl := next_of_deviceStep h₃
  obtain rfl := next_of_deviceStep h₄
  have hclose := hfaithful.close.1
  revert hclose
  decide +kernel

end TuyaOpen.Ota
