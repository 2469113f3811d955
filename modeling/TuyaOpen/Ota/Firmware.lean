import TuyaOpen.Basic.Text
import TuyaOpen.Http.Download

/-!
# Firmware upgrades

`file_download_event_cb` of `tuya_ota.c` is the handler of the download of a firmware file. It gives
the data to the flash (channel 0) or to the application (other channels), and hashes them. At the
end it compares the HMAC of the digest with the one of the upgrade message, and reports completion
when they agree.

The data are hashed on channel 0 only, and only those that the flash has taken. When the HMAC does
not agree, nothing is reported.

SHA-256 and HMAC are parameters: a digest is a function of the bytes that have been hashed, in their
order.
-/

namespace TuyaOpen.Ota

open TuyaOpen.Http

/-! ### Hexadecimal digits -/

/-- `asc2hex`. -/
def asc2hex (asccode : UInt8) : UInt8 :=
  if 0x30 ≤ asccode ∧ asccode ≤ 0x39 then asccode - 0x30
  else if 0x61 ≤ asccode ∧ asccode ≤ 0x66 then asccode - 0x61 + 10
  else if 0x41 ≤ asccode ∧ asccode ≤ 0x46 then asccode - 0x41 + 10
  else 0

/-- `ascs2hex`. -/
def ascs2hex : Bytes → Bytes
  | h :: l :: ascs => ((asc2hex h <<< 4) + asc2hex l) :: ascs2hex ascs
  | _ => []

/-- A digit of `hex2str`. -/
def hexDigit (n : UInt8) : UInt8 := if 57 < 48 + n then 48 + n + 7 else 48 + n

/-- `hex2str`, without the NUL. -/
def hex2str (src : Bytes) : Bytes := src.flatMap fun b => [hexDigit (b / 16), hexDigit (b % 16)]

theorem length_ascs2hex (ascs : Bytes) : (ascs2hex ascs).length = ascs.length / 2 := by
  fun_induction ascs2hex ascs with
  | case1 h l ascs ih =>
    rw [List.length_cons, ih, List.length_cons, List.length_cons]
    omega
  | case2 ascs h =>
    match ascs, h with
    | [], _ => rfl
    | [_], _ => exact (Nat.div_eq_of_lt (Nat.lt_succ_self 1)).symm
    | h' :: l :: ascs, h => exact absurd rfl (h h' l ascs)

/-! ### The handler -/

structure Hashes where
  sha256 : Bytes → Bytes
  mac : (key data : Bytes) → Bytes
  length_mac : ∀ key data, (mac key data).length = 32

/-- `FW_HMAC_LEN`. -/
def fwHmacLen : Nat := 64

/-- `tuya_ota_event_id_t`. -/
inductive OtaEventId
  | start
  | onData
  | finish
  | fault
  deriving DecidableEq

/-- `TUS_UPGRDING`. -/
def tusUpgrding : Nat := 2

/-- `TUS_UPGRD_FINI`. -/
def tusUpgrdFini : Nat := 3

/-- `TUS_UPGRD_EXEC`. -/
def tusUpgrdExec : Nat := 4

inductive OtaCall
  | statusReport (status : Nat)
  | progressReport (percent : UInt8)
  | startNotify (fileSize : Nat)
  | dataProcess (offset : Nat) (data : Bytes)
  | endNotify (reset : Bool)
  | eventCb (id : OtaEventId)
  deriving DecidableEq

/-- `tuya_ota_t`, with the bytes that the SHA-256 context has been given. -/
structure OtaCtx where
  channel : UInt8
  progressPercent : UInt8
  /-- The configuration has an `event_cb`. -/
  eventCb : Bool
  fwHmac : Bytes
  length_fwHmac : fwHmac.length = fwHmacLen + 1
  /-- The key of the device. -/
  seckey : Bytes
  sha256 : Bytes

inductive OtaEvent
  | start
  | onFilesize (fileSize : Nat)
  /-- Data, with what is left of them afterwards. -/
  | onData (event : DataEvent) (fileSize : Nat)
  | finish
  | fault

/-- The start of the case for data: they are flashed and hashed, or given to the application. -/
def OtaCtx.process (ota : OtaCtx) (event : DataEvent) : List OtaCall × OtaCtx :=
  if ota.channel = 0 then
    ([.dataProcess event.offset event.data],
      { ota with sha256 := ota.sha256 ++ event.data.take (event.data.length - event.remainLen) })
  else if ota.eventCb then ([.eventCb .onData], ota)
  else ([], ota)

/-- The end of the case for data: the progress is reported in steps of more than five percent. -/
def OtaCtx.progress (ota : OtaCtx) (offset fileSize : Nat) : List OtaCall × OtaCtx :=
  let percent := UInt8.ofNat (u32 (offset * 100) / fileSize)
  if 5 < (percent.toNat : ℤ) - ota.progressPercent.toNat then
    ([.progressReport percent], { ota with progressPercent := percent })
  else ([], ota)

/-- The comparison at the end: the HMAC of the digest is the one of the message. -/
def OtaCtx.hmacAgrees (H : Hashes) (ota : OtaCtx) : Bool :=
  (ascs2hex (ota.fwHmac.take fwHmacLen)).take 32 =
    (H.mac (cString ota.seckey) (hex2str (H.sha256 ota.sha256))).take 32

/-- `file_download_event_cb`. -/
def fileDownloadEventCb (H : Hashes) (ota : OtaCtx) : OtaEvent → List OtaCall × OtaCtx
  | .start => ([.statusReport tusUpgrding], { ota with sha256 := [] })
  | .onFilesize fileSize =>
    if ota.channel = 0 then ([.startNotify fileSize], ota)
    else if ota.eventCb then ([.eventCb .start], ota)
    else ([], ota)
  | .onData event fileSize =>
    let r := ota.process event
    let p := r.2.progress event.offset fileSize
    (r.1 ++ p.1, p.2)
  | .finish =>
    if ota.hmacAgrees H then
      ([.progressReport 100, .statusReport tusUpgrdFini] ++
        (if ota.channel = 0 then [.endNotify true]
          else if ota.eventCb then [.eventCb .finish]
          else []), ota)
    else ([], ota)
  | .fault =>
    ([.statusReport tusUpgrdExec] ++ (if ota.eventCb then [.eventCb .fault] else []), ota)

def otaRun (H : Hashes) : OtaCtx → List OtaEvent → List OtaCall × OtaCtx
  | ota, [] => ([], ota)
  | ota, ev :: evs =>
    let r := fileDownloadEventCb H ota ev
    let rest := otaRun H r.2 evs
    (r.1 ++ rest.1, rest.2)

/-! ### What should be reported -/

def Authentic (H : Hashes) (ota : OtaCtx) (file : Bytes) : Prop :=
  ascs2hex (ota.fwHmac.take fwHmacLen) = H.mac (cString ota.seckey) (hex2str (H.sha256 file))

def OtaCall.Completion : OtaCall → Prop
  | .statusReport status => status = tusUpgrdFini
  | .endNotify reset => reset = true
  | .eventCb id => id = .finish
  | _ => False

/-- The reports of a failure. The states from 40 to 49 are the errors of `tuya_ota.h`. -/
def OtaCall.Failure : OtaCall → Prop
  | .statusReport status => status = tusUpgrdExec ∨ (40 ≤ status ∧ status ≤ 49)
  | .endNotify reset => reset = false
  | .eventCb id => id = .fault
  | _ => False

def OtaEvent.Middle : OtaEvent → Prop
  | .onFilesize _ => True
  | .onData _ _ => True
  | _ => False

def dataOf (evs : List OtaEvent) : List DataEvent :=
  evs.filterMap fun ev =>
    match ev with
    | .onData event _ => some event
    | _ => none

/-- After a whole download the bytes that have been hashed are those of the file, completion is
reported exactly if the file authenticates, and otherwise a failure is reported. -/
def Accepts (H : Hashes) (ota : OtaCtx) (file : Bytes) (evs : List OtaEvent) : Prop :=
  (otaRun H ota (.start :: evs)).2.sha256 = file ∧
    ((∃ call ∈ (otaRun H ota (.start :: evs ++ [.finish])).1, call.Completion) ↔
      Authentic H ota file) ∧
    (¬Authentic H ota file →
      ∃ call ∈ (otaRun H ota (.start :: evs ++ [.finish])).1, call.Failure)

/-! ### The digest -/

section Digest

variable {H : Hashes} {ota : OtaCtx} {file : Bytes} {evs : List OtaEvent} {ev : OtaEvent}

def hashed (events : List DataEvent) : Bytes :=
  events.flatMap fun event => event.data.take (event.data.length - event.remainLen)

theorem hashed_of_delivers {pos pos' : Nat} {events : List DataEvent}
    (h : Delivers file pos events pos') (hpos : pos ≤ file.length) :
    pos ≤ pos' ∧ pos' ≤ file.length ∧ hashed events = slice file pos (pos' - pos) := by
  induction h with
  | nil pos =>
    refine ⟨le_rfl, hpos, ?_⟩
    rw [Nat.sub_self]
    rfl
  | @cons event events pos' hle hdata hremain _ ih =>
    obtain ⟨hle₁, hle₂, hrest⟩ := ih (by omega)
    refine ⟨by omega, hle₂, ?_⟩
    have htake : event.data.take (event.data.length - event.remainLen) =
        slice file event.offset (event.data.length - event.remainLen) := by
      generalize hn : event.data.length = n at hdata hremain
      rw [hdata, ← slice_zero, slice_slice (by omega), Nat.add_zero]
    have hsplit : pos' - event.offset = (event.data.length - event.remainLen) +
        (pos' - (event.offset + event.data.length - event.remainLen)) := by omega
    have hnext : event.offset + (event.data.length - event.remainLen) =
        event.offset + event.data.length - event.remainLen := by omega
    rw [hashed, List.flatMap_cons, htake, hsplit, slice_add, hnext]
    exact congrArg _ hrest

/-- A later state of the same upgrade. Only the progress and the digest change. -/
structure OtaCtx.Later (ota ota' : OtaCtx) : Prop where
  channel : ota'.channel = ota.channel
  eventCb : ota'.eventCb = ota.eventCb
  fwHmac : ota'.fwHmac = ota.fwHmac
  seckey : ota'.seckey = ota.seckey

/-- A call that says neither that the upgrade is complete nor that it has failed. -/
def OtaCall.Neutral (call : OtaCall) : Prop := ¬call.Completion ∧ ¬call.Failure

def hashedOn (channel : UInt8) (events : List DataEvent) : Bytes :=
  if channel = 0 then hashed events else []

theorem hashedOn_append (channel : UInt8) (events events' : List DataEvent) :
    hashedOn channel (events ++ events') = hashedOn channel events ++ hashedOn channel events' := by
  unfold hashedOn
  split_ifs
  · exact List.flatMap_append
  · rfl

theorem OtaCtx.Later.trans {ota' ota'' : OtaCtx} (h : ota.Later ota') (h' : ota'.Later ota'') :
    ota.Later ota'' :=
  ⟨h'.channel.trans h.channel, h'.eventCb.trans h.eventCb, h'.fwHmac.trans h.fwHmac,
    h'.seckey.trans h.seckey⟩

/-- What the events between the start and the end do: the data are hashed, and nothing is said of
the upgrade as a whole. -/
structure Continues (ota : OtaCtx) (events : List DataEvent) (r : List OtaCall × OtaCtx) :
    Prop where
  later : ota.Later r.2
  sha256 : r.2.sha256 = ota.sha256 ++ hashedOn ota.channel events
  neutral : ∀ call ∈ r.1, call.Neutral

theorem Continues.append {events events' : List DataEvent} {r r' : List OtaCall × OtaCtx}
    (h : Continues ota events r) (h' : Continues r.2 events' r') :
    Continues ota (events ++ events') (r.1 ++ r'.1, r'.2) where
  later := h.later.trans h'.later
  sha256 := by
    rw [h'.sha256, h.sha256, h.later.channel, hashedOn_append, List.append_assoc]
  neutral call hcall := (List.mem_append.1 hcall).elim (h.neutral call) (h'.neutral call)

theorem continues_progress (ota : OtaCtx) (offset fileSize : Nat) :
    Continues ota [] (ota.progress offset fileSize) := by
  have hnone : hashedOn ota.channel [] = [] := ite_self _
  rw [OtaCtx.progress]
  split_ifs
  · refine ⟨⟨rfl, rfl, rfl, rfl⟩, by rw [hnone, List.append_nil], ?_⟩
    simp [OtaCall.Neutral, OtaCall.Completion, OtaCall.Failure]
  · exact ⟨⟨rfl, rfl, rfl, rfl⟩, by rw [hnone, List.append_nil], by simp⟩

theorem continues_process (ota : OtaCtx) (event : DataEvent) :
    Continues ota [event] (ota.process event) := by
  rw [OtaCtx.process]
  split_ifs with hchannel hcb
  · refine ⟨⟨rfl, rfl, rfl, rfl⟩, ?_, ?_⟩
    · rw [hashedOn, if_pos hchannel, hashed, List.flatMap_singleton]
    · simp [OtaCall.Neutral, OtaCall.Completion, OtaCall.Failure]
  all_goals refine ⟨⟨rfl, rfl, rfl, rfl⟩, by rw [hashedOn, if_neg hchannel, List.append_nil], ?_⟩
  · simp [OtaCall.Neutral, OtaCall.Completion, OtaCall.Failure]
  · simp

/-- **Step lemma.** An event between the start and the end. -/
theorem continues_of_middle (ota : OtaCtx) (hmid : ev.Middle) :
    Continues ota (dataOf [ev]) (fileDownloadEventCb H ota ev) := by
  cases ev with
  | start => exact hmid.elim
  | finish => exact hmid.elim
  | fault => exact hmid.elim
  | onFilesize fileSize =>
    have hnone : hashedOn ota.channel (dataOf [.onFilesize fileSize]) = [] := ite_self _
    rw [fileDownloadEventCb]
    split_ifs
    all_goals refine ⟨⟨rfl, rfl, rfl, rfl⟩, by rw [hnone, List.append_nil], ?_⟩
    all_goals simp [OtaCall.Neutral, OtaCall.Completion, OtaCall.Failure]
  | onData event fileSize =>
    exact (continues_process ota event).append (continues_progress _ event.offset fileSize)

/-- **Run lemma.** The events between the start and the end. -/
theorem continues_otaRun (ota : OtaCtx) (hmids : ∀ ev ∈ evs, ev.Middle) :
    Continues ota (dataOf evs) (otaRun H ota evs) := by
  induction evs generalizing ota with
  | nil =>
    have hnone : hashedOn ota.channel (dataOf []) = [] := ite_self _
    exact ⟨⟨rfl, rfl, rfl, rfl⟩, by rw [hnone, List.append_nil]; rfl, by simp [otaRun]⟩
  | cons ev evs ih =>
    have hhead : Continues ota (dataOf [ev]) (fileDownloadEventCb H ota ev) :=
      continues_of_middle ota (hmids ev List.mem_cons_self)
    have hrest := ih (fileDownloadEventCb H ota ev).2 fun ev' h =>
      hmids ev' (List.mem_cons_of_mem ev h)
    have hdata : dataOf (ev :: evs) = dataOf [ev] ++ dataOf evs := by
      rw [dataOf, ← List.singleton_append, List.filterMap_append]
      rfl
    rw [hdata]
    exact hhead.append hrest

theorem continues_otaRun_start (ota : OtaCtx) (hmids : ∀ ev ∈ evs, ev.Middle) :
    Continues { ota with sha256 := [] } (dataOf evs) (otaRun H ota (.start :: evs)) := by
  have hrest : Continues { ota with sha256 := [] } (dataOf evs)
      (otaRun H { ota with sha256 := [] } evs) := continues_otaRun _ hmids
  refine ⟨hrest.later, hrest.sha256, ?_⟩
  intro call hcall
  rcases List.mem_cons.1 hcall with rfl | hcall
  · simp [OtaCall.Neutral, OtaCall.Completion, OtaCall.Failure, tusUpgrding, tusUpgrdFini,
      tusUpgrdExec]
  · exact hrest.neutral call hcall

end Digest

/-! ### The end -/

section End

variable {H : Hashes} {ota : OtaCtx} {file : Bytes} {evs : List OtaEvent}

theorem otaRun_append (evs evs' : List OtaEvent) :
    otaRun H ota (evs ++ evs') =
      ((otaRun H ota evs).1 ++ (otaRun H (otaRun H ota evs).2 evs').1,
        (otaRun H (otaRun H ota evs).2 evs').2) := by
  induction evs generalizing ota with
  | nil => rfl
  | cons ev evs ih =>
    rw [List.cons_append, otaRun, ih, otaRun, List.append_assoc]

theorem hmacAgrees_iff : ota.hmacAgrees H = true ↔ Authentic H ota ota.sha256 := by
  have hlength : (ascs2hex (ota.fwHmac.take fwHmacLen)).length = 32 := by
    rw [length_ascs2hex, List.length_take, ota.length_fwHmac]
    rfl
  rw [OtaCtx.hmacAgrees, decide_eq_true_iff, List.take_of_length_le hlength.le,
    List.take_of_length_le (H.length_mac _ _).le, Authentic]

theorem authentic_iff_of_later {ota' : OtaCtx} (h : ota.Later ota') :
    Authentic H ota' file ↔ Authentic H ota file := by
  rw [Authentic, Authentic, h.fwHmac, h.seckey]

theorem exists_completion_finish_iff (ota : OtaCtx) :
    (∃ call ∈ (fileDownloadEventCb H ota .finish).1, call.Completion) ↔
      Authentic H ota ota.sha256 := by
  rw [← hmacAgrees_iff, fileDownloadEventCb]
  by_cases h : ota.hmacAgrees H = true
  · rw [if_pos h]
    exact iff_of_true ⟨.statusReport tusUpgrdFini, by simp, rfl⟩ h
  · rw [if_neg h]
    exact iff_of_false (by simp) h

theorem not_exists_failure_finish (ota : OtaCtx) :
    ¬∃ call ∈ (fileDownloadEventCb H ota .finish).1, call.Failure := by
  rw [fileDownloadEventCb]
  split_ifs <;> simp [OtaCall.Failure, tusUpgrdFini, tusUpgrdExec]

theorem exists_call_append_iff {calls calls' : List OtaCall} {P : OtaCall → Prop}
    (h : ∀ call ∈ calls, ¬P call) :
    (∃ call ∈ calls ++ calls', P call) ↔ ∃ call ∈ calls', P call := by
  simp only [List.mem_append, or_and_right, exists_or]
  exact or_iff_right fun ⟨call, hmem, hcall⟩ => h call hmem hcall

theorem calls_otaRun_singleton (ota : OtaCtx) (ev : OtaEvent) :
    (otaRun H ota [ev]).1 = (fileDownloadEventCb H ota ev).1 :=
  List.append_nil _

theorem calls_otaRun (ev : OtaEvent) :
    (otaRun H ota (.start :: evs ++ [ev])).1 =
      (otaRun H ota (.start :: evs)).1 ++
        (fileDownloadEventCb H (otaRun H ota (.start :: evs)).2 ev).1 := by
  rw [otaRun_append]
  dsimp only
  rw [calls_otaRun_singleton]

/-- The digest of a whole download is that of the file when the download is for the flash and the
last data have been taken whole. -/
theorem sha256_otaRun_iff {pos : Nat} (hmids : ∀ ev ∈ evs, ev.Middle)
    (h : Delivers file 0 (dataOf evs) pos) :
    (otaRun H ota (.start :: evs)).2.sha256 = file ↔
      (ota.channel = 0 ∧ pos = file.length) ∨ file = [] := by
  have hrun : Continues { ota with sha256 := [] } (dataOf evs) (otaRun H ota (.start :: evs)) :=
    continues_otaRun_start ota hmids
  obtain ⟨-, hle, hhashed⟩ := hashed_of_delivers h (Nat.zero_le _)
  rw [Nat.sub_zero, slice_zero] at hhashed
  rw [hrun.sha256, List.nil_append, hashedOn]
  dsimp only
  split_ifs with hchannel
  · rw [hhashed]
    constructor
    · intro heq
      refine .inl ⟨hchannel, ?_⟩
      have hlength := congrArg List.length heq
      rw [List.length_take] at hlength
      omega
    · rintro (⟨-, rfl⟩ | rfl)
      · exact List.take_length
      · exact List.take_nil
  · rw [eq_comm]
    exact ⟨.inr, fun h => h.resolve_left fun h => hchannel h.1⟩

/-- **Firmware is accepted exactly if it authenticates** when it does, and the download is for the
flash and the last data have been taken whole. On other channels nothing is hashed, and an HMAC that
does not agree is not reported. -/
theorem accepts_iff {pos : Nat} (hmids : ∀ ev ∈ evs, ev.Middle)
    (h : Delivers file 0 (dataOf evs) pos) :
    Accepts H ota file evs ↔
      ((ota.channel = 0 ∧ pos = file.length) ∨ file = []) ∧ Authentic H ota file := by
  have hrun : Continues { ota with sha256 := [] } (dataOf evs) (otaRun H ota (.start :: evs)) :=
    continues_otaRun_start ota hmids
  have hlater : ota.Later (otaRun H ota (.start :: evs)).2 :=
    ⟨hrun.later.channel, hrun.later.eventCb, hrun.later.fwHmac, hrun.later.seckey⟩
  rw [Accepts, calls_otaRun, exists_call_append_iff fun call h => (hrun.neutral call h).1,
    exists_call_append_iff fun call h => (hrun.neutral call h).2, exists_completion_finish_iff,
    authentic_iff_of_later hlater, sha256_otaRun_iff hmids h]
  constructor
  · rintro ⟨hdigest, -, hfailure⟩
    refine ⟨hdigest, ?_⟩
    by_contra hauthentic
    exact not_exists_failure_finish _ (hfailure hauthentic)
  · rintro ⟨hdigest, hauthentic⟩
    rw [(sha256_otaRun_iff hmids h).2 hdigest]
    exact ⟨hdigest, Iff.rfl, absurd hauthentic⟩

end End

/-! ### A file of three bytes -/

/-- The bytes `abc`. -/
def abc : Bytes := [97, 98, 99]

/-- SHA-256 of `abc`. -/
def abcDigest : Bytes :=
  [186, 120, 22, 191, 143, 1, 207, 234, 65, 65, 64, 222, 93, 174, 34, 35, 176, 3, 97, 163, 150,
    23, 122, 156, 180, 16, 255, 97, 242, 0, 21, 173]

/-- The key `0123456789abcdef`. -/
def abcKey : Bytes := [48, 49, 50, 51, 52, 53, 54, 55, 56, 57, 97, 98, 99, 100, 101, 102]

/-- HMAC-SHA-256 of the digest of `abc`, in hexadecimal, under `abcKey`. -/
def abcMac : Bytes :=
  [79, 79, 117, 197, 98, 100, 6, 210, 38, 203, 137, 138, 190, 134, 98, 245, 114, 153, 170, 9, 243,
    160, 38, 23, 149, 190, 79, 15, 153, 155, 249, 121]

/-- The two functions at `abc`. -/
def abcHashes : Hashes where
  sha256 data := if data = abc then abcDigest else List.replicate 32 0
  mac key data := if key = abcKey ∧ data = hex2str abcDigest then abcMac else List.replicate 32 0
  length_mac key data := by split_ifs <;> rfl

/-- An upgrade to `abc`. -/
def abcUpgrade (channel : UInt8) : OtaCtx where
  channel := channel
  progressPercent := 0
  eventCb := true
  fwHmac := hex2str abcMac ++ [0]
  length_fwHmac := by decide +kernel
  seckey := abcKey ++ [0]
  sha256 := []

def abcForged : OtaCtx :=
  { abcUpgrade 0 with fwHmac := List.replicate 65 48, length_fwHmac := by decide +kernel }

/-- Two chunks, and a byte of the first one comes again with the second one. -/
def abcEvents : List OtaEvent :=
  [.onFilesize 3, .onData ⟨0, [97, 98], 1⟩ 3, .onData ⟨1, [98, 99], 0⟩ 3]

theorem middle_abcEvents : ∀ ev ∈ abcEvents, ev.Middle := by
  simp [abcEvents, OtaEvent.Middle]

theorem delivers_abcEvents : Delivers abc 0 (dataOf abcEvents) 3 := by
  have hsecond : Delivers abc 1 [⟨1, [98, 99], 0⟩] 3 :=
    @Delivers.cons abc ⟨1, [98, 99], 0⟩ [] 3 (by decide) (by decide) (by decide) (.nil 3)
  exact @Delivers.cons abc ⟨0, [97, 98], 1⟩ _ 3 (by decide) (by decide) (by decide) hsecond

theorem authentic_abc : Authentic abcHashes (abcUpgrade 0) abc := by
  rw [Authentic]
  decide +kernel

theorem accepts_iff_abc :
    (∀ ev ∈ abcEvents, ev.Middle) ∧ Delivers abc 0 (dataOf abcEvents) 3 ∧
      Accepts abcHashes (abcUpgrade 0) abc abcEvents :=
  ⟨middle_abcEvents, delivers_abcEvents,
    (accepts_iff middle_abcEvents delivers_abcEvents).2 ⟨.inl ⟨rfl, rfl⟩, authentic_abc⟩⟩

/-- On channel 1 the same file is not accepted, and on channel 0 it is refused without a report if
the HMAC of the message is another one. -/
theorem not_accepts_abc :
    (Delivers abc 0 (dataOf abcEvents) 3 ∧ Authentic abcHashes (abcUpgrade 1) abc ∧
        ¬Accepts abcHashes (abcUpgrade 1) abc abcEvents) ∧
      ¬Authentic abcHashes abcForged abc ∧ ¬Accepts abcHashes abcForged abc abcEvents := by
  have hforged : ¬Authentic abcHashes abcForged abc := by
    rw [Authentic]
    decide +kernel
  refine ⟨⟨delivers_abcEvents, authentic_abc, ?_⟩, hforged, ?_⟩
  · rintro ⟨hdigest, -⟩
    revert hdigest
    decide +kernel
  · rintro ⟨-, -, hfailure⟩
    have hcalls : (otaRun abcHashes abcForged (.start :: abcEvents ++ [.finish])).1 =
        [.statusReport tusUpgrding, .startNotify 3, .dataProcess 0 [97, 98],
          .dataProcess 1 [98, 99], .progressReport 33] := by
      decide +kernel
    have hnone : ¬∃ call ∈ (otaRun abcHashes abcForged (.start :: abcEvents ++ [.finish])).1,
        call.Failure := by
      rw [hcalls]
      simp [OtaCall.Failure, tusUpgrding, tusUpgrdExec]
    exact hnone (hfailure hforged)

end TuyaOpen.Ota
