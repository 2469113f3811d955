import TuyaOpen.Basic.Bytes

/-!
# The handler of a button

`tdl_button_manage.c` reads every button once in a scan time. `__tdl_button_handle` debounces what
is read, and `__tdl_button_state_handle` makes events of the debounced status: it is a machine with
six numbered states, which share the counter `ticks`.

A button that is scanned is not ready until it has been read as released once; until then what is
read is dropped.
-/

namespace TuyaOpen.Button

/-- `TDL_BUTTON_TOUCH_EVENT_E`. -/
inductive TouchEvent
  | pressDown
  | pressUp
  | pressSingleClick
  | pressDoubleClick
  | pressRepeat
  | longPressStart
  | longPressHold
  | recoverPressUp
  | pressNone
  deriving DecidableEq

/-- `TDL_BUTTON_MODE_E`. -/
inductive ButtonMode
  | timerScan
  | irq
  deriving DecidableEq

/-- `TDL_BUTTON_CFG_T`. -/
structure ButtonCfg where
  longStartValidTime : UInt16
  longKeepTimer : UInt16
  buttonDebounceTime : UInt16
  buttonRepeatValidCount : UInt8
  buttonRepeatValidTime : UInt16

/-- `TDL_BUTTON_SCAN_TIME`, in milliseconds. -/
def minScanTime : UInt8 := 10

/-- The configuration of a button, its mode and `tdl_button_scan_time`, for which
`tdl_button_set_scan_time` takes no shorter time than the first one. -/
structure ButtonSetup where
  cfg : ButtonCfg
  buttonMode : ButtonMode
  scanTime : UInt8
  minScanTime_le : minScanTime ≤ scanTime

def minScanSetup (cfg : ButtonCfg) (buttonMode : ButtonMode) : ButtonSetup :=
  ⟨cfg, buttonMode, minScanTime, UInt8.le_refl _⟩

/-- `BUTTON_DRIVER_DATA_T` without the handles of the driver, and `irq_scan_cnt`. -/
structure ButtonDriverData where
  preEvent : TouchEvent
  nowEvent : TouchEvent
  flag : Nat
  debounceCnt : UInt8
  ticks : UInt16
  status : UInt8
  repeatCount : UInt8
  ready : Bool
  initFlag : Bool
  irqScanCnt : UInt32

/-- A call of the callback of an event, with its argument. -/
structure ButtonEvent where
  event : TouchEvent
  argc : Nat
  deriving DecidableEq

variable (b : ButtonSetup) (d : ButtonDriverData)

def ButtonSetup.scans (time : UInt16) : Nat := time.toNat / b.scanTime.toNat

def ButtonSetup.elapsed : Nat := d.ticks.toNat * b.scanTime.toNat

def ButtonSetup.awake : ButtonDriverData :=
  if b.buttonMode = .irq then { d with irqScanCnt := 0 } else d

def ButtonDriverData.note (event : TouchEvent) : ButtonDriverData :=
  { d with preEvent := d.nowEvent, nowEvent := event }

def ButtonDriverData.noteAgain : ButtonDriverData := { d with preEvent := d.nowEvent }

/-! ### The machine -/

/-- Case `0`: no series of presses. -/
def handleIdle : Option ButtonEvent × ButtonDriverData :=
  if d.status ≠ 0 then
    (some ⟨.pressDown, 1⟩,
      { (b.awake d).note .pressDown with ticks := 0, repeatCount := 1, flag := 1 })
  else (none, d.note .pressNone)

/-- Case `1`: the first press. -/
def handleFirstPress : Option ButtonEvent × ButtonDriverData :=
  if d.status ≠ 0 then
    if b.cfg.longStartValidTime = 0 then (none, (b.awake d).noteAgain)
    else if b.scans b.cfg.longStartValidTime < d.ticks.toNat then
      (some ⟨.longPressStart, b.elapsed d⟩,
        { (b.awake d).note .longPressStart with flag := 5 })
    else (none, (b.awake d).noteAgain)
  else
    (some ⟨.pressUp, d.repeatCount.toNat⟩, { d.note .pressUp with flag := 2, ticks := 0 })

/-- Case `2`: released, and the next press may still belong to the series. -/
def handleReleased : Option ButtonEvent × ButtonDriverData :=
  if d.status ≠ 0 then
    (some ⟨.pressDown, (d.repeatCount + 1).toNat⟩,
      { (b.awake d).note .pressDown with repeatCount := d.repeatCount + 1, flag := 3 })
  else if b.scans b.cfg.buttonRepeatValidTime ≤ d.ticks.toNat then
    if d.repeatCount = 1 then
      (some ⟨.pressSingleClick, d.repeatCount.toNat⟩,
        { d.note .pressSingleClick with flag := 0 })
    else if d.repeatCount = 2 then
      (some ⟨.pressDoubleClick, d.repeatCount.toNat⟩,
        { d.note .pressDoubleClick with flag := 0 })
    else if d.repeatCount = b.cfg.buttonRepeatValidCount ∧ 2 < b.cfg.buttonRepeatValidCount then
      (some ⟨.pressRepeat, d.repeatCount.toNat⟩, { d.note .pressRepeat with flag := 0 })
    else (none, { d with flag := 0 })
  else (none, d.noteAgain)

/-- Case `3`: a later press of a series. -/
def handleLaterPress : Option ButtonEvent × ButtonDriverData :=
  if d.status = 0 then
    if b.scans b.cfg.buttonRepeatValidTime ≤ d.ticks.toNat then
      (some ⟨.pressUp, d.repeatCount.toNat⟩, { d.note .pressUp with flag := 0 })
    else
      (some ⟨.pressUp, d.repeatCount.toNat⟩, { d.note .pressUp with flag := 2, ticks := 0 })
  else (none, d.noteAgain)

/-- The variable `hold_tick` of case `5`. -/
def ButtonSetup.holdTick : Nat :=
  if b.scans b.cfg.longKeepTimer = 0 then 1 else b.scans b.cfg.longKeepTimer

/-- Case `5`: a long press. -/
def handleLongPress : Option ButtonEvent × ButtonDriverData :=
  if d.status ≠ 0 then
    if b.holdTick ≤ d.ticks.toNat then
      if d.ticks.toNat % b.holdTick = 0 then
        (some ⟨.longPressHold, b.elapsed d⟩, (b.awake d).note .longPressHold)
      else (none, (b.awake d).note .longPressHold)
    else (none, b.awake d)
  else
    (some ⟨.pressUp, b.elapsed d⟩, { d.note .pressUp with ticks := 0, flag := 0 })

/-- Case `6`: the button has become ready. -/
def handleRecover : Option ButtonEvent × ButtonDriverData :=
  (some ⟨.recoverPressUp, 0⟩, { d with ticks := 0, flag := 0 })

/-- `__tdl_button_state_handle`. -/
def tdlButtonStateHandle : Option ButtonEvent × ButtonDriverData :=
  match d.flag with
  | 0 => handleIdle b d
  | 1 => handleFirstPress b d
  | 2 => handleReleased b d
  | 3 => handleLaterPress b d
  | 5 => handleLongPress b d
  | 6 => handleRecover d
  | _ => (none, d)

/-! ### The handler -/

/-- The ticks are counted unless the machine is in state `0`. -/
def ButtonDriverData.tick : ButtonDriverData :=
  if 0 < d.flag then { d with ticks := d.ticks + 1 } else d

/-- The part of `__tdl_button_handle` behind the debounce, with the debounced status: the ticks are
counted before it, and the debounce does not use them. -/
def statusStep (status : UInt8) : Option ButtonEvent × ButtonDriverData :=
  tdlButtonStateHandle b { d.tick with status := status }

/-- The debounce of `__tdl_button_handle`: what it leaves in `debounce_cnt` and in `status`. -/
def debounce (sample : UInt8) : UInt8 × UInt8 :=
  if sample ≠ d.status then
    if b.scans b.cfg.buttonDebounceTime ≤ (d.debounceCnt + 1).toNat then
      (d.debounceCnt + 1, sample)
    else (d.debounceCnt + 1, d.status)
  else (0, d.status)

def Unready : Prop := b.buttonMode = .timerScan ∧ d.ready = false

instance : Decidable (Unready b d) := inferInstanceAs (Decidable (_ ∧ _))

def becomeReady : ButtonDriverData :=
  if Unready b d then { d with flag := 6, ready := true } else d

/-- `__tdl_button_handle`, with what `read_value` gives. -/
def tdlButtonHandle (sample : UInt8) : Option ButtonEvent × ButtonDriverData :=
  if d.initFlag = false then (none, d)
  else if Unready b d ∧ sample ≠ 0 then (none, d)
  else
    let d := becomeReady b d
    let r := debounce b d sample
    statusStep b { d with debounceCnt := r.1 } r.2

/-- The data after `tdl_button_register` and `tdl_button_create`, with the flag of
`tdl_button_set_ready_flag` and the count of the interrupt task. -/
def buttonCreated (ready : Bool) (irqScanCnt : UInt32) : ButtonDriverData where
  preEvent := .pressNone
  nowEvent := .pressNone
  flag := 0
  debounceCnt := 0
  ticks := 0
  status := 0
  repeatCount := 0
  ready := ready
  initFlag := true
  irqScanCnt := irqScanCnt

/-! ### What the machine keeps -/

section Frame

variable {b d}

/-- The data that the machine does not write. -/
structure SameInput (d d' : ButtonDriverData) : Prop where
  status : d'.status = d.status
  debounceCnt : d'.debounceCnt = d.debounceCnt
  ready : d'.ready = d.ready
  initFlag : d'.initFlag = d.initFlag

theorem sameInput_awake : SameInput d (b.awake d) := by
  rw [ButtonSetup.awake]
  split_ifs <;> exact ⟨rfl, rfl, rfl, rfl⟩

theorem sameInput_tick : SameInput d d.tick := by
  rw [ButtonDriverData.tick]
  split_ifs <;> exact ⟨rfl, rfl, rfl, rfl⟩

theorem sameInput_stateHandle : SameInput d (tdlButtonStateHandle b d).2 := by
  have hself : SameInput d d := ⟨rfl, rfl, rfl, rfl⟩
  have hawake := @sameInput_awake b d
  have hnote (d' : ButtonDriverData) (h : SameInput d d') (event : TouchEvent) :
      SameInput d (d'.note event) ∧ SameInput d d'.noteAgain :=
    ⟨⟨h.1, h.2, h.3, h.4⟩, ⟨h.1, h.2, h.3, h.4⟩⟩
  have hset (d' : ButtonDriverData) (h : SameInput d d') (flag : Nat) (ticks : UInt16)
      (repeatCount : UInt8) :
      SameInput d { d' with flag := flag, ticks := ticks, repeatCount := repeatCount } :=
    ⟨h.1, h.2, h.3, h.4⟩
  rw [tdlButtonStateHandle]
  split
  · rw [handleIdle]
    split_ifs
    · exact hset _ (hnote _ hawake _).1 _ _ _
    · exact (hnote _ hself _).1
  · rw [handleFirstPress]
    split_ifs
    · exact (hnote _ hawake .pressNone).2
    · exact hset _ (hnote _ hawake _).1 _ _ _
    · exact (hnote _ hawake .pressNone).2
    · exact hset _ (hnote _ hself _).1 _ _ _
  · rw [handleReleased]
    split_ifs
    · exact hset _ (hnote _ hawake _).1 _ _ _
    · exact hset _ (hnote _ hself _).1 _ _ _
    · exact hset _ (hnote _ hself _).1 _ _ _
    · exact hset _ (hnote _ hself _).1 _ _ _
    · exact hset _ hself _ _ _
    · exact (hnote _ hself .pressNone).2
  · rw [handleLaterPress]
    split_ifs
    · exact hset _ (hnote _ hself _).1 _ _ _
    · exact hset _ (hnote _ hself _).1 _ _ _
    · exact (hnote _ hself .pressNone).2
  · rw [handleLongPress]
    split_ifs
    · exact (hnote _ hawake _).1
    · exact (hnote _ hawake _).1
    · exact hawake
    · exact hset _ (hnote _ hself _).1 _ _ _
  · exact hset _ hself _ _ _
  · exact hself

theorem statusStep_snd_status (status : UInt8) : (statusStep b d status).2.status = status := by
  rw [statusStep, sameInput_stateHandle.status]

theorem statusStep_snd_debounceCnt (status : UInt8) :
    (statusStep b d status).2.debounceCnt = d.debounceCnt := by
  rw [statusStep, sameInput_stateHandle.debounceCnt]
  exact sameInput_tick.debounceCnt

theorem tdlButtonHandle_of_unready {sample : UInt8} (hunready : Unready b d)
    (hsample : sample ≠ 0) : tdlButtonHandle b d sample = (none, d) := by
  rw [tdlButtonHandle]
  split_ifs with hinit hdrop
  · rfl
  · rfl
  · exact absurd ⟨hunready, hsample⟩ hdrop

theorem tdlButtonHandle_snd_initFlag (sample : UInt8) :
    (tdlButtonHandle b d sample).2.initFlag = d.initFlag := by
  have hready : (becomeReady b d).initFlag = d.initFlag := by
    rw [becomeReady]
    split_ifs <;> rfl
  rw [tdlButtonHandle]
  split_ifs
  · rfl
  · rfl
  · dsimp only
    rw [statusStep, sameInput_stateHandle.initFlag]
    exact sameInput_tick.initFlag.trans hready

theorem tdlButtonHandle_of_not_unready {sample : UInt8} (hinit : d.initFlag = true)
    (h : ¬(Unready b d ∧ sample ≠ 0)) :
    ((tdlButtonHandle b d sample).2.debounceCnt, (tdlButtonHandle b d sample).2.status) =
      debounce b d sample := by
  have hready : debounce b (becomeReady b d) sample = debounce b d sample := by
    rw [becomeReady]
    split_ifs <;> rfl
  rw [tdlButtonHandle, if_neg (by rw [hinit]; exact Bool.noConfusion), if_neg h]
  dsimp only
  rw [statusStep_snd_status, statusStep_snd_debounceCnt, hready]

end Frame

end TuyaOpen.Button
