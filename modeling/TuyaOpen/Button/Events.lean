import TuyaOpen.Basic.Transition
import TuyaOpen.Button.Handle

/-!
# The events of a button

The machine of `__tdl_button_state_handle` makes events of any sequence of statuses. Presses and
releases alternate. A press is long at most once, and only the first one of a series is. A click is
given while the button is released, once for a series, for the number of presses of the series, and
for no series with a long press. The number of presses is kept in eight bits: this holds of series
of fewer than `256` presses.

A series is what has happened since the machine was last in state `0`.
-/

namespace TuyaOpen.Button

open TouchEvent

/-- A button with the events so far and those of the current series, the latest first. -/
structure Heard where
  data : ButtonDriverData
  past : List TouchEvent
  series : List TouchEvent

def hearEvent (h : Heard) (r : Option ButtonEvent × ButtonDriverData) : Heard where
  data := r.2
  past := (r.1.map ButtonEvent.event).toList ++ h.past
  series := (r.1.map ButtonEvent.event).toList ++ if h.data.flag = 0 then [] else h.series

def hear (b : ButtonSetup) (h : Heard) (status : UInt8) : Heard :=
  hearEvent h (statusStep b h.data status)

/-! ### Well-formed events -/

section WellFormed

variable (b : ButtonSetup) (h : Heard) (status : UInt8)

def Released : Prop := h.past.count pressDown = h.past.count pressUp

def Pressed : Prop := h.past.count pressDown = h.past.count pressUp + 1

def Heard.press : List TouchEvent := h.past.takeWhile fun event => event ≠ pressDown

def Click (event : TouchEvent) : Prop :=
  event = pressSingleClick ∨ event = pressDoubleClick ∨ event = pressRepeat

/-- A click may be given for a series of `n` presses. -/
structure Clickable (n : Nat) : Prop where
  released : Released h
  status : status = 0
  once : ∀ event ∈ h.series, ¬Click event
  short : longPressStart ∉ h.series
  presses : h.series.count pressDown = n

def WellFormed : TouchEvent → Prop
  | pressDown => Released h
  | pressUp => Pressed h
  | longPressStart =>
    Pressed h ∧ longPressStart ∉ h.press ∧ h.series.count pressDown = 1
  | longPressHold => Pressed h ∧ longPressStart ∈ h.press
  | pressSingleClick => Clickable h status 1
  | pressDoubleClick => Clickable h status 2
  | pressRepeat =>
    Clickable h status b.cfg.buttonRepeatValidCount.toNat ∧ 2 < b.cfg.buttonRepeatValidCount
  | recoverPressUp => True
  | pressNone => False

def EventRight : Prop :=
  ∀ ev ∈ (statusStep b h.data status).1, WellFormed b h status ev.event

/-- The current series has fewer than `256` presses after a call. -/
def ShortSeries : Prop := (hear b h status).series.count pressDown < 256

instance : Decidable (ShortSeries b h status) :=
  inferInstanceAs (Decidable ((hear b h status).series.count pressDown < 256))

end WellFormed

/-! ### The states of the machine -/

section Stage

variable {b : ButtonSetup} {h : Heard} {status : UInt8}

/-- No press of the current series has been long, and no click has been given for it. -/
structure Plain (h : Heard) : Prop where
  once : ∀ event ∈ h.series, ¬Click event
  short : longPressStart ∉ h.series
  presses : h.data.repeatCount.toNat = h.series.count pressDown

/-- What each state of the machine knows of the events so far. -/
inductive Stage (h : Heard) : Prop
  | idle (flag : h.data.flag = 0) (released : Released h)
  | recover (flag : h.data.flag = 6) (released : Released h)
  | first (flag : h.data.flag = 1) (pressed : Pressed h) (plain : Plain h)
      (presses : h.series.count pressDown = 1) (press : longPressStart ∉ h.press)
  | between (flag : h.data.flag = 2) (released : Released h) (plain : Plain h)
  | later (flag : h.data.flag = 3) (pressed : Pressed h) (plain : Plain h)
  | long (flag : h.data.flag = 5) (pressed : Pressed h) (press : longPressStart ∈ h.press)

theorem exists_statusStep_eq (b : ButtonSetup) (d : ButtonDriverData) (status : UInt8) :
    ∃ d', statusStep b d status = tdlButtonStateHandle b d' ∧ d'.flag = d.flag ∧
      d'.status = status ∧ d'.repeatCount = d.repeatCount := by
  refine ⟨_, rfl, ?_, rfl, ?_⟩
  · rw [ButtonDriverData.tick]
    split_ifs <;> rfl
  · rw [ButtonDriverData.tick]
    split_ifs <;> rfl

@[simp] theorem note_flag (d : ButtonDriverData) (event : TouchEvent) :
    (d.note event).flag = d.flag := rfl

@[simp] theorem note_repeatCount (d : ButtonDriverData) (event : TouchEvent) :
    (d.note event).repeatCount = d.repeatCount := rfl

@[simp] theorem noteAgain_flag (d : ButtonDriverData) : d.noteAgain.flag = d.flag := rfl

@[simp] theorem noteAgain_repeatCount (d : ButtonDriverData) :
    d.noteAgain.repeatCount = d.repeatCount := rfl

@[simp] theorem awake_flag (b : ButtonSetup) (d : ButtonDriverData) :
    (b.awake d).flag = d.flag := by
  rw [ButtonSetup.awake]
  split_ifs <;> rfl

@[simp] theorem awake_repeatCount (b : ButtonSetup) (d : ButtonDriverData) :
    (b.awake d).repeatCount = d.repeatCount := by
  rw [ButtonSetup.awake]
  split_ifs <;> rfl

/-- An event is well formed, and the machine knows what it has to know after it. -/
structure StepRight (b : ButtonSetup) (h : Heard) (status : UInt8)
    (r : Option ButtonEvent × ButtonDriverData) : Prop where
  event : ∀ ev ∈ r.1, WellFormed b h status ev.event
  stage : (hearEvent h r).series.count pressDown < 256 → Stage (hearEvent h r)

theorem stepRight_none {d' : ButtonDriverData} (hstage : Stage h)
    (hflag : h.data.flag ≠ 0) (hflag' : d'.flag = h.data.flag)
    (hrepeat : d'.repeatCount = h.data.repeatCount) : StepRight b h status (none, d') := by
  have heq : hearEvent h (none, d') = ⟨d', h.past, h.series⟩ := by
    simp [hearEvent, hflag]
  refine ⟨fun ev hev => (by cases hev), fun _ => ?_⟩
  rw [heq]
  cases hstage with
  | idle flag released => exact absurd flag hflag
  | recover flag released => exact .recover (hflag'.trans flag) released
  | first flag pressed plain presses press =>
    exact .first (hflag'.trans flag) pressed
      ⟨plain.once, plain.short, by rw [hrepeat]; exact plain.presses⟩ presses press
  | between flag released plain =>
    exact .between (hflag'.trans flag) released
      ⟨plain.once, plain.short, by rw [hrepeat]; exact plain.presses⟩
  | later flag pressed plain =>
    exact .later (hflag'.trans flag) pressed
      ⟨plain.once, plain.short, by rw [hrepeat]; exact plain.presses⟩
  | long flag pressed press => exact .long (hflag'.trans flag) pressed press

variable {d : ButtonDriverData}

theorem stepRight_handleIdle (hflag : h.data.flag = 0) (released : Released h)
    (hflag' : d.flag = h.data.flag) : StepRight b h status (handleIdle b d) := by
  rw [handleIdle]
  split_ifs
  · refine ⟨fun ev hev => ?_, fun _ => ?_⟩
    · obtain rfl := Option.mem_some_iff.1 hev
      exact released
    · refine .first rfl ?_ ⟨?_, ?_, ?_⟩ ?_ ?_
      · simpa [Pressed, Released, hearEvent] using released
      · simp [hearEvent, hflag, Click]
      · simp [hearEvent, hflag]
      · simp [hearEvent, hflag]
      · simp [hearEvent, hflag]
      · simp [hearEvent, Heard.press]
  · refine ⟨fun ev hev => (by cases hev), fun _ => .idle (hflag'.trans hflag) ?_⟩
    simpa [Released, hearEvent] using released

theorem stepRight_handleFirstPress (hflag : h.data.flag = 1) (pressed : Pressed h)
    (plain : Plain h) (presses : h.series.count pressDown = 1) (press : longPressStart ∉ h.press)
    (hflag' : d.flag = h.data.flag) (hrepeat : d.repeatCount = h.data.repeatCount) :
    StepRight b h status (handleFirstPress b d) := by
  have hnonzero : h.data.flag ≠ 0 := by rw [hflag]; exact Nat.one_ne_zero
  have hstage : Stage h := .first hflag pressed plain presses press
  rw [handleFirstPress]
  split_ifs
  · exact stepRight_none hstage hnonzero (by simpa using hflag') (by simpa using hrepeat)
  · refine ⟨fun ev hev => ?_, fun _ => .long rfl ?_ ?_⟩
    · obtain rfl := Option.mem_some_iff.1 hev
      exact ⟨pressed, press, presses⟩
    · simpa [Pressed, hearEvent] using pressed
    · simp [Heard.press, hearEvent]
  · exact stepRight_none hstage hnonzero (by simpa using hflag') (by simpa using hrepeat)
  · refine ⟨fun ev hev => ?_, fun _ => .between rfl ?_ ⟨?_, ?_, ?_⟩⟩
    · obtain rfl := Option.mem_some_iff.1 hev
      exact pressed
    · simpa [Pressed, Released, hearEvent] using pressed
    · simpa [hearEvent, hnonzero, Click] using plain.once
    · simpa [hearEvent, hnonzero] using plain.short
    · simpa [hearEvent, hnonzero, ButtonDriverData.note, hrepeat] using plain.presses

theorem stepRight_handleReleased (hflag : h.data.flag = 2) (released : Released h)
    (plain : Plain h) (hflag' : d.flag = h.data.flag) (hstatus : d.status = status)
    (hrepeat : d.repeatCount = h.data.repeatCount) :
    StepRight b h status (handleReleased b d) := by
  have hnonzero : h.data.flag ≠ 0 := by rw [hflag]; exact Nat.succ_ne_zero 1
  have hstage : Stage h := .between hflag released plain
  have hpresses : d.repeatCount.toNat = h.series.count pressDown := by
    rw [hrepeat]
    exact plain.presses
  have hclick (hzero : ¬d.status ≠ 0) {n : Nat} (hn : d.repeatCount.toNat = n) :
      Clickable h status n :=
    ⟨released, hstatus.symm.trans (not_not.1 hzero), plain.once, plain.short,
      hpresses.symm.trans hn⟩
  rw [handleReleased]
  split_ifs with hpress htimeout hone htwo hmany
  · refine ⟨fun ev hev => ?_, fun hshort => .later rfl ?_ ⟨?_, ?_, ?_⟩⟩
    · obtain rfl := Option.mem_some_iff.1 hev
      exact released
    · simpa [Pressed, Released, hearEvent] using released
    · simpa [hearEvent, hnonzero, Click] using plain.once
    · simpa [hearEvent, hnonzero] using plain.short
    · simp only [hearEvent, hnonzero, Option.map_some, Option.toList_some, if_false,
        List.singleton_append, List.count_cons_self] at hshort ⊢
      rw [← hpresses] at hshort ⊢
      rw [UInt8.toNat_add]
      exact Nat.mod_eq_of_lt hshort
  · refine ⟨fun ev hev => ?_, fun _ => .idle rfl ?_⟩
    · obtain rfl := Option.mem_some_iff.1 hev
      exact hclick hpress (by rw [hone]; rfl)
    · simpa [Released, hearEvent] using released
  · refine ⟨fun ev hev => ?_, fun _ => .idle rfl ?_⟩
    · obtain rfl := Option.mem_some_iff.1 hev
      exact hclick hpress (by rw [htwo]; rfl)
    · simpa [Released, hearEvent] using released
  · refine ⟨fun ev hev => ?_, fun _ => .idle rfl ?_⟩
    · obtain rfl := Option.mem_some_iff.1 hev
      exact ⟨hclick hpress (by rw [hmany.1]), hmany.2⟩
    · simpa [Released, hearEvent] using released
  · refine ⟨fun ev hev => (by cases hev), fun _ => .idle rfl ?_⟩
    simpa [Released, hearEvent] using released
  · exact stepRight_none hstage hnonzero (by simpa using hflag') (by simpa using hrepeat)

theorem stepRight_handleLaterPress (hflag : h.data.flag = 3) (pressed : Pressed h)
    (plain : Plain h) (hflag' : d.flag = h.data.flag)
    (hrepeat : d.repeatCount = h.data.repeatCount) :
    StepRight b h status (handleLaterPress b d) := by
  have hnonzero : h.data.flag ≠ 0 := by rw [hflag]; exact Nat.succ_ne_zero 2
  have hstage : Stage h := .later hflag pressed plain
  rw [handleLaterPress]
  split_ifs
  · refine ⟨fun ev hev => ?_, fun _ => .idle rfl ?_⟩
    · obtain rfl := Option.mem_some_iff.1 hev
      exact pressed
    · simpa [Pressed, Released, hearEvent] using pressed
  · refine ⟨fun ev hev => ?_, fun _ => .between rfl ?_ ⟨?_, ?_, ?_⟩⟩
    · obtain rfl := Option.mem_some_iff.1 hev
      exact pressed
    · simpa [Pressed, Released, hearEvent] using pressed
    · simpa [hearEvent, hnonzero, Click] using plain.once
    · simpa [hearEvent, hnonzero] using plain.short
    · simpa [hearEvent, hnonzero, ButtonDriverData.note, hrepeat] using plain.presses
  · exact stepRight_none hstage hnonzero (by simpa using hflag') (by simpa using hrepeat)

theorem stepRight_handleLongPress (hflag : h.data.flag = 5) (pressed : Pressed h)
    (press : longPressStart ∈ h.press) (hflag' : d.flag = h.data.flag)
    (hrepeat : d.repeatCount = h.data.repeatCount) :
    StepRight b h status (handleLongPress b d) := by
  have hnonzero : h.data.flag ≠ 0 := by rw [hflag]; exact Nat.succ_ne_zero 4
  have hstage : Stage h := .long hflag pressed press
  rw [handleLongPress]
  split_ifs
  · refine ⟨fun ev hev => ?_, fun _ => .long ?_ ?_ ?_⟩
    · obtain rfl := Option.mem_some_iff.1 hev
      exact ⟨pressed, press⟩
    · simpa [hearEvent, hflag] using hflag'
    · simpa [Pressed, hearEvent] using pressed
    · simpa [Heard.press, hearEvent] using press
  · exact stepRight_none hstage hnonzero (by simpa using hflag') (by simpa using hrepeat)
  · exact stepRight_none hstage hnonzero (by simpa using hflag') (by simpa using hrepeat)
  · refine ⟨fun ev hev => ?_, fun _ => .idle rfl ?_⟩
    · obtain rfl := Option.mem_some_iff.1 hev
      exact pressed
    · simpa [Pressed, Released, hearEvent] using pressed

theorem stepRight_handleRecover (released : Released h) :
    StepRight b h status (handleRecover d) := by
  refine ⟨fun ev hev => ?_, fun _ => .idle rfl ?_⟩
  · obtain rfl := Option.mem_some_iff.1 hev
    trivial
  · simpa [Released, hearEvent, handleRecover] using released

/-- **A step.** What each state knows makes the event of a call well formed, and the next state
knows what it has to know. -/
theorem stepRight_statusStep (hstage : Stage h) :
    StepRight b h status (statusStep b h.data status) := by
  obtain ⟨d, hstep, hflag, hstatus, hrepeat⟩ := exists_statusStep_eq b h.data status
  rw [hstep, tdlButtonStateHandle]
  cases hstage with
  | idle flag released =>
    rw [hflag, flag]
    exact stepRight_handleIdle flag released hflag
  | recover flag released =>
    rw [hflag, flag]
    exact stepRight_handleRecover released
  | first flag pressed plain presses press =>
    rw [hflag, flag]
    exact stepRight_handleFirstPress flag pressed plain presses press hflag hrepeat
  | between flag released plain =>
    rw [hflag, flag]
    exact stepRight_handleReleased flag released plain hflag hstatus hrepeat
  | later flag pressed plain =>
    rw [hflag, flag]
    exact stepRight_handleLaterPress flag pressed plain hflag hrepeat
  | long flag pressed press =>
    rw [hflag, flag]
    exact stepRight_handleLongPress flag pressed press hflag hrepeat

/-- **The events of a button.** For every sequence of debounced statuses without a series of `256`
presses, every event is well formed, from the creation of a button on and from the moment on at
which it becomes ready. -/
theorem eventsWellFormed (b : ButtonSetup) (d : ButtonDriverData)
    (hstart : d.flag = 0 ∨ d.flag = 6) (statuses : List UInt8)
    (hshort : Guarded (hear b) (ShortSeries b) ⟨d, [], []⟩ statuses) :
    Guarded (hear b) (EventRight b) ⟨d, [], []⟩ statuses := by
  have hstage : Stage ⟨d, [], []⟩ := hstart.elim (fun h => .idle h rfl) fun h => .recover h rfl
  have hright (h : Heard) (status : UInt8) (hinv : Stage h) (_ : ShortSeries b h status) :
      EventRight b h status := (stepRight_statusStep hinv).event
  exact Guarded.of_invariant hright
    (fun h status hinv hcond => (stepRight_statusStep hinv).stage hcond) hstage hshort

/-- A single click: a press and its release, and then the time for another press. -/
def clickStatuses : List UInt8 := [1, 0, 0, 0]

def quickButton : ButtonSetup := minScanSetup ⟨1500, 100, 60, 3, 10⟩ .irq

theorem eventsWellFormed_clickStatuses :
    Guarded (hear quickButton) (EventRight quickButton) ⟨buttonCreated false 0, [], []⟩
      clickStatuses := by
  refine eventsWellFormed quickButton (buttonCreated false 0) (Or.inl rfl) clickStatuses ?_
  decide +kernel

end Stage

end TuyaOpen.Button
