import TuyaOpen.Basic.Bytes
import TuyaOpen.Basic.Transition
import TuyaOpen.Common.OperateRet
import Mathlib.Data.List.Sort
import Mathlib.Data.Set.Card

/-!
# Software timers

`tal_sw_timer.c`: the running timers are in a list that is sorted by the time at which they expire,
and the others are in a second list. The timer thread takes the first timer of the list while it is
due. The calls of other threads, and those of the callbacks, come between the passes of its loop.

`unsigned long`, and with it `TIME_S` and `TIME_MS`, has 32 bits, and `SYS_TIME_T` has 64 bits. The
address of a timer is its identifier.

A timer also has a history: the time at which it was started, whether it has been triggered since it
was started or last selected, and how often it has been selected since it was started.
-/

namespace TuyaOpen.System

variable {κ δ : Type}

/-! ### The state -/

/-- `TIMER_TYPE`. -/
inductive TimerType
  | once
  | cycle
  deriving DecidableEq

/-- `TIMER_T`, with its history. -/
structure SwTimer (κ δ : Type) where
  cb : κ
  data : Option δ
  expireTime : Nat
  interval : UInt32
  isRunning : Bool
  type : TimerType
  startedAt : Nat
  triggered : Bool
  fired : Nat

/-- `s_timer_mgr`, and the variables of `__timer_dispatch`. -/
structure TimerMgr (κ δ : Type) where
  listActive : List Nat
  listStandby : List Nat
  totalCnt : UInt16
  runningCnt : UInt16
  /-- The record at an address. -/
  timer : Nat → Option (SwTimer κ δ)
  /-- Whether the timer thread is in `__timer_dispatch`. -/
  dispatching : Bool
  nextExpired : Nat

/-- `s_timer_mgr` after `tal_sw_timer_init`. -/
def talSwTimerInit : TimerMgr κ δ :=
  ⟨[], [], 0, 0, fun _ => none, false, 0xFFFFFFFF⟩

/-- What `tal_time_get_system_time` gives. -/
structure SystemTime where
  secTime : UInt32
  msTime : UInt32

/-- The milliseconds of a time, in a `uint64_t`. -/
def SystemTime.nowMs (now : SystemTime) : Nat :=
  (now.secTime.toNat * 1000 + now.msTime.toNat) % 0x10000000000000000

/-! ### The functions -/

namespace TimerMgr

/-- `expire_time` of the timer at an address. -/
def expireTime (m : TimerMgr κ δ) (id : Nat) : Nat :=
  match m.timer id with
  | some t => t.expireTime
  | none => 0

def setTimer (m : TimerMgr κ δ) (id : Nat) (t : Option (SwTimer κ δ)) : TimerMgr κ δ :=
  { m with timer := Function.update m.timer id t }

/-- `tuya_list_del`: the node is taken out of the list that it is in. -/
def listDel (m : TimerMgr κ δ) (id : Nat) : TimerMgr κ δ :=
  { m with listActive := m.listActive.erase id, listStandby := m.listStandby.erase id }

/-- `__timer_attach`: the timer is put before the first one that does not expire before it. -/
def timerAttach (m : TimerMgr κ δ) (id : Nat) : TimerMgr κ δ :=
  let m := m.listDel id
  { m with
    listActive :=
      m.listActive.orderedInsert (fun a b => m.expireTime a ≤ m.expireTime b) id }

/-- A timer is moved to `list_standby`. -/
def standBy (m : TimerMgr κ δ) (id : Nat) : TimerMgr κ δ :=
  let m := m.listDel id
  { m with runningCnt := m.runningCnt - 1, listStandby := m.listStandby ++ [id] }

end TimerMgr

/-- `tal_sw_timer_create`: `calloc` is the address that has been allocated. An address that is in
use is never allocated. -/
def talSwTimerCreate (m : TimerMgr κ δ) (func : Option κ) (arg : Option δ) (calloc : Option Nat) :
    OperateRet × TimerMgr κ δ :=
  match func with
  | none => (oprtInvalidParm, m)
  | some func =>
    match calloc with
    | none => (oprtMallocFailed, m)
    | some id =>
      match m.timer id with
      | some _ => (oprtMallocFailed, m)
      | none =>
        let m := m.setTimer id (some ⟨func, arg, 0, 0, false, .once, 0, false, 0⟩)
        (oprtOk, { m with totalCnt := m.totalCnt + 1, listStandby := m.listStandby ++ [id] })

/-- `tal_sw_timer_delete`. -/
def talSwTimerDelete (m : TimerMgr κ δ) (id : Nat) : TimerMgr κ δ :=
  match m.timer id with
  | none => m
  | some t =>
    let m := m.listDel id
    let m := { m with totalCnt := m.totalCnt - 1 }
    let m := if t.isRunning then { m with runningCnt := m.runningCnt - 1 } else m
    m.setTimer id none

/-- `tal_sw_timer_stop`. -/
def talSwTimerStop (m : TimerMgr κ δ) (id : Nat) : TimerMgr κ δ :=
  match m.timer id with
  | none => m
  | some t =>
    if t.isRunning then (m.setTimer id (some { t with isRunning := false })).standBy id else m

/-- `tal_sw_timer_start`. -/
def talSwTimerStart (m : TimerMgr κ δ) (id : Nat) (now : SystemTime) (timeMs : UInt32)
    (timerType : TimerType) : TimerMgr κ δ :=
  match m.timer id with
  | none => m
  | some t =>
    let m := if t.isRunning then m else { m with runningCnt := m.runningCnt + 1 }
    let interval := if timeMs = 0 then t.interval else timeMs
    let m := m.setTimer id (some { t with
      isRunning := true
      interval := interval
      type := timerType
      expireTime := (now.nowMs + interval.toNat) % 0x10000000000000000
      startedAt := now.nowMs
      triggered := false
      fired := 0 })
    m.timerAttach id

/-- `tal_sw_timer_trigger`. -/
def talSwTimerTrigger (m : TimerMgr κ δ) (id : Nat) : TimerMgr κ δ :=
  match m.timer id with
  | none => m
  | some t =>
    let m := m.setTimer id (some { t with expireTime := 0, triggered := true })
    if t.isRunning then
      let m := m.listDel id
      { m with listActive := id :: m.listActive }
    else m

/-- What a pass of the loop of `__timer_dispatch` finds. -/
inductive Pass
  /-- No timer is running. -/
  | empty
  /-- The first timer is not due. -/
  | later (nextExpired : Nat)
  /-- A timer is due. -/
  | selected (id : Nat)
  deriving DecidableEq

/-- A pass of the loop of `__timer_dispatch` until it releases the mutex. -/
def timerPass (m : TimerMgr κ δ) (nowMs : Nat) : Pass × TimerMgr κ δ :=
  match m.listActive with
  | [] => (.empty, m)
  | id :: _ =>
    match m.timer id with
    | none => (.empty, m)
    | some t =>
      if nowMs < t.expireTime then (.later (t.expireTime - nowMs), m)
      else
        let t := { t with triggered := false, fired := t.fired + 1 }
        match t.type with
        | .once => (.selected id, (m.setTimer id (some { t with isRunning := false })).standBy id)
        | .cycle =>
          let expireTime := (nowMs + t.interval.toNat) % 0x10000000000000000
          (.selected id,
            (m.setTimer id (some { t with expireTime := expireTime })).timerAttach id)

/-! ### The steps -/

/-- The calls, and the passes of the timer thread. -/
inductive TimerEvent (κ δ : Type)
  | create (func : Option κ) (arg : Option δ) (calloc : Option Nat)
  | start (id : Nat) (now : SystemTime) (timeMs : UInt32) (timerType : TimerType)
  | stop (id : Nat)
  | trigger (id : Nat)
  | delete (id : Nat)
  /-- `__timer_dispatch` is called. -/
  | dispatch
  /-- A pass of its loop. -/
  | pass (now : SystemTime)

/-- One step. A step for an address that is not in use, and a pass outside `__timer_dispatch`, leave
the state as it is. -/
def timerStep (m : TimerMgr κ δ) : TimerEvent κ δ → TimerMgr κ δ
  | .create func arg calloc => (talSwTimerCreate m func arg calloc).2
  | .start id now timeMs timerType => talSwTimerStart m id now timeMs timerType
  | .stop id => talSwTimerStop m id
  | .trigger id => talSwTimerTrigger m id
  | .delete id => talSwTimerDelete m id
  | .dispatch =>
    if m.dispatching then m else { m with dispatching := true, nextExpired := 0xFFFFFFFF }
  | .pass now =>
    if m.dispatching then
      let r := timerPass m now.nowMs
      match r.1 with
      | .empty => { r.2 with dispatching := false }
      | .later nextExpired => { r.2 with dispatching := false, nextExpired := nextExpired }
      | .selected _ => r.2
    else m

def TimerEvent.now? : TimerEvent κ δ → Option Nat
  | .start _ now _ _ => some now.nowMs
  | .pass now => some now.nowMs
  | _ => none

/-! ### The lists -/

namespace TimerMgr

def Running (m : TimerMgr κ δ) (id : Nat) : Prop :=
  ∃ t, m.timer id = some t ∧ t.isRunning = true

def Resting (m : TimerMgr κ δ) (id : Nat) : Prop :=
  ∃ t, m.timer id = some t ∧ t.isRunning = false

structure Linked (m : TimerMgr κ δ) : Prop where
  active : ∀ id, id ∈ m.listActive ↔ m.Running id
  standby : ∀ id, id ∈ m.listStandby ↔ m.Resting id
  nodup_active : m.listActive.Nodup
  nodup_standby : m.listStandby.Nodup
  sorted : m.listActive.Pairwise fun a b => m.expireTime a ≤ m.expireTime b

section Records

variable {m : TimerMgr κ δ} {id : Nat} {t t' : SwTimer κ δ}

theorem running_iff_of_eq (h : m.timer id = some t) : m.Running id ↔ t.isRunning = true := by
  rw [Running, h]
  exact ⟨fun ⟨_, he, hr⟩ => by cases he; exact hr, fun hr => ⟨t, rfl, hr⟩⟩

theorem resting_iff_of_eq (h : m.timer id = some t) : m.Resting id ↔ t.isRunning = false := by
  rw [Resting, h]
  exact ⟨fun ⟨_, he, hr⟩ => by cases he; exact hr, fun hr => ⟨t, rfl, hr⟩⟩

theorem isSome_timer_iff : (m.timer id).isSome ↔ m.Running id ∨ m.Resting id := by
  cases ht : m.timer id with
  | none =>
    refine iff_of_false Bool.false_ne_true ?_
    rintro (⟨t, hsome, -⟩ | ⟨t, hsome, -⟩)
    · rw [ht] at hsome
      cases hsome
    · rw [ht] at hsome
      cases hsome
  | some t =>
    rw [running_iff_of_eq ht, resting_iff_of_eq ht]
    exact iff_of_true rfl (Bool.eq_false_or_eq_true _)

theorem expireTime_of_eq (h : m.timer id = some t) : m.expireTime id = t.expireTime := by
  rw [expireTime, h]

@[simp]
theorem timer_setTimer_self (m : TimerMgr κ δ) (id : Nat) (t : Option (SwTimer κ δ)) :
    (m.setTimer id t).timer id = t := by
  simp only [setTimer, Function.update_self]

theorem timer_setTimer_of_ne (m : TimerMgr κ δ) (t : Option (SwTimer κ δ)) {id x : Nat}
    (h : x ≠ id) : (m.setTimer id t).timer x = m.timer x := by
  simp only [setTimer, Function.update_of_ne h]

theorem expireTime_setTimer_of_ne (m : TimerMgr κ δ) (t : Option (SwTimer κ δ)) {id x : Nat}
    (h : x ≠ id) : (m.setTimer id t).expireTime x = m.expireTime x := by
  rw [expireTime, timer_setTimer_of_ne m t h]
  rfl

theorem running_setTimer_of_ne (m : TimerMgr κ δ) (t : Option (SwTimer κ δ)) {id x : Nat}
    (h : x ≠ id) : (m.setTimer id t).Running x ↔ m.Running x := by
  rw [Running, timer_setTimer_of_ne m t h]
  rfl

theorem resting_setTimer_of_ne (m : TimerMgr κ δ) (t : Option (SwTimer κ δ)) {id x : Nat}
    (h : x ≠ id) : (m.setTimer id t).Resting x ↔ m.Resting x := by
  rw [Resting, timer_setTimer_of_ne m t h]
  rfl

end Records

theorem Linked.congr {m m' : TimerMgr κ δ} (h : m.Linked) (hactive : m'.listActive = m.listActive)
    (hstandby : m'.listStandby = m.listStandby) (htimer : m'.timer = m.timer) : m'.Linked := by
  obtain ⟨active, standby, total, running, timer, dispatching, next⟩ := m'
  obtain rfl : active = m.listActive := hactive
  obtain rfl : standby = m.listStandby := hstandby
  obtain rfl : timer = m.timer := htimer
  exact ⟨h.active, h.standby, h.nodup_active, h.nodup_standby, h.sorted⟩

section Lists

variable {m : TimerMgr κ δ} {id : Nat} {t t' : SwTimer κ δ}

theorem Linked.sorted_erase (h : m.Linked) (id : Nat) (t : Option (SwTimer κ δ)) :
    (m.listActive.erase id).Pairwise fun a b =>
      (m.setTimer id t).expireTime a ≤ (m.setTimer id t).expireTime b := by
  have hsub : (m.listActive.erase id).Pairwise fun a b => m.expireTime a ≤ m.expireTime b :=
    h.sorted.sublist List.erase_sublist
  refine hsub.imp_of_mem fun {a b} ha hb hle => ?_
  rw [h.nodup_active.mem_erase_iff] at ha hb
  rw [expireTime_setTimer_of_ne m t ha.1, expireTime_setTimer_of_ne m t hb.1]
  exact hle

theorem Linked.mem_erase_active (h : m.Linked) (t : Option (SwTimer κ δ)) {x : Nat} :
    x ∈ m.listActive.erase id ↔ x ≠ id ∧ (m.setTimer id t).Running x := by
  rw [h.nodup_active.mem_erase_iff, h.active]
  exact and_congr_right fun hne => (running_setTimer_of_ne m t hne).symm

theorem Linked.mem_erase_standby (h : m.Linked) (t : Option (SwTimer κ δ)) {x : Nat} :
    x ∈ m.listStandby.erase id ↔ x ≠ id ∧ (m.setTimer id t).Resting x := by
  rw [h.nodup_standby.mem_erase_iff, h.standby]
  exact and_congr_right fun hne => (resting_setTimer_of_ne m t hne).symm

theorem Linked.activate (h : m.Linked) (hrun : t'.isRunning = true) {l : List Nat}
    (hperm : l.Perm (id :: m.listActive.erase id))
    (hsorted : l.Pairwise fun a b =>
      (m.setTimer id (some t')).expireTime a ≤ (m.setTimer id (some t')).expireTime b) :
    Linked { m.setTimer id (some t') with
      listActive := l, listStandby := m.listStandby.erase id } where
  active x := by
    have hrunning : ∀ y, Running { m.setTimer id (some t') with
        listActive := l, listStandby := m.listStandby.erase id } y ↔
          (m.setTimer id (some t')).Running y := fun _ => Iff.rfl
    rw [hperm.mem_iff, List.mem_cons, h.mem_erase_active (some t'), hrunning]
    by_cases hx : x = id
    · rw [hx, running_iff_of_eq (timer_setTimer_self m id _)]
      exact iff_of_true (Or.inl rfl) hrun
    · exact ⟨fun hor => hor.elim (absurd · hx) And.right, fun hr => Or.inr ⟨hx, hr⟩⟩
  standby x := by
    have hresting : ∀ y, Resting { m.setTimer id (some t') with
        listActive := l, listStandby := m.listStandby.erase id } y ↔
          (m.setTimer id (some t')).Resting y := fun _ => Iff.rfl
    rw [h.mem_erase_standby (some t'), hresting]
    refine ⟨And.right, fun hr => ⟨?_, hr⟩⟩
    rintro rfl
    rw [resting_iff_of_eq (timer_setTimer_self m x _), hrun] at hr
    cases hr
  nodup_active := by
    refine hperm.nodup_iff.2 (List.nodup_cons.2 ⟨?_, h.nodup_active.erase id⟩)
    exact h.nodup_active.not_mem_erase
  nodup_standby := h.nodup_standby.erase id
  sorted := hsorted

theorem pairwise_orderedInsert (f : Nat → Nat) (id : Nat) {l : List Nat}
    (h : l.Pairwise fun a b => f a ≤ f b) :
    (l.orderedInsert (fun a b => f a ≤ f b) id).Pairwise fun a b => f a ≤ f b := by
  have htrans : IsTrans Nat fun a b => f a ≤ f b := ⟨fun _ _ _ => Nat.le_trans⟩
  have htotal : Std.Total fun a b => f a ≤ f b := ⟨fun _ _ => Nat.le_total _ _⟩
  exact h.orderedInsert id l

theorem Linked.timerAttach (h : m.Linked) (id : Nat) (hrun : t'.isRunning = true) :
    ((m.setTimer id (some t')).timerAttach id).Linked :=
  h.activate hrun (List.perm_orderedInsert _ _ _)
    (pairwise_orderedInsert (m.setTimer id (some t')).expireTime id
      (h.sorted_erase id (some t')))

theorem Linked.push (h : m.Linked) (id : Nat) (hrun : t'.isRunning = true)
    (hexpire : t'.expireTime = 0) :
    Linked { m.setTimer id (some t') with
      listActive := id :: m.listActive.erase id, listStandby := m.listStandby.erase id } := by
  refine h.activate hrun (List.Perm.refl _) ?_
  refine List.pairwise_cons.2 ⟨fun x _ => ?_, h.sorted_erase id (some t')⟩
  rw [expireTime_of_eq (timer_setTimer_self m id _), hexpire]
  exact Nat.zero_le _

theorem Linked.standBy (h : m.Linked) (id : Nat) (hrest : t'.isRunning = false) :
    ((m.setTimer id (some t')).standBy id).Linked where
  active x := by
    have hrunning : ∀ y, ((m.setTimer id (some t')).standBy id).Running y ↔
        (m.setTimer id (some t')).Running y := fun _ => Iff.rfl
    rw [hrunning]
    refine (h.mem_erase_active (some t')).trans ⟨And.right, fun hr => ⟨?_, hr⟩⟩
    rintro rfl
    rw [running_iff_of_eq (timer_setTimer_self m x _), hrest] at hr
    cases hr
  standby x := by
    have hresting : ∀ y, ((m.setTimer id (some t')).standBy id).Resting y ↔
        (m.setTimer id (some t')).Resting y := fun _ => Iff.rfl
    refine List.mem_append.trans ?_
    rw [List.mem_singleton, hresting]
    by_cases hx : x = id
    · rw [hx, resting_iff_of_eq (timer_setTimer_self m id _)]
      exact iff_of_true (Or.inr rfl) hrest
    · refine ⟨fun hor => hor.elim (fun hmem => ?_) (absurd · hx), fun hr => Or.inl ?_⟩
      · exact ((h.mem_erase_standby (some t')).1 hmem).2
      · exact (h.mem_erase_standby (some t')).2 ⟨hx, hr⟩
  nodup_active := h.nodup_active.erase id
  nodup_standby := by
    refine (List.perm_append_singleton id _).nodup_iff.2 (List.nodup_cons.2 ⟨?_, ?_⟩)
    · exact h.nodup_standby.not_mem_erase
    · exact h.nodup_standby.erase id
  sorted := h.sorted_erase id (some t')

theorem Linked.setTimer (h : m.Linked) (ht : m.timer id = some t) (hold : t.isRunning = false)
    (hnew : t'.isRunning = false) : (m.setTimer id (some t')).Linked := by
  have hid : m.Resting id := (resting_iff_of_eq ht).2 hold
  have hnot : id ∉ m.listActive := by
    rw [h.active, running_iff_of_eq ht, hold]
    exact Bool.false_ne_true
  have herase : m.listActive.erase id = m.listActive := List.erase_of_not_mem hnot
  refine ⟨fun x => ?_, fun x => ?_, h.nodup_active, h.nodup_standby, ?_⟩
  · change x ∈ m.listActive ↔ _
    rw [← herase, h.mem_erase_active (some t')]
    refine ⟨And.right, fun hr => ⟨?_, hr⟩⟩
    rintro rfl
    rw [running_iff_of_eq (timer_setTimer_self m x _), hnew] at hr
    cases hr
  · by_cases hx : x = id
    · rw [hx, resting_iff_of_eq (timer_setTimer_self m id _)]
      exact iff_of_true ((h.standby id).2 hid) hnew
    · rw [resting_setTimer_of_ne m _ hx]
      exact h.standby x
  · have hsorted := h.sorted_erase id (some t')
    rwa [herase] at hsorted

theorem Linked.delete (h : m.Linked) (id : Nat) :
    Linked { m.setTimer id none with
      listActive := m.listActive.erase id, listStandby := m.listStandby.erase id } where
  active x := by
    refine (h.mem_erase_active none).trans ⟨And.right, fun hr => ⟨?_, hr⟩⟩
    rintro rfl
    obtain ⟨t, ht, -⟩ := hr
    rw [timer_setTimer_self] at ht
    cases ht
  standby x := by
    refine (h.mem_erase_standby none).trans ⟨And.right, fun hr => ⟨?_, hr⟩⟩
    rintro rfl
    obtain ⟨t, ht, -⟩ := hr
    rw [timer_setTimer_self] at ht
    cases ht
  nodup_active := h.nodup_active.erase id
  nodup_standby := h.nodup_standby.erase id
  sorted := h.sorted_erase id none

theorem Linked.create (h : m.Linked) (hid : m.timer id = none) (t' : SwTimer κ δ)
    (hrest : t'.isRunning = false) :
    Linked { m.setTimer id (some t') with listStandby := m.listStandby ++ [id] } := by
  have hactive : id ∉ m.listActive := by
    rw [h.active]
    rintro ⟨t, ht, -⟩
    rw [hid] at ht
    cases ht
  have hstandby : id ∉ m.listStandby := by
    rw [h.standby]
    rintro ⟨t, ht, -⟩
    rw [hid] at ht
    cases ht
  have hlinked := h.standBy id hrest
  have heq : { m.setTimer id (some t') with listStandby := m.listStandby ++ [id] } =
      { (m.setTimer id (some t')).standBy id with runningCnt := m.runningCnt } := by
    rw [TimerMgr.standBy, listDel]
    dsimp only [TimerMgr.setTimer]
    rw [List.erase_of_not_mem hactive, List.erase_of_not_mem hstandby]
  rw [heq]
  exact hlinked.congr rfl rfl rfl

theorem Linked.erase_of_running (h : m.Linked) (ht : m.timer id = some t)
    (hrun : t.isRunning = true) :
    (m.listActive.erase id).length + 1 = m.listActive.length ∧
      m.listStandby.erase id = m.listStandby := by
  have hmem : id ∈ m.listActive := (h.active id).2 ⟨t, ht, hrun⟩
  have hnot : id ∉ m.listStandby := by
    rw [h.standby, resting_iff_of_eq ht, hrun]
    exact fun heq => Bool.false_ne_true heq.symm
  exact ⟨List.length_erase_add_one hmem, List.erase_of_not_mem hnot⟩

theorem Linked.erase_of_resting (h : m.Linked) (ht : m.timer id = some t)
    (hrest : t.isRunning = false) :
    m.listActive.erase id = m.listActive ∧
      (m.listStandby.erase id).length + 1 = m.listStandby.length := by
  have hmem : id ∈ m.listStandby := (h.standby id).2 ⟨t, ht, hrest⟩
  have hnot : id ∉ m.listActive := by
    rw [h.active, running_iff_of_eq ht, hrest]
    exact Bool.false_ne_true
  exact ⟨List.erase_of_not_mem hnot, List.length_erase_add_one hmem⟩

end Lists

/-! ### The invariant -/

/-- The counts are those of the lists, in 16 bits. -/
structure Counted (m : TimerMgr κ δ) : Prop where
  running : m.runningCnt = UInt16.ofNat m.listActive.length
  total : m.totalCnt = UInt16.ofNat (m.listActive.length + m.listStandby.length)

/-- What holds of the record of a timer, when no time after `last` has been read. -/
structure Sound (last : Nat) (t : SwTimer κ δ) : Prop where
  startedAt : t.startedAt ≤ last
  expireTime : t.isRunning = true → t.triggered = false →
    t.startedAt + t.interval.toNat ≤ t.expireTime
  unfired : t.type = .once → t.isRunning = true → t.fired = 0
  fired : t.type = .once → t.fired ≤ 1

structure Ordered (m : TimerMgr κ δ) (last : Nat) : Prop where
  linked : m.Linked
  counted : m.Counted
  sound : ∀ id t, m.timer id = some t → Sound last t
  nextExpired : m.dispatching = true → m.nextExpired = 0xFFFFFFFF

theorem Sound.mono {t : SwTimer κ δ} {last now : Nat} (h : Sound last t) (hle : last ≤ now) :
    Sound now t :=
  ⟨h.startedAt.trans hle, h.expireTime, h.unfired, h.fired⟩

theorem sound_setTimer {m : TimerMgr κ δ} {last : Nat} {id : Nat} {t : Option (SwTimer κ δ)}
    (h : ∀ x s, m.timer x = some s → Sound last s) (ht : ∀ s, t = some s → Sound last s) :
    ∀ x s, (m.setTimer id t).timer x = some s → Sound last s := by
  intro x s hs
  by_cases hx : x = id
  · rw [hx, timer_setTimer_self] at hs
    exact ht s hs
  · rw [timer_setTimer_of_ne m t hx] at hs
    exact h x s hs

theorem ofNat_succ (n : Nat) : UInt16.ofNat (n + 1) = UInt16.ofNat n + 1 := by
  rw [UInt16.ofNat_add]
  rfl

theorem ofNat_succ_sub_one (n : Nat) : UInt16.ofNat (n + 1) - 1 = UInt16.ofNat n := by
  rw [ofNat_succ, UInt16.add_sub_cancel]

theorem nowMs_add_interval (now : SystemTime) (interval : UInt32) :
    (now.nowMs + interval.toNat) % 0x10000000000000000 = now.nowMs + interval.toNat := by
  have hsec := now.secTime.toNat_lt
  have hms := now.msTime.toNat_lt
  have hinterval := interval.toNat_lt
  have hnow : now.nowMs = now.secTime.toNat * 1000 + now.msTime.toNat := by
    rw [SystemTime.nowMs]
    exact Nat.mod_eq_of_lt (by omega)
  rw [hnow]
  exact Nat.mod_eq_of_lt (by omega)

section Steps

variable {m : TimerMgr κ δ} {last : Nat}

theorem Ordered.mono {now : Nat} (h : m.Ordered last) (hle : last ≤ now) : m.Ordered now :=
  ⟨h.linked, h.counted, fun id t ht => (h.sound id t ht).mono hle, h.nextExpired⟩

theorem Ordered.talSwTimerCreate (h : m.Ordered last) (func : Option κ) (arg : Option δ)
    (calloc : Option Nat) : ((talSwTimerCreate m func arg calloc).2).Ordered last := by
  rw [System.talSwTimerCreate.eq_def]
  cases func with
  | none => exact h
  | some func =>
    cases calloc with
    | none => exact h
    | some id =>
      dsimp only
      cases hid : m.timer id with
      | some t => exact h
      | none =>
        have hlinked := h.linked.create hid ⟨func, arg, 0, 0, false, .once, 0, false, 0⟩ rfl
        refine ⟨hlinked.congr rfl rfl rfl, ⟨h.counted.running, ?_⟩, ?_, h.nextExpired⟩
        · dsimp only [setTimer]
          rw [h.counted.total, List.length_append, List.length_singleton, ← Nat.add_assoc,
            ofNat_succ]
        · refine sound_setTimer h.sound ?_
          rintro s ⟨⟩
          exact ⟨Nat.zero_le _, nofun, fun _ => nofun, fun _ => Nat.zero_le _⟩

theorem Ordered.talSwTimerDelete (h : m.Ordered last) (id : Nat) :
    (talSwTimerDelete m id).Ordered last := by
  rw [System.talSwTimerDelete]
  cases ht : m.timer id with
  | none => exact h
  | some t =>
    have hlinked := h.linked.delete id
    have hsound : ∀ x s, (m.setTimer id none).timer x = some s → Sound last s :=
      sound_setTimer h.sound (fun s hs => by cases hs)
    dsimp only
    cases hrun : t.isRunning with
    | true =>
      obtain ⟨hactive, hstandby⟩ := h.linked.erase_of_running ht hrun
      rw [if_pos rfl]
      refine ⟨hlinked.congr rfl rfl rfl, ⟨?_, ?_⟩, hsound, h.nextExpired⟩
      · change m.runningCnt - 1 = UInt16.ofNat (m.listActive.erase id).length
        rw [h.counted.running, ← hactive, ofNat_succ_sub_one]
      · change m.totalCnt - 1 =
          UInt16.ofNat ((m.listActive.erase id).length + (m.listStandby.erase id).length)
        rw [h.counted.total, ← hactive, hstandby, Nat.add_right_comm, ofNat_succ_sub_one]
    | false =>
      obtain ⟨hactive, hstandby⟩ := h.linked.erase_of_resting ht hrun
      rw [if_neg Bool.false_ne_true]
      refine ⟨hlinked.congr rfl rfl rfl, ⟨?_, ?_⟩, hsound, h.nextExpired⟩
      · change m.runningCnt = UInt16.ofNat (m.listActive.erase id).length
        rw [h.counted.running, hactive]
      · change m.totalCnt - 1 =
          UInt16.ofNat ((m.listActive.erase id).length + (m.listStandby.erase id).length)
        rw [h.counted.total, hactive, ← hstandby, ← Nat.add_assoc, ofNat_succ_sub_one]

theorem Ordered.standBy {id : Nat} {t t' : SwTimer κ δ} (h : m.Ordered last)
    (ht : m.timer id = some t) (hrun : t.isRunning = true) (hrest : t'.isRunning = false)
    (hsound : Sound last t') : ((m.setTimer id (some t')).standBy id).Ordered last := by
  obtain ⟨hactive, hstandby⟩ := h.linked.erase_of_running ht hrun
  refine ⟨h.linked.standBy id hrest, ⟨?_, ?_⟩, ?_, h.nextExpired⟩
  · change m.runningCnt - 1 = UInt16.ofNat (m.listActive.erase id).length
    rw [h.counted.running, ← hactive, ofNat_succ_sub_one]
  · change m.totalCnt =
      UInt16.ofNat ((m.listActive.erase id).length + (m.listStandby.erase id ++ [id]).length)
    rw [h.counted.total, ← hactive, hstandby, List.length_append, List.length_singleton,
      Nat.add_assoc, Nat.add_comm 1]
  · refine sound_setTimer h.sound ?_
    rintro s ⟨⟩
    exact hsound

theorem Ordered.activate {id : Nat} {t t' : SwTimer κ δ} {l : List Nat} (h : m.Ordered last)
    (ht : m.timer id = some t) (hsound : Sound last t')
    (hperm : l.Perm (id :: m.listActive.erase id))
    (hlinked : Linked { m.setTimer id (some t') with
      listActive := l, listStandby := m.listStandby.erase id }) :
    Ordered { m.setTimer id (some t') with
      listActive := l
      listStandby := m.listStandby.erase id
      runningCnt := if t.isRunning then m.runningCnt else m.runningCnt + 1 } last := by
  refine ⟨hlinked.congr rfl rfl rfl, ?_, ?_, h.nextExpired⟩
  · cases hrun : t.isRunning with
    | true =>
      obtain ⟨hactive, hstandby⟩ := h.linked.erase_of_running ht hrun
      rw [if_pos rfl]
      refine ⟨?_, ?_⟩
      · change m.runningCnt = UInt16.ofNat l.length
        rw [h.counted.running, hperm.length_eq, List.length_cons, hactive]
      · change m.totalCnt = UInt16.ofNat (l.length + (m.listStandby.erase id).length)
        rw [h.counted.total, hperm.length_eq, List.length_cons, hactive, hstandby]
    | false =>
      obtain ⟨hactive, hstandby⟩ := h.linked.erase_of_resting ht hrun
      rw [if_neg Bool.false_ne_true]
      refine ⟨?_, ?_⟩
      · change m.runningCnt + 1 = UInt16.ofNat l.length
        rw [h.counted.running, hperm.length_eq, List.length_cons, hactive, ofNat_succ]
      · change m.totalCnt = UInt16.ofNat (l.length + (m.listStandby.erase id).length)
        rw [h.counted.total, hperm.length_eq, List.length_cons, hactive, ← hstandby,
          Nat.add_assoc, Nat.add_comm 1]
  · refine sound_setTimer h.sound ?_
    rintro s ⟨⟩
    exact hsound

theorem Ordered.talSwTimerStop (h : m.Ordered last) (id : Nat) :
    (talSwTimerStop m id).Ordered last := by
  rw [System.talSwTimerStop]
  cases ht : m.timer id with
  | none => exact h
  | some t =>
    dsimp only
    cases hrun : t.isRunning with
    | false =>
      rw [if_neg Bool.false_ne_true]
      exact h
    | true =>
      rw [if_pos rfl]
      have hold := h.sound id t ht
      refine h.standBy ht hrun rfl ?_
      exact ⟨hold.startedAt, nofun, fun _ => nofun, hold.fired⟩

theorem Ordered.talSwTimerStart (h : m.Ordered last) (id : Nat) {now : SystemTime}
    (hle : last ≤ now.nowMs) (timeMs : UInt32) (timerType : TimerType) :
    (talSwTimerStart m id now timeMs timerType).Ordered now.nowMs := by
  rw [System.talSwTimerStart]
  cases ht : m.timer id with
  | none => exact h.mono hle
  | some t =>
    dsimp only
    set t' : SwTimer κ δ := { t with
      isRunning := true
      interval := if timeMs = 0 then t.interval else timeMs
      type := timerType
      expireTime := (now.nowMs + (if timeMs = 0 then t.interval else timeMs).toNat) %
        0x10000000000000000
      startedAt := now.nowMs
      triggered := false
      fired := 0 } with ht'
    have hrun' : t'.isRunning = true := rfl
    have hsound : Sound now.nowMs t' :=
      ⟨le_rfl, fun _ _ => (nowMs_add_interval now _).ge, fun _ _ => rfl, fun _ => Nat.zero_le _⟩
    have key := (h.mono hle).activate ht hsound (List.perm_orderedInsert _ _ _)
      (h.linked.timerAttach id hrun')
    cases hrun : t.isRunning with
    | true =>
      rw [hrun] at key
      exact key
    | false =>
      rw [hrun] at key
      exact key

theorem Ordered.talSwTimerTrigger (h : m.Ordered last) (id : Nat) :
    (talSwTimerTrigger m id).Ordered last := by
  rw [System.talSwTimerTrigger]
  cases ht : m.timer id with
  | none => exact h
  | some t =>
    have hold := h.sound id t ht
    have hsound : Sound last { t with expireTime := 0, triggered := true } :=
      ⟨hold.startedAt, fun _ => nofun, hold.unfired, hold.fired⟩
    dsimp only
    split_ifs with hrun
    · have key := h.activate ht hsound (List.Perm.refl _) (h.linked.push id hrun rfl)
      rw [if_pos hrun] at key
      exact key
    · rw [Bool.not_eq_true] at hrun
      refine ⟨h.linked.setTimer ht hrun hrun, ⟨h.counted.running, h.counted.total⟩,
        sound_setTimer h.sound ?_, h.nextExpired⟩
      rintro s ⟨⟩
      exact hsound

theorem Ordered.timerPass (h : m.Ordered last) {now : SystemTime} (hle : last ≤ now.nowMs) :
    ((timerPass m now.nowMs).2).Ordered now.nowMs := by
  rw [System.timerPass]
  cases hactive : m.listActive with
  | nil => exact h.mono hle
  | cons id rest =>
    have hmem : id ∈ m.listActive := by
      rw [hactive]
      exact List.mem_cons_self
    obtain ⟨t, ht, hrun⟩ := (h.linked.active id).1 hmem
    dsimp only
    rw [ht]
    dsimp only
    split_ifs with hlt
    · exact h.mono hle
    · have hold := (h.mono hle).sound id t ht
      obtain ⟨cb, data, expireTime, interval, isRunning, type, startedAt, triggered, fired⟩ := t
      obtain rfl : isRunning = true := hrun
      cases type with
      | once =>
        refine (h.mono hle).standBy ht rfl rfl ⟨hold.startedAt, nofun, fun _ => nofun, fun _ => ?_⟩
        exact (congrArg (· + 1) (hold.unfired rfl rfl)).le
      | cycle =>
        refine (h.mono hle).activate ht ?_ (List.perm_orderedInsert _ _ _)
          (h.linked.timerAttach id rfl)
        refine ⟨hold.startedAt, fun _ _ => ?_, nofun, nofun⟩
        dsimp only
        rw [nowMs_add_interval]
        exact Nat.add_le_add_right hold.startedAt _

/-- **Every step keeps the invariant.** -/
theorem Ordered.timerStep (h : m.Ordered last) (ev : TimerEvent κ δ)
    (hle : ∀ now, ev.now? = some now → last ≤ now) :
    (timerStep m ev).Ordered (ev.now?.getD last) := by
  cases ev with
  | create func arg calloc => exact h.talSwTimerCreate func arg calloc
  | start id now timeMs timerType => exact h.talSwTimerStart id (hle _ rfl) timeMs timerType
  | stop id => exact h.talSwTimerStop id
  | trigger id => exact h.talSwTimerTrigger id
  | delete id => exact h.talSwTimerDelete id
  | dispatch =>
    rw [System.timerStep]
    split_ifs with hdispatching
    · exact h
    · exact ⟨h.linked.congr rfl rfl rfl, ⟨h.counted.running, h.counted.total⟩, h.sound,
        fun _ => rfl⟩
  | pass now =>
    have hpass := h.timerPass (hle _ rfl)
    rw [System.timerStep]
    split_ifs with hdispatching
    · dsimp only
      cases (System.timerPass m now.nowMs).1 with
      | empty =>
        exact ⟨hpass.linked.congr rfl rfl rfl, ⟨hpass.counted.running, hpass.counted.total⟩,
          hpass.sound, nofun⟩
      | later nextExpired =>
        exact ⟨hpass.linked.congr rfl rfl rfl, ⟨hpass.counted.running, hpass.counted.total⟩,
          hpass.sound, nofun⟩
      | selected id => exact hpass
    · exact h.mono (hle _ rfl)

theorem Ordered.run (h : m.Ordered last) (evs more : List (TimerEvent κ δ))
    (hclock : (last :: (evs ++ more).filterMap TimerEvent.now?).Pairwise (· ≤ ·)) :
    ∃ now, (evs.foldl System.timerStep m).Ordered now ∧
      (now :: more.filterMap TimerEvent.now?).Pairwise (· ≤ ·) := by
  induction evs generalizing m last with
  | nil => exact ⟨last, h, hclock⟩
  | cons ev evs ih =>
    rw [List.cons_append, List.filterMap_cons] at hclock
    cases hnow : ev.now? with
    | none =>
      rw [hnow] at hclock
      have hstep := h.timerStep ev fun now hsome => by rw [hnow] at hsome; cases hsome
      rw [hnow] at hstep
      exact ih hstep hclock
    | some now =>
      rw [hnow] at hclock
      obtain ⟨hle, hrest⟩ := List.pairwise_cons.1 hclock
      have hstep := h.timerStep ev fun now' hsome => by
        rw [hnow] at hsome
        cases hsome
        exact hle now List.mem_cons_self
      rw [hnow] at hstep
      exact ih hstep hrest

end Steps

theorem ordered_talSwTimerInit : (talSwTimerInit : TimerMgr κ δ).Ordered 0 := by
  refine ⟨⟨fun id => ?_, fun id => ?_, List.nodup_nil, List.nodup_nil, List.Pairwise.nil⟩,
    ⟨rfl, rfl⟩, nofun, nofun⟩
  · exact iff_of_false List.not_mem_nil fun ⟨_, ht, _⟩ => by cases ht
  · exact iff_of_false List.not_mem_nil fun ⟨_, ht, _⟩ => by cases ht

/-! ### What the calls leave as it is -/

def identity (m : TimerMgr κ δ) (id : Nat) : Option (κ × Option δ) :=
  (m.timer id).map fun t => (t.cb, t.data)

section Identity

variable (m : TimerMgr κ δ) (id : Nat)

theorem identity_of_eq {m : TimerMgr κ δ} {id : Nat} {t : SwTimer κ δ} (h : m.timer id = some t) :
    m.identity id = some (t.cb, t.data) := by
  rw [identity, h]
  rfl

theorem identity_eq_none {m : TimerMgr κ δ} {id : Nat} : m.identity id = none ↔ m.timer id = none :=
  Option.map_eq_none_iff

theorem identity_setTimer {m : TimerMgr κ δ} {id : Nat} {t t' : SwTimer κ δ}
    (ht : m.timer id = some t) (hcb : t'.cb = t.cb) (hdata : t'.data = t.data) :
    (m.setTimer id (some t')).identity = m.identity := by
  ext1 x
  by_cases hx : x = id
  · rw [hx, identity_of_eq (timer_setTimer_self m id _), identity_of_eq ht, hcb, hdata]
  · rw [identity, timer_setTimer_of_ne m _ hx, identity]

theorem identity_talSwTimerStop : (talSwTimerStop m id).identity = m.identity := by
  rw [talSwTimerStop]
  cases ht : m.timer id with
  | none => rfl
  | some t =>
    dsimp only
    split_ifs with hrun
    · exact identity_setTimer ht rfl rfl
    · rfl

theorem identity_talSwTimerStart (now : SystemTime) (timeMs : UInt32) (timerType : TimerType) :
    (talSwTimerStart m id now timeMs timerType).identity = m.identity := by
  rw [talSwTimerStart]
  cases ht : m.timer id with
  | none => rfl
  | some t =>
    dsimp only
    split_ifs with hrun
    · exact identity_setTimer ht rfl rfl
    · exact identity_setTimer ht rfl rfl
    · exact identity_setTimer ht rfl rfl
    · exact identity_setTimer ht rfl rfl

theorem identity_talSwTimerTrigger : (talSwTimerTrigger m id).identity = m.identity := by
  rw [talSwTimerTrigger]
  cases ht : m.timer id with
  | none => rfl
  | some t =>
    dsimp only
    split_ifs with hrun
    · exact identity_setTimer ht rfl rfl
    · exact identity_setTimer ht rfl rfl

theorem identity_timerPass (nowMs : Nat) : (System.timerPass m nowMs).2.identity = m.identity := by
  rw [System.timerPass]
  cases m.listActive with
  | nil => rfl
  | cons id rest =>
    dsimp only
    cases ht : m.timer id with
    | none => rfl
    | some t =>
      dsimp only
      split_ifs with hlt
      · rfl
      · cases t.type with
        | once => exact identity_setTimer ht rfl rfl
        | cycle => exact identity_setTimer ht rfl rfl

theorem identity_talSwTimerDelete :
    (talSwTimerDelete m id).identity = Function.update m.identity id none := by
  ext1 x
  rw [talSwTimerDelete]
  cases ht : m.timer id with
  | none =>
    by_cases hx : x = id
    · rw [hx, Function.update_self, identity_eq_none]
      exact ht
    · rw [Function.update_of_ne hx]
  | some t =>
    have htimer : ∀ m' : TimerMgr κ δ, m'.timer = m.timer →
        (m'.setTimer id none).identity x = Function.update m.identity id none x := by
      intro m' hm'
      by_cases hx : x = id
      · rw [hx, Function.update_self, identity_eq_none, timer_setTimer_self]
      · rw [Function.update_of_ne hx, identity, timer_setTimer_of_ne m' _ hx, hm', identity]
    dsimp only
    split_ifs with hrun
    · exact htimer _ rfl
    · exact htimer _ rfl

theorem identity_talSwTimerCreate {m : TimerMgr κ δ} {id : Nat} (hid : m.timer id = none) (func : κ)
    (arg : Option δ) :
    (talSwTimerCreate m (some func) arg (some id)).2.identity =
      Function.update m.identity id (some (func, arg)) := by
  ext1 x
  rw [talSwTimerCreate, hid]
  change identity (m.setTimer id _) x = _
  by_cases hx : x = id
  · rw [hx, Function.update_self, identity_of_eq (timer_setTimer_self m id _)]
  · rw [Function.update_of_ne hx, identity, timer_setTimer_of_ne m _ hx, identity]

end Identity

/-! ### Runs -/

/-- What holds of a state: the list of the running timers, the counts, and the number of times
that a timer which runs once has been selected since it was started. -/
structure Right (m : TimerMgr κ δ) : Prop where
  active : ∀ id, id ∈ m.listActive ↔ m.Running id
  nodup : m.listActive.Nodup
  sorted : m.listActive.Pairwise fun a b => m.expireTime a ≤ m.expireTime b
  runningCnt : m.runningCnt.toNat = {id | m.Running id}.ncard % 65536
  totalCnt : m.totalCnt.toNat = {id | (m.timer id).isSome}.ncard % 65536
  fired : ∀ id t, m.timer id = some t → t.type = .once → t.fired ≤ 1

theorem ncard_setOf_mem {l : List Nat} (h : l.Nodup) : {x | x ∈ l}.ncard = l.length := by
  rw [← List.toFinset_card_of_nodup h, ← Set.ncard_coe_finset]
  congr 1
  ext x
  exact List.mem_toFinset.symm

theorem Ordered.right {m : TimerMgr κ δ} {last : Nat} (h : m.Ordered last) : m.Right where
  active := h.linked.active
  nodup := h.linked.nodup_active
  sorted := h.linked.sorted
  runningCnt := by
    have hset : {id | m.Running id} = {id | id ∈ m.listActive} := by
      ext id
      exact (h.linked.active id).symm
    rw [hset, ncard_setOf_mem h.linked.nodup_active, h.counted.running]
    exact UInt16.toNat_ofNat'
  totalCnt := by
    have hset : {id | (m.timer id).isSome} = {id | id ∈ m.listActive ++ m.listStandby} := by
      ext id
      change (m.timer id).isSome ↔ id ∈ m.listActive ++ m.listStandby
      rw [List.mem_append, h.linked.active, h.linked.standby, isSome_timer_iff]
    have hnodup : (m.listActive ++ m.listStandby).Nodup := by
      refine h.linked.nodup_active.append h.linked.nodup_standby fun id hactive hstandby => ?_
      obtain ⟨t, ht, hrun⟩ := (h.linked.active id).1 hactive
      have hrest := (resting_iff_of_eq ht).1 ((h.linked.standby id).1 hstandby)
      rw [hrun] at hrest
      cases hrest
    rw [hset, ncard_setOf_mem hnodup, List.length_append, h.counted.total]
    exact UInt16.toNat_ofNat'
  fired id t ht := (h.sound id t ht).fired

end TimerMgr

end TuyaOpen.System
