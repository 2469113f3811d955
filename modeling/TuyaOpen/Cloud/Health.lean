import TuyaOpen.Basic.Transition
import TuyaOpen.Common.OperateRet
import Mathlib.Algebra.Order.Floor.Div
import Mathlib.Data.List.Forall2

/-!
# The health monitor

`tuya_health.c` keeps a list of items. A thread wakes every `HEALTH_SLEEP_INTERVAL` seconds and
counts the time of every item down; when it has run out, the item is evaluated. An item with a
callback to check is a query item: it counts the positive checks in a row. The others are event
items: they count the alerts. When the count has reached the threshold the callback to notify is
scheduled.

The policy is stated apart, for items that remember the ticks, the checks and the alerts themselves.
The monitor follows it as long as the counts are right. An alert is counted for a query item as
well, where it stands for a positive check; and the count of an event item has 32 bits.
-/

namespace TuyaOpen.Health

/-! ### The functions -/

/-- `HEALTH_SLEEP_INTERVAL`, in seconds. -/
def healthSleepInterval : Int := 5

/-- `health_policy_t`. Of the callbacks, whether they are there. -/
structure HealthPolicy where
  type : Int
  threshold : UInt32
  detectPeriod : UInt32
  checkCb : Bool
  notifyCb : Bool

/-- `health_item_t`. -/
structure HealthItem where
  policy : HealthPolicy
  ts : Nat
  cnt : UInt32
  detectTimeLeft : Int

/-- `health_mgr_t`, without its thread and its mutex. -/
structure HealthMgr where
  globalType : Int
  items : List HealthItem

/-- The conversion of a period to an `int`. -/
def intOfPeriod (period : UInt32) : Int := period.toBitVec.toInt

/-- What a tick does with an item: whether it is evaluated, and whether its callback to notify is
scheduled. -/
structure ItemResult where
  type : Int
  evaluated : Bool
  scheduled : Bool
  deriving DecidableEq

/-- The evaluation of an item in `__health_foreach_item`, with what its `check_cb` gives and with
what `tal_time_get_posix` gives. -/
def HealthItem.evaluate (item : HealthItem) (check : Bool) (posix : Nat) : Bool × HealthItem :=
  let item := { item with detectTimeLeft := intOfPeriod item.policy.detectPeriod }
  let item :=
    if item.policy.checkCb then
      if check then { item with cnt := item.cnt + 1, ts := posix }
      else { item with cnt := 0, ts := 0 }
    else item
  let scheduled := decide (item.policy.threshold ≤ item.cnt) && item.policy.notifyCb
  let item := if scheduled then { item with cnt := 0, ts := 0 } else item
  let item := if item.policy.checkCb then item else { item with cnt := 0, ts := 0 }
  (scheduled, item)

/-- An item in `__health_foreach_item`. -/
def HealthItem.tick (item : HealthItem) (check : Bool) (posix : Nat) : ItemResult × HealthItem :=
  let item := { item with detectTimeLeft := item.detectTimeLeft - healthSleepInterval }
  if item.detectTimeLeft ≤ 0 then
    let r := item.evaluate check posix
    (⟨item.policy.type, true, r.1⟩, r.2)
  else (⟨item.policy.type, false, false⟩, item)

/-- A call of a function of the monitor, with what it is given. -/
inductive HealthCall
  | foreachItem (check : Int → Bool) (posix : Nat)
  | alert (type : Int)
  | itemAdd (threshold period : UInt32) (checkCb notifyCb malloc : Bool)
  | itemDel (type : Int)
  | updateItemPeriod (type : Int) (period : UInt32)
  | updateItemThreshold (type : Int) (threshold : UInt32)

inductive HealthOutput
  | none
  | returned (rt : Int)
  | ticked (results : List ItemResult)
  deriving DecidableEq

/-- `__health_foreach_item`. -/
def healthForeachItem (mgr : HealthMgr) (check : Int → Bool) (posix : Nat) :
    HealthOutput × HealthMgr :=
  let r := mgr.items.map fun item => item.tick (check item.policy.type) posix
  (.ticked (r.map Prod.fst), { mgr with items := r.map Prod.snd })

def updateType (type : Int) (f : HealthItem → HealthItem) (mgr : HealthMgr) :
    HealthOutput × HealthMgr :=
  let items := mgr.items.map fun item => if item.policy.type = type then f item else item
  (.none, { mgr with items := items })

/-- `__health_alert_cb`. -/
def healthAlertCb (mgr : HealthMgr) (type : Int) : HealthOutput × HealthMgr :=
  updateType type (fun item => { item with cnt := item.cnt + 1 }) mgr

/-- `tuya_health_item_add`, with whether there is memory for the item. -/
def tuyaHealthItemAdd (mgr : HealthMgr) (threshold period : UInt32)
    (checkCb notifyCb malloc : Bool) : HealthOutput × HealthMgr :=
  if 128 < mgr.globalType then (.returned oprtInvalidParm, mgr)
  else if malloc = false then (.returned oprtMallocFailed, mgr)
  else
    (.returned mgr.globalType,
      { globalType := mgr.globalType + 1
        items :=
          { policy := ⟨mgr.globalType, threshold, period, checkCb, notifyCb⟩
            ts := 0
            cnt := 0
            detectTimeLeft := intOfPeriod period } :: mgr.items })

/-- `tuya_health_item_del`. -/
def tuyaHealthItemDel (mgr : HealthMgr) (type : Int) : HealthOutput × HealthMgr :=
  (.none, { mgr with items := mgr.items.eraseP fun item => item.policy.type = type })

/-- `tuya_health_update_item_period`. -/
def tuyaHealthUpdateItemPeriod (mgr : HealthMgr) (type : Int) (period : UInt32) :
    HealthOutput × HealthMgr :=
  updateType type (fun item =>
    { item with
      policy := { item.policy with detectPeriod := period }
      detectTimeLeft := intOfPeriod period }) mgr

/-- `tuya_health_update_item_threshold`. -/
def tuyaHealthUpdateItemThreshold (mgr : HealthMgr) (type : Int) (threshold : UInt32) :
    HealthOutput × HealthMgr :=
  updateType type
    (fun item => { item with policy := { item.policy with threshold := threshold } }) mgr

def healthStep (mgr : HealthMgr) : HealthCall → HealthOutput × HealthMgr
  | .foreachItem check posix => healthForeachItem mgr check posix
  | .alert type => healthAlertCb mgr type
  | .itemAdd threshold period checkCb notifyCb malloc =>
    tuyaHealthItemAdd mgr threshold period checkCb notifyCb malloc
  | .itemDel type => tuyaHealthItemDel mgr type
  | .updateItemPeriod type period => tuyaHealthUpdateItemPeriod mgr type period
  | .updateItemThreshold type threshold => tuyaHealthUpdateItemThreshold mgr type threshold

/-- The manager of `tuya_health_monitor_init`, before its items are loaded. -/
def healthMgrInit : HealthMgr := ⟨0, []⟩

/-! ### The policy -/

/-- An item with what it remembers: the ticks since its last evaluation or period update, the checks
since its last notification, the latest first, and the alerts since its last evaluation. -/
structure Watched where
  type : Int
  threshold : Nat
  period : Nat
  query : Bool
  notify : Bool
  ticks : Nat
  checks : List Bool
  alerts : Nat

def Watched.interval (w : Watched) : Nat := max 1 (w.period ⌈/⌉ 5)

def streak (checks : List Bool) : Nat := (checks.takeWhile id).length

def Watched.due (w : Watched) (check : Bool) : Bool :=
  w.notify && decide (w.threshold ≤ if w.query then streak (check :: w.checks) else w.alerts)

def Watched.tick (w : Watched) (check : Bool) : ItemResult × Watched :=
  if w.ticks + 1 = w.interval then
    (⟨w.type, true, w.due check⟩,
      { w with
        ticks := 0
        checks := if w.due check then [] else check :: w.checks
        alerts := 0 })
  else (⟨w.type, false, false⟩, { w with ticks := w.ticks + 1 })

/-- The items of the policy and the type of the next one. -/
structure Board where
  next : Int
  watched : List Watched

def Board.update (board : Board) (type : Int) (f : Watched → Watched) : Board :=
  { board with watched := board.watched.map fun w => if w.type = type then f w else w }

def policyStep (board : Board) : HealthCall → HealthOutput × Board
  | .foreachItem check _ =>
    let r := board.watched.map fun w => w.tick (check w.type)
    (.ticked (r.map Prod.fst), { board with watched := r.map Prod.snd })
  | .alert type => (.none, board.update type fun w => { w with alerts := w.alerts + 1 })
  | .itemAdd threshold period checkCb notifyCb malloc =>
    if 128 < board.next then (.returned oprtInvalidParm, board)
    else if malloc = false then (.returned oprtMallocFailed, board)
    else
      (.returned board.next,
        ⟨board.next + 1, ⟨board.next, threshold.toNat, period.toNat, checkCb, notifyCb, 0, [], 0⟩ ::
          board.watched⟩)
  | .itemDel type =>
    (.none, { board with watched := board.watched.eraseP fun w => w.type = type })
  | .updateItemPeriod type period =>
    (.none, board.update type fun w => { w with period := period.toNat, ticks := 0 })
  | .updateItemThreshold type threshold =>
    (.none, board.update type fun w => { w with threshold := threshold.toNat })

/-- A period that a call sets is below `2 ^ 31`. -/
def PeriodBelow : HealthCall → Prop
  | .itemAdd _ period _ _ _ => period.toNat < 2 ^ 31
  | .updateItemPeriod _ period => period.toNat < 2 ^ 31
  | _ => True

/-- The condition on an alert: an item of its type that has a callback to notify is no query item,
and its count does not overflow. -/
def AlertCond (mgr : HealthMgr) : HealthCall → Prop
  | .alert type => ∀ item ∈ mgr.items, item.policy.type = type → item.policy.notifyCb = true →
      item.policy.checkCb = false ∧ item.cnt.toNat + 1 < 2 ^ 32
  | _ => True

/-! ### An item -/

section Item

variable {item : HealthItem} {w : Watched} {check : Bool} {posix : Nat}

/-- An item follows the policy: its time is what is left until its next evaluation, and its count,
where it has a callback to notify, is that of the positive checks in a row or of the alerts. -/
structure Follows (item : HealthItem) (w : Watched) : Prop where
  type : item.policy.type = w.type
  threshold : item.policy.threshold.toNat = w.threshold
  period : item.policy.detectPeriod.toNat = w.period
  below : w.period < 2 ^ 31
  query : item.policy.checkCb = w.query
  notify : item.policy.notifyCb = w.notify
  timeLeft : item.detectTimeLeft = w.period - 5 * w.ticks
  ticks : w.ticks < w.interval
  cnt : w.notify = true →
    item.cnt.toNat = if w.query then streak w.checks else w.alerts
  room : w.notify = true → w.query = true → item.cnt.toNat + 1 < 2 ^ 32

theorem interval_eq (w : Watched) : w.interval = max 1 ((w.period + 4) / 5) := by
  rw [Watched.interval, Nat.ceilDiv_eq_add_pred_div, Nat.add_sub_assoc (by decide)]

theorem interval_pos (w : Watched) : 0 < w.interval :=
  lt_of_lt_of_le Nat.zero_lt_one (le_max_left 1 _)

theorem Follows.timeLeft_le_iff (h : Follows item w) :
    item.detectTimeLeft - healthSleepInterval ≤ 0 ↔ w.ticks + 1 = w.interval := by
  have hticks := h.ticks
  rw [interval_eq] at hticks ⊢
  rw [h.timeLeft, healthSleepInterval]
  omega

theorem intOfPeriod_eq {period : UInt32} (h : period.toNat < 2 ^ 31) :
    intOfPeriod period = period.toNat := by
  rw [intOfPeriod, BitVec.toInt_eq_toNat_of_lt]
  · rfl
  · rw [UInt32.toNat_toBitVec]
    omega

theorem streak_cons (check : Bool) (checks : List Bool) :
    streak (check :: checks) = if check then streak checks + 1 else 0 := by
  cases check <;> rfl

def HealthItem.counted (item : HealthItem) (check : Bool) : UInt32 :=
  if item.policy.checkCb then if check then item.cnt + 1 else 0 else item.cnt

/-- An evaluation: the callback is scheduled when the count has reached the threshold, and the count
starts anew then, and for an event item. -/
theorem exists_evaluate_eq (item : HealthItem) (left : Int) (check : Bool) (posix : Nat) :
    ∃ ts, { item with detectTimeLeft := left }.evaluate check posix =
      (decide (item.policy.threshold ≤ item.counted check) && item.policy.notifyCb,
        { item with
          ts := ts
          cnt :=
            if item.policy.checkCb then
              if decide (item.policy.threshold ≤ item.counted check) && item.policy.notifyCb then 0
              else item.counted check
            else 0
          detectTimeLeft := intOfPeriod item.policy.detectPeriod }) := by
  obtain ⟨⟨type, threshold, period, checkCb, notifyCb⟩, ts, cnt, left'⟩ := item
  cases checkCb with
  | false =>
    refine ⟨0, ?_⟩
    simp only [HealthItem.evaluate, HealthItem.counted, Bool.false_eq_true, if_false]
    cases decide (threshold ≤ cnt) && notifyCb <;> rfl
  | true =>
    simp only [HealthItem.evaluate, HealthItem.counted, if_true]
    cases check with
    | false =>
      refine ⟨0, ?_⟩
      simp only [Bool.false_eq_true, if_false]
      cases decide (threshold ≤ 0) && notifyCb <;> rfl
    | true =>
      simp only [if_true]
      cases decide (threshold ≤ cnt + 1) && notifyCb with
      | false => exact ⟨posix, rfl⟩
      | true => exact ⟨0, rfl⟩

theorem Follows.toNat_counted (h : Follows item w) (hnotify : w.notify = true) (check : Bool) :
    (item.counted check).toNat =
      if w.query then streak (check :: w.checks) else w.alerts := by
  have hcnt := h.cnt hnotify
  have hroom := h.room hnotify
  rw [HealthItem.counted, h.query]
  cases hquery : w.query with
  | false => simpa [hquery] using hcnt
  | true =>
    rw [hquery, if_pos rfl] at hcnt
    simp only [if_true, streak_cons]
    cases check with
    | false => rfl
    | true =>
      simp only [if_true]
      have hone : (1 : UInt32).toNat = 1 := rfl
      have := hroom hquery
      rw [UInt32.toNat_add, hcnt, hone]
      exact Nat.mod_eq_of_lt (by omega)

theorem Follows.scheduled_eq (h : Follows item w) (check : Bool) :
    (decide (item.policy.threshold ≤ item.counted check) && item.policy.notifyCb) =
      w.due check := by
  rw [Watched.due, h.notify, Bool.and_comm]
  cases hnotify : w.notify with
  | false => rfl
  | true =>
    rw [← h.toNat_counted hnotify check, ← h.threshold]
    rfl

theorem Follows.counted_lt (h : Follows item w) (check : Bool) (hnotify : w.notify = true)
    (hquery : w.query = true) (hdue : w.due check = false) :
    (item.counted check).toNat + 1 < 2 ^ 32 := by
  have hlt : item.policy.threshold.toNat < 2 ^ 32 := item.policy.threshold.toNat_lt
  rw [Watched.due, hnotify, hquery, Bool.true_and, decide_eq_false_iff_not, ← h.threshold] at hdue
  rw [h.toNat_counted hnotify check, hquery]
  omega

/-- **A tick of an item.** The monitor does what the policy says, and the item still follows it. -/
theorem Follows.tick (h : Follows item w) (check : Bool) (posix : Nat) :
    (item.tick check posix).1 = (w.tick check).1 ∧
      Follows (item.tick check posix).2 (w.tick check).2 := by
  have htime := h.timeLeft_le_iff
  rw [HealthItem.tick, Watched.tick]
  dsimp only
  by_cases hlast : w.ticks + 1 = w.interval
  · rw [if_pos (htime.2 hlast), if_pos hlast]
    obtain ⟨ts, heval⟩ :=
      exists_evaluate_eq item (item.detectTimeLeft - healthSleepInterval) check posix
    rw [h.scheduled_eq check, h.query] at heval
    rw [heval]
    refine ⟨?_, h.type, h.threshold, h.period, h.below, h.query, h.notify, ?_, interval_pos _,
      fun hnotify => ?_, fun hnotify hquery => ?_⟩
    · exact congrArg (fun type => ItemResult.mk type true (w.due check)) h.type
    · dsimp only
      rw [intOfPeriod_eq (h.period ▸ h.below), h.period]
      omega
    · have hcnt := h.toNat_counted hnotify check
      dsimp only
      cases hquery : w.query with
      | false => rfl
      | true =>
        rw [hquery] at hcnt
        cases w.due check with
        | false => exact hcnt
        | true => rfl
    · have hlt := h.counted_lt check hnotify hquery
      dsimp only at hquery ⊢
      rw [hquery]
      cases hdue : w.due check with
      | false => exact hlt hdue
      | true =>
        have hzero : (0 : UInt32).toNat + 1 < 2 ^ 32 := by decide
        exact hzero
  · rw [if_neg (mt htime.1 hlast), if_neg hlast]
    refine ⟨congrArg (fun type => ItemResult.mk type false false) h.type, h.type, h.threshold,
      h.period, h.below, h.query, h.notify, ?_, ?_, h.cnt, h.room⟩
    · have := h.timeLeft
      dsimp only
      rw [this, healthSleepInterval]
      omega
    · have hticks := h.ticks
      dsimp only [Watched.interval] at hticks hlast ⊢
      omega

end Item

/-! ### Runs -/

section Runs

variable {mgr : HealthMgr} {board : Board}

structure AllFollow (mgr : HealthMgr) (board : Board) : Prop where
  next : mgr.globalType = board.next
  items : List.Forall₂ Follows mgr.items board.watched

theorem forall₂_tick {items : List HealthItem} {watched : List Watched}
    (h : List.Forall₂ Follows items watched) (check : Int → Bool) (posix : Nat) :
    items.map (fun item => (item.tick (check item.policy.type) posix).1) =
        watched.map (fun w => (w.tick (check w.type)).1) ∧
      List.Forall₂ Follows
        (items.map fun item => (item.tick (check item.policy.type) posix).2)
        (watched.map fun w => (w.tick (check w.type)).2) := by
  induction h with
  | nil => exact ⟨rfl, List.Forall₂.nil⟩
  | @cons item w items watched hitem hitems ih =>
    obtain ⟨hout, hfollows⟩ := hitem.tick (check w.type) posix
    rw [← hitem.type] at hout hfollows
    rw [List.map_cons, List.map_cons, List.map_cons, List.map_cons, ih.1, ← hitem.type, hout]
    exact ⟨rfl, List.Forall₂.cons hfollows ih.2⟩

theorem forall₂_update {items : List HealthItem} {watched : List Watched} {type : Int}
    {f : HealthItem → HealthItem} {g : Watched → Watched}
    (h : List.Forall₂ Follows items watched)
    (hfg : ∀ item ∈ items, ∀ w, item.policy.type = type → Follows item w →
      Follows (f item) (g w)) :
    List.Forall₂ Follows (items.map fun item => if item.policy.type = type then f item else item)
      (watched.map fun w => if w.type = type then g w else w) := by
  induction h with
  | nil => exact List.Forall₂.nil
  | @cons item w items watched hitem hitems ih =>
    refine List.Forall₂.cons ?_ (ih fun item' hmem => hfg item' (List.mem_cons_of_mem item hmem))
    dsimp only
    rw [← hitem.type]
    split_ifs with htype
    · exact hfg item List.mem_cons_self w htype hitem
    · exact hitem

theorem forall₂_eraseP {items : List HealthItem} {watched : List Watched} (type : Int)
    (h : List.Forall₂ Follows items watched) :
    List.Forall₂ Follows (items.eraseP fun item => item.policy.type = type)
      (watched.eraseP fun w => w.type = type) := by
  induction h with
  | nil => exact List.Forall₂.nil
  | @cons item w items watched hitem hitems ih =>
    rw [List.eraseP_cons, List.eraseP_cons, hitem.type]
    cases decide (w.type = type) with
    | false => exact List.Forall₂.cons hitem ih
    | true => exact hitems

theorem follows_added (type : Int) {threshold period : UInt32} (checkCb notifyCb : Bool)
    (hperiod : period.toNat < 2 ^ 31) :
    Follows ⟨⟨type, threshold, period, checkCb, notifyCb⟩, 0, 0, intOfPeriod period⟩
      ⟨type, threshold.toNat, period.toNat, checkCb, notifyCb, 0, [], 0⟩ where
  type := rfl
  threshold := rfl
  period := rfl
  below := hperiod
  query := rfl
  notify := rfl
  timeLeft := by
    rw [intOfPeriod_eq hperiod]
    simp
  ticks := interval_pos _
  cnt _ := by cases checkCb <;> rfl
  room _ _ := by
    have hzero : (0 : UInt32).toNat + 1 < 2 ^ 32 := by decide
    exact hzero

/-- **A call.** The monitor shows what the policy says, and its items still follow the policy. -/
theorem AllFollow.step (h : AllFollow mgr board) (call : HealthCall) (hperiod : PeriodBelow call)
    (hcond : AlertCond mgr call) :
    (healthStep mgr call).1 = (policyStep board call).1 ∧
      AllFollow (healthStep mgr call).2 (policyStep board call).2 := by
  cases call with
  | foreachItem check posix =>
    obtain ⟨hout, hitems⟩ := forall₂_tick h.items check posix
    rw [healthStep, policyStep, healthForeachItem]
    simp only [List.map_map]
    exact ⟨congrArg HealthOutput.ticked hout, h.next, hitems⟩
  | alert type =>
    refine ⟨rfl, h.next, forall₂_update h.items fun item hmem w htype hitem => ?_⟩
    refine ⟨hitem.type, hitem.threshold, hitem.period, hitem.below, hitem.query, hitem.notify,
      hitem.timeLeft, hitem.ticks, fun hnotify => ?_, fun hnotify hquery => ?_⟩
    · obtain ⟨hevent, hroom⟩ := hcond item hmem htype (hitem.notify.trans hnotify)
      have hcnt := hitem.cnt hnotify
      have hone : (1 : UInt32).toNat = 1 := rfl
      rw [← hitem.query, hevent] at hcnt
      dsimp only
      rw [← hitem.query, hevent, UInt32.toNat_add, hone, Nat.mod_eq_of_lt hroom, hcnt]
      rfl
    · obtain ⟨hevent, -⟩ := hcond item hmem htype (hitem.notify.trans hnotify)
      exact absurd (hevent.symm.trans (hitem.query.trans hquery)) Bool.false_ne_true
  | itemAdd threshold period checkCb notifyCb malloc =>
    rw [healthStep, policyStep, tuyaHealthItemAdd, h.next]
    split_ifs
    · exact ⟨rfl, h⟩
    · exact ⟨rfl, h⟩
    · exact ⟨rfl, rfl, List.Forall₂.cons (follows_added _ checkCb notifyCb hperiod) h.items⟩
  | itemDel type => exact ⟨rfl, h.next, forall₂_eraseP type h.items⟩
  | updateItemPeriod type period =>
    refine ⟨rfl, h.next, forall₂_update h.items fun item hmem w htype hitem => ?_⟩
    refine ⟨hitem.type, hitem.threshold, rfl, hperiod, hitem.query, hitem.notify, ?_,
      interval_pos _, hitem.cnt, hitem.room⟩
    dsimp only
    rw [intOfPeriod_eq hperiod]
    omega
  | updateItemThreshold type threshold =>
    refine ⟨rfl, h.next, forall₂_update h.items fun item hmem w htype hitem => ?_⟩
    exact ⟨hitem.type, rfl, hitem.period, hitem.below, hitem.query, hitem.notify,
      hitem.timeLeft, hitem.ticks, hitem.cnt, hitem.room⟩

/-- **The health monitor.** Along every run with periods below `2 ^ 31` in which the alerts meet the
condition, the monitor evaluates its items and schedules their callbacks as the policy says. -/
theorem outputs_healthStep_eq (calls : List HealthCall)
    (hperiods : ∀ call ∈ calls, PeriodBelow call)
    (halerts : Guarded (fun mgr call => (healthStep mgr call).2) AlertCond healthMgrInit calls) :
    (outputs healthStep healthMgrInit calls).1 = (outputs policyStep ⟨0, []⟩ calls).1 := by
  refine outputs_eq_of_guarded (R := AllFollow) (fun mgr board call h hcond => ?_)
    ⟨rfl, List.Forall₂.nil⟩ (halerts.and_of_forall_mem hperiods)
  exact h.step call hcond.1 hcond.2

def twoChecks : List HealthCall :=
  [.itemAdd 2 5 true true true, .foreachItem (fun _ => true) 0, .foreachItem (fun _ => true) 0]

theorem outputs_healthStep_eq_twoChecks :
    (outputs healthStep healthMgrInit twoChecks).1 =
      (outputs policyStep ⟨0, []⟩ twoChecks).1 := by
  refine outputs_healthStep_eq twoChecks (fun call hcall => ?_) ⟨trivial, trivial, trivial, trivial⟩
  simp only [twoChecks, List.mem_cons, List.not_mem_nil, or_false] at hcall
  obtain rfl | rfl | rfl := hcall
  · exact (by decide : (5 : UInt32).toNat < 2 ^ 31)
  · trivial
  · trivial

/-- An alert counts as a positive check: the callback is scheduled after one check. -/
theorem outputs_healthStep_ne_alert :
    (outputs healthStep healthMgrInit
        [.itemAdd 2 5 true true true, .alert 0, .foreachItem (fun _ => true) 0]).1 ≠
      (outputs policyStep ⟨0, []⟩
        [.itemAdd 2 5 true true true, .alert 0, .foreachItem (fun _ => true) 0]).1 := by
  decide +kernel

end Runs

end TuyaOpen.Health
