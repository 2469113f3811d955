import TuyaOpen.System.SwTimer
import TuyaOpen.System.WorkQueue

/-!
# Deleting a timer and cancelling a delayed work

The timer thread chooses a timer under the mutex of the timers and uses it after it has released the
mutex. The timer of a delayed work puts an item in a work queue, and a work thread takes the item and
invokes it in two steps. In the meantime other threads delete timers and cancel delayed works.

A timer and a delayed work are named by a number that is never used again, whatever the address of
the record. A delayed work and its timer have the same number. What a thread does with a record
after the call that releases it has returned is *late*.

## Main results

* `Threads.Safe.threadStep`: the invariant.
* `late_eq_nil_of_run`: nothing is late in a run whose steps meet the condition.
* `exists_late_of_not_returnCond`: a step that does not meet it leads to something late.
-/

namespace TuyaOpen.System

open TuyaOpen.Utilities

variable {τ κ β δ : Type}

/-! ### The state -/

/-- The callback of a timer: one of a user, or `__delayed_work_cb`. -/
inductive TimerFunc (κ : Type)
  | user (cb : κ)
  | delayedWorkCb

/-- `DELAYED_WORK_T`. -/
structure DelayedWork (β δ : Type) where
  cb : Option β
  data : Option δ
  handle : Nat

/-- An item of a work queue, with the delayed work that it comes from. -/
structure TracedItem (β δ : Type) where
  item : WorkItem β δ
  work : Option Nat

inductive TimerThread (κ β δ : Type)
  /-- At the beginning of a pass. -/
  | loop
  /-- It has released the mutex, and is about to read `timer_id` and `data` of the timer and to
  invoke the callback. -/
  | selected (id : Nat) (func : TimerFunc κ) (arg : Option Nat)
  /-- In `__delayed_work_cb`, about to read the record. -/
  | callback (w : Nat)
  /-- In `tal_workqueue_schedule`, about to put the item in the queue. -/
  | put (w : Nat) (work : DelayedWork β δ)

/-- Where a call of `tal_workqueue_cancel_delayed` is. -/
inductive CancelStage
  /-- The timer is in no list. -/
  | unlinked
  /-- `tal_sw_timer_delete` has returned. -/
  | freed
  /-- `tal_workqueue_cancel` has returned. -/
  | traversed
  deriving DecidableEq

inductive Call
  /-- `tal_sw_timer_delete`, when the timer is in no list. -/
  | delete (id : Nat)
  | cancel (w : Nat) (stage : CancelStage)
  deriving DecidableEq

inductive Late
  /-- Fields of a timer are read and its callback is invoked. -/
  | timer (id : Nat)
  /-- Fields of a delayed work are read. -/
  | work (w : Nat)
  /-- An item of a delayed work is put in the queue. -/
  | schedule (w : Nat)
  /-- An item of a delayed work is invoked. -/
  | invoke (w : Nat)
  deriving DecidableEq

structure Threads (τ κ β δ : Type) where
  timers : TimerMgr (TimerFunc κ) Nat
  now : SystemTime
  works : Nat → Option (DelayedWork β δ)
  queues : Nat → TuyaQueue (TracedItem β δ)
  /-- The item that the work thread of a queue has taken and not yet invoked. -/
  hands : Nat → Option (TracedItem β δ)
  timerThread : TimerThread κ β δ
  calls : τ → Option Call
  /-- The number of the next record. -/
  fresh : Nat
  /-- The timers whose delete has returned. -/
  deleted : List Nat
  /-- The delayed works whose cancel has returned. -/
  cancelled : List Nat
  late : List Late

def threadsInit (now : SystemTime) (queueLen : Nat → Nat) : Threads τ κ β δ where
  timers := talSwTimerInit
  now := now
  works := fun _ => none
  queues := fun h => ⟨queueLen h, queueLen h, [], TuyaQueue.count_nil (queueLen h)⟩
  hands := fun _ => none
  timerThread := .loop
  calls := fun _ => none
  fresh := 0
  deleted := []
  cancelled := []
  late := []

/-! ### The steps -/

namespace Threads

/-- What is late, when the record `n` is used and those of `released` must not be. -/
def note (s : Threads τ κ β δ) (released : List Nat) (n : Nat) (what : Late) : List Late :=
  if n ∈ released then s.late ++ [what] else s.late

/-- `tal_sw_timer_create`. -/
def createTimer (s : Threads τ κ β δ) (cb : κ) (arg : Option Nat) : Threads τ κ β δ :=
  { s with
    timers := (talSwTimerCreate s.timers (some (.user cb)) arg (some s.fresh)).2
    fresh := s.fresh + 1 }

/-- `tal_workqueue_init_delayed`. -/
def initDelayed (s : Threads τ κ β δ) (work : DelayedWork β δ) : Threads τ κ β δ :=
  { s with
    timers := (talSwTimerCreate s.timers (some .delayedWorkCb) (some s.fresh) (some s.fresh)).2
    works := Function.update s.works s.fresh (some work)
    fresh := s.fresh + 1 }

/-- `tuya_queue_input` of `tal_workqueue_schedule`. -/
def schedule (s : Threads τ κ β δ) (h : Nat) (item : TracedItem β δ) (malloc : Bool) :
    Threads τ κ β δ :=
  if item.item.cb.isSome then
    { s with
      queues := Function.update s.queues h (tuyaQueueInput (s.queues h) item malloc).2 }
  else s

/-- The next step of the timer thread: a pass of its loop until it releases the mutex, the
invocation of the callback, or a step of `__delayed_work_cb`. -/
def timerNext (s : Threads τ κ β δ) (malloc : Bool) : Threads τ κ β δ :=
  match s.timerThread with
  | .loop =>
    let r := timerPass s.timers s.now.nowMs
    match r.1 with
    | .selected id =>
      match s.timers.timer id with
      | some t =>
        { s with
          timers := r.2
          timerThread := .selected id t.cb t.data
          late := s.note s.deleted id (.timer id) }
      | none => { s with timers := r.2 }
    | _ => { s with timers := r.2 }
  | .selected id func arg =>
    let s := { s with late := s.note s.deleted id (.timer id) }
    match func, arg with
    | .delayedWorkCb, some w => { s with timerThread := .callback w }
    | _, _ => { s with timerThread := .loop }
  | .callback w =>
    let s := { s with late := s.note s.cancelled w (.work w) }
    match s.works w with
    | some work => { s with timerThread := .put w work }
    | none => { s with timerThread := .loop }
  | .put w work =>
    let s := { s with late := s.note s.cancelled w (.schedule w), timerThread := .loop }
    s.schedule work.handle ⟨⟨work.cb, work.data⟩, some w⟩ malloc

/-- The next step of the work thread of a queue: it takes an item, or invokes the one that it has
taken. -/
def workNext (s : Threads τ κ β δ) (h : Nat) : Threads τ κ β δ :=
  match s.hands h with
  | none =>
    let r := tuyaQueueOutput (s.queues h)
    { s with
      queues := Function.update s.queues h r.2.2
      hands := Function.update s.hands h r.2.1 }
  | some item =>
    let s := { s with hands := Function.update s.hands h none }
    match item.item.cb, item.work with
    | some _, some w => { s with late := s.note s.cancelled w (.invoke w) }
    | _, _ => s

section Calls

variable [DecidableEq τ]

/-- `tal_sw_timer_delete` of a timer that a user has created, until the mutex is released. -/
def deleteBegin (s : Threads τ κ β δ) (t : τ) (id : Nat) : Threads τ κ β δ :=
  match s.calls t, s.timers.identity id with
  | none, some (.user _, _) =>
    { s with
      timers := talSwTimerDelete s.timers id
      calls := Function.update s.calls t (some (.delete id)) }
  | _, _ => s

/-- `tal_workqueue_cancel_delayed`, until the timer is in no list. -/
def cancelBegin (s : Threads τ κ β δ) (t : τ) (w : Nat) : Threads τ κ β δ :=
  match s.calls t, s.timers.identity w with
  | none, some (.delayedWorkCb, _) =>
    { s with
      timers := talSwTimerDelete s.timers w
      calls := Function.update s.calls t (some (.cancel w .unlinked)) }
  | _, _ => s

variable [DecidableEq β] [DecidableEq δ]

/-- `__work_cancel_traverse`. -/
def cancelTraverse (dst : DelayedWork β δ) (src : TracedItem β δ) : TracedItem β δ :=
  if (dst.cb.isSome ∧ dst.cb = src.item.cb) ∨ (dst.data.isSome ∧ dst.data = src.item.data) then
    { src with item := { src.item with cb := none } }
  else src

/-- `tal_workqueue_cancel` for a delayed work. -/
def cancelQueue (s : Threads τ κ β δ) (w : Nat) : Nat → TuyaQueue (TracedItem β δ) :=
  match s.works w with
  | none => s.queues
  | some work =>
    if work.cb = none ∧ work.data = none then s.queues
    else
      Function.update s.queues work.handle
        (tuyaQueueTraverse (s.queues work.handle) (cancelTraverse work))

def proceed (s : Threads τ κ β δ) (t : τ) : Threads τ κ β δ :=
  match s.calls t with
  | none => s
  | some (.delete id) =>
    { s with deleted := id :: s.deleted, calls := Function.update s.calls t none }
  | some (.cancel w .unlinked) =>
    { s with
      deleted := w :: s.deleted
      calls := Function.update s.calls t (some (.cancel w .freed)) }
  | some (.cancel w .freed) =>
    { s with
      queues := s.cancelQueue w
      calls := Function.update s.calls t (some (.cancel w .traversed)) }
  | some (.cancel w .traversed) =>
    { s with
      works := Function.update s.works w none
      cancelled := w :: s.cancelled
      calls := Function.update s.calls t none }

end Calls

end Threads

inductive ThreadEvent (τ κ β δ : Type)
  | createTimer (cb : κ) (arg : Option Nat)
  | initDelayed (work : DelayedWork β δ)
  | clock (now : SystemTime)
  | start (id : Nat) (timeMs : UInt32) (timerType : TimerType)
  | stop (id : Nat)
  | trigger (id : Nat)
  /-- `tal_workqueue_schedule` of another thread. -/
  | schedule (h : Nat) (item : WorkItem β δ) (malloc : Bool)
  | timerNext (malloc : Bool)
  | workNext (h : Nat)
  | deleteBegin (t : τ) (id : Nat)
  | cancelBegin (t : τ) (w : Nat)
  | proceed (t : τ)

variable [DecidableEq τ] [DecidableEq β] [DecidableEq δ]

def threadStep (s : Threads τ κ β δ) : ThreadEvent τ κ β δ → Threads τ κ β δ
  | .createTimer cb arg => s.createTimer cb arg
  | .initDelayed work => s.initDelayed work
  | .clock now => if s.now.nowMs ≤ now.nowMs then { s with now := now } else s
  | .start id timeMs timerType =>
    { s with timers := talSwTimerStart s.timers id s.now timeMs timerType }
  | .stop id => { s with timers := talSwTimerStop s.timers id }
  | .trigger id => { s with timers := talSwTimerTrigger s.timers id }
  | .schedule h item malloc => s.schedule h ⟨item, none⟩ malloc
  | .timerNext malloc => s.timerNext malloc
  | .workNext h => s.workNext h
  | .deleteBegin t id => s.deleteBegin t id
  | .cancelBegin t w => s.cancelBegin t w
  | .proceed t => s.proceed t

/-! ### The condition -/

/-- The timer thread is in `__delayed_work_cb` for the delayed work. -/
def TimerThread.Touches (w : Nat) : TimerThread κ β δ → Prop
  | .callback x => x = w
  | .put x _ => x = w
  | _ => False

/-- The condition on the steps of a call that releases a record: when `tal_sw_timer_delete` returns,
the timer thread has not selected the timer without having invoked its callback; when
`tal_workqueue_cancel` goes through the queue, the timer thread is not in `__delayed_work_cb` for
the delayed work; and when `tal_workqueue_cancel_delayed` returns, no work thread has taken an item
of the delayed work without having invoked it. -/
def ReturnCond (s : Threads τ κ β δ) : ThreadEvent τ κ β δ → Prop
  | .proceed t =>
    match s.calls t with
    | none => True
    | some (.delete id) => ∀ func arg, s.timerThread ≠ .selected id func arg
    | some (.cancel w .unlinked) => ∀ func arg, s.timerThread ≠ .selected w func arg
    | some (.cancel w .freed) => ¬s.timerThread.Touches w
    | some (.cancel w .traversed) =>
      ∀ h item, s.hands h = some item → item.work = some w → item.item.cb = none
  | _ => True

/-! ### The invariant -/

def Call.record : Call → Nat
  | .delete id => id
  | .cancel w _ => w

def Call.Freed : Call → Prop
  | .delete _ => False
  | .cancel _ stage => stage ≠ .unlinked

namespace Threads

omit [DecidableEq τ] [DecidableEq β] [DecidableEq δ]

def Open (s : Threads τ κ β δ) (w : Nat) : Prop :=
  w ∉ s.cancelled ∧ ∀ t, s.calls t ≠ some (.cancel w .traversed)

structure Safe (s : Threads τ κ β δ) : Prop where
  ordered : s.timers.Ordered s.now.nowMs
  fresh : ∀ id, s.fresh ≤ id →
    s.timers.identity id = none ∧ s.works id = none ∧ id ∉ s.deleted
  delayed : ∀ id arg, s.timers.identity id = some (.delayedWorkCb, arg) → arg = some id
  deleted : ∀ id ∈ s.deleted, s.timers.identity id = none
  cancelled : ∀ w ∈ s.cancelled, w ∈ s.deleted
  calls : ∀ t call, s.calls t = some call →
    call.record < s.fresh ∧ s.timers.identity call.record = none ∧
      (call.Freed → call.record ∈ s.deleted)
  selected : ∀ id func arg, s.timerThread = .selected id func arg →
    id ∉ s.deleted ∧ (func = .delayedWorkCb → arg = some id)
  touches : ∀ w, s.timerThread.Touches w → s.Open w
  put : ∀ w work, s.timerThread = .put w work → s.works w = some work
  queue : ∀ h item w, item ∈ (s.queues h).items → item.work = some w → item.item.cb ≠ none →
    s.Open w ∧ ∃ work, s.works w = some work ∧ work.handle = h ∧ item.item.cb = work.cb
  hand : ∀ h item w, s.hands h = some item → item.work = some w → item.item.cb ≠ none →
    w ∉ s.cancelled
  late : s.late = []

theorem note_of_not_mem {s : Threads τ κ β δ} (hs : s.late = []) {released : List Nat} {n : Nat}
    (h : n ∉ released) (what : Late) : s.note released n what = [] := by
  rw [note, if_neg h, hs]

section Calls

variable {s : Threads τ κ β δ}

theorem Safe.setTimers (h : s.Safe) {m : TimerMgr (TimerFunc κ) Nat}
    (hordered : m.Ordered s.now.nowMs) (hidentity : m.identity = s.timers.identity) :
    Safe { s with timers := m } where
  ordered := hordered
  fresh := by
    rw [hidentity]
    exact h.fresh
  delayed := by
    rw [hidentity]
    exact h.delayed
  deleted := by
    rw [hidentity]
    exact h.deleted
  cancelled := h.cancelled
  calls := by
    rw [hidentity]
    exact h.calls
  selected := h.selected
  touches := h.touches
  put := h.put
  queue := h.queue
  hand := h.hand
  late := h.late

theorem Safe.clock (h : s.Safe) {now : SystemTime} (hle : s.now.nowMs ≤ now.nowMs) :
    Safe { s with now := now } :=
  { h with ordered := h.ordered.mono hle }

theorem Safe.create (h : s.Safe) {func : TimerFunc κ} {arg : Option Nat}
    (hfunc : func = .delayedWorkCb → arg = some s.fresh)
    {works : Nat → Option (DelayedWork β δ)} (hworks : ∀ w, w ≠ s.fresh → works w = s.works w) :
    Safe { s with
      timers := (talSwTimerCreate s.timers (some func) arg (some s.fresh)).2
      works := works
      fresh := s.fresh + 1 } := by
  obtain ⟨hnone, hnowork, hnot⟩ := h.fresh s.fresh le_rfl
  have hidentity := TimerMgr.identity_talSwTimerCreate (TimerMgr.identity_eq_none.1 hnone) func arg
  have hwork : ∀ w work, s.works w = some work → works w = some work := by
    intro w work hw
    rw [hworks w, hw]
    rintro rfl
    rw [hnowork] at hw
    cases hw
  refine ⟨h.ordered.talSwTimerCreate _ _ _, ?_, ?_, ?_, h.cancelled, ?_, h.selected, h.touches,
    fun w work hput => hwork w work (h.put w work hput), ?_, h.hand, h.late⟩
  · intro id hid
    have hlt : s.fresh < id := hid
    obtain ⟨hid₁, hid₂, hid₃⟩ := h.fresh id hlt.le
    dsimp only
    rw [hidentity, Function.update_of_ne hlt.ne', hworks id hlt.ne']
    exact ⟨hid₁, hid₂, hid₃⟩
  · intro id arg' hid
    dsimp only at hid
    rw [hidentity] at hid
    by_cases hfresh : id = s.fresh
    · rw [hfresh, Function.update_self] at hid
      obtain ⟨rfl, rfl⟩ := Prod.mk.inj (Option.some.inj hid)
      rw [hfresh]
      exact hfunc rfl
    · rw [Function.update_of_ne hfresh] at hid
      exact h.delayed id arg' hid
  · intro id hid
    have hne : id ≠ s.fresh := fun heq => hnot (heq ▸ hid)
    dsimp only
    rw [hidentity, Function.update_of_ne hne]
    exact h.deleted id hid
  · intro t call hcall
    obtain ⟨hlt, hrecord, hfreed⟩ := h.calls t call hcall
    dsimp only
    rw [hidentity, Function.update_of_ne hlt.ne]
    exact ⟨hlt.trans (Nat.lt_succ_self _), hrecord, hfreed⟩
  · intro q item w hitem hw hcb
    obtain ⟨hopen, work, hwork', hhandle, hitemcb⟩ := h.queue q item w hitem hw hcb
    exact ⟨hopen, work, hwork w work hwork', hhandle, hitemcb⟩

theorem Safe.schedule (h : s.Safe) {q : Nat} {item : TracedItem β δ}
    (hitem : ∀ w, item.work = some w →
      s.Open w ∧ ∃ work, s.works w = some work ∧ work.handle = q ∧ item.item.cb = work.cb)
    (malloc : Bool) : (s.schedule q item malloc).Safe := by
  rw [Threads.schedule]
  split_ifs with hcb
  · refine { h with queue := ?_ }
    intro q' item' w hmem hw hcb'
    dsimp only at hmem
    by_cases hq : q' = q
    · rw [hq, Function.update_self] at hmem
      rw [hq]
      have hold : item' ∈ (s.queues q).items ∨ item' = item := by
        rcases enqueue_cases (s.queues q) item .sendToBack malloc with
          ⟨-, -, hitems, -⟩ | ⟨-, hsame⟩
        · rw [tuyaQueueInput, hitems] at hmem
          exact (List.mem_append.1 hmem).imp_right List.mem_singleton.1
        · rw [tuyaQueueInput, hsame] at hmem
          exact Or.inl hmem
      rcases hold with hold | rfl
      · exact h.queue q item' w hold hw hcb'
      · exact hitem w hw
    · rw [Function.update_of_ne hq] at hmem
      exact h.queue q' item' w hmem hw hcb'
  · exact h

theorem Safe.setTimerThread (h : s.Safe) {thread : TimerThread κ β δ} {late : List Late}
    (hlate : late = [])
    (hselected : ∀ id func arg, thread = .selected id func arg →
      id ∉ s.deleted ∧ (func = .delayedWorkCb → arg = some id))
    (htouches : ∀ w, thread.Touches w → s.Open w)
    (hput : ∀ w work, thread = .put w work → s.works w = some work) :
    Safe { s with timerThread := thread, late := late } :=
  { h with selected := hselected, touches := htouches, put := hput, late := hlate }

theorem Safe.loop (h : s.Safe) {late : List Late} (hlate : late = []) :
    Safe { s with timerThread := .loop, late := late } :=
  h.setTimerThread hlate (fun _ _ _ heq => by cases heq) (fun _ hw => hw.elim)
    (fun _ _ heq => by cases heq)

theorem Safe.open_of_not_deleted (h : s.Safe) {w : Nat} (hw : w ∉ s.deleted) : s.Open w := by
  refine ⟨fun hcancelled => hw (h.cancelled w hcancelled), fun t hcall => hw ?_⟩
  exact (h.calls t _ hcall).2.2 fun heq => by cases heq

theorem Safe.timerPass (h : s.Safe) {id : Nat} {t : SwTimer (TimerFunc κ) Nat}
    (ht : s.timers.timer id = some t) :
    Safe { s with
      timers := (System.timerPass s.timers s.now.nowMs).2
      timerThread := .selected id t.cb t.data
      late := s.note s.deleted id (.timer id) } := by
  have hidentity := TimerMgr.identity_of_eq ht
  have hnot : id ∉ s.deleted := by
    intro hmem
    rw [h.deleted id hmem] at hidentity
    cases hidentity
  have htimers := h.setTimers (h.ordered.timerPass le_rfl)
    (TimerMgr.identity_timerPass s.timers s.now.nowMs)
  refine htimers.setTimerThread (note_of_not_mem h.late hnot _) ?_ (fun _ hw => hw.elim)
    (fun _ _ heq => by cases heq)
  rintro x func arg heq
  cases heq
  refine ⟨hnot, fun hfunc => h.delayed id t.data ?_⟩
  rw [hidentity, hfunc]

theorem Safe.timerNext (h : s.Safe) (malloc : Bool) : (s.timerNext malloc).Safe := by
  rw [Threads.timerNext]
  have htimers := h.setTimers (h.ordered.timerPass le_rfl)
    (TimerMgr.identity_timerPass s.timers s.now.nowMs)
  cases hthread : s.timerThread with
  | loop =>
    dsimp only
    cases (System.timerPass s.timers s.now.nowMs).1 with
    | empty => rwa [hthread] at htimers
    | later nextExpired => rwa [hthread] at htimers
    | selected id =>
      dsimp only
      cases ht : s.timers.timer id with
      | none => rwa [hthread] at htimers
      | some t => exact h.timerPass ht
  | selected id func arg =>
    obtain ⟨hnot, hfunc⟩ := h.selected id func arg hthread
    have hlate := note_of_not_mem h.late hnot (.timer id)
    cases func with
    | user cb =>
      cases arg with
      | none => exact h.loop hlate
      | some w => exact h.loop hlate
    | delayedWorkCb =>
      obtain rfl := hfunc rfl
      refine h.setTimerThread hlate (fun _ _ _ heq => by cases heq) ?_
        (fun _ _ heq => by cases heq)
      rintro w rfl
      exact h.open_of_not_deleted hnot
  | callback w =>
    have hopen := h.touches w (by rw [hthread]; rfl)
    have hlate := note_of_not_mem h.late hopen.1 (.work w)
    dsimp only
    cases hwork : s.works w with
    | none => exact h.loop hlate
    | some work =>
      refine h.setTimerThread hlate (fun _ _ _ heq => by cases heq) ?_ ?_
      · rintro x rfl
        exact hopen
      · intro x work' heq
        cases heq
        exact hwork
  | put w work =>
    have hopen := h.touches w (by rw [hthread]; rfl)
    have hlate := note_of_not_mem h.late hopen.1 (.schedule w)
    refine (h.loop hlate).schedule ?_ malloc
    rintro x ⟨⟩
    exact ⟨hopen, work, h.put w work hthread, rfl, rfl⟩

theorem Safe.workNext (h : s.Safe) (q : Nat) : (s.workNext q).Safe := by
  rw [Threads.workNext]
  cases hhand : s.hands q with
  | none =>
    refine { h with queue := ?_, hand := ?_ }
    · intro q' item w hmem hw hcb
      dsimp only at hmem
      by_cases hq : q' = q
      · rw [hq, Function.update_self] at hmem
        rw [hq]
        exact h.queue q item w (mem_of_mem_tuyaQueueOutput hmem) hw hcb
      · rw [Function.update_of_ne hq] at hmem
        exact h.queue q' item w hmem hw hcb
    · intro q' item w hitem hw hcb
      dsimp only at hitem
      by_cases hq : q' = q
      · rw [hq, Function.update_self] at hitem
        exact (h.queue q item w (mem_of_tuyaQueueOutput_eq hitem) hw hcb).1.1
      · rw [Function.update_of_ne hq] at hitem
        exact h.hand q' item w hitem hw hcb
  | some item =>
    have hempty : Safe { s with hands := Function.update s.hands q none } := by
      refine { h with hand := ?_ }
      intro q' item' w hitem hw hcb
      dsimp only at hitem
      by_cases hq : q' = q
      · rw [hq, Function.update_self] at hitem
        cases hitem
      · rw [Function.update_of_ne hq] at hitem
        exact h.hand q' item' w hitem hw hcb
    dsimp only
    cases hcb : item.item.cb with
    | none => exact hempty
    | some cb =>
      cases hwork : item.work with
      | none => exact hempty
      | some w =>
        have hnot := h.hand q item w hhand hwork (by rw [hcb]; exact Option.some_ne_none cb)
        exact { hempty with late := note_of_not_mem (s := { s with
          hands := Function.update s.hands q none }) h.late hnot _ }

end Calls

section Release

variable [DecidableEq τ] {s : Threads τ κ β δ}

theorem Safe.beginCall (h : s.Safe) {t : τ} (call : Call) (hfreed : ¬call.Freed)
    (hidentity : s.timers.identity call.record ≠ none) :
    Safe { s with
      timers := talSwTimerDelete s.timers call.record
      calls := Function.update s.calls t (some call) } := by
  have hupdate := TimerMgr.identity_talSwTimerDelete s.timers call.record
  have hnone : ∀ id, s.timers.identity id = none →
      (talSwTimerDelete s.timers call.record).identity id = none := by
    intro id hid
    rw [hupdate]
    by_cases heq : id = call.record
    · rw [heq, Function.update_self]
    · rw [Function.update_of_ne heq]
      exact hid
  have hopen : ∀ w, s.Open w → Open { s with
      timers := talSwTimerDelete s.timers call.record
      calls := Function.update s.calls t (some call) } w := by
    refine fun w hw => ⟨hw.1, fun t' hcall => ?_⟩
    dsimp only at hcall
    by_cases ht : t' = t
    · rw [ht, Function.update_self] at hcall
      cases hcall
      exact hfreed fun heq => by cases heq
    · rw [Function.update_of_ne ht] at hcall
      exact hw.2 t' hcall
  refine ⟨h.ordered.talSwTimerDelete _, ?_, ?_, fun id hid => hnone id (h.deleted id hid),
    h.cancelled, ?_, h.selected, fun w hw => hopen w (h.touches w hw), h.put, ?_, h.hand, h.late⟩
  · intro id hid
    obtain ⟨hid₁, hid₂⟩ := h.fresh id hid
    exact ⟨hnone id hid₁, hid₂⟩
  · intro id arg hid
    dsimp only at hid
    rw [hupdate] at hid
    by_cases heq : id = call.record
    · rw [heq, Function.update_self] at hid
      cases hid
    · rw [Function.update_of_ne heq] at hid
      exact h.delayed id arg hid
  · intro t' call' hcall
    dsimp only at hcall
    by_cases ht : t' = t
    · rw [ht, Function.update_self] at hcall
      cases hcall
      refine ⟨?_, ?_, fun hf => (hfreed hf).elim⟩
      · by_contra hge
        exact hidentity (h.fresh _ (Nat.not_lt.1 hge)).1
      · dsimp only
        rw [hupdate, Function.update_self]
    · rw [Function.update_of_ne ht] at hcall
      obtain ⟨hlt, hid, hf⟩ := h.calls t' call' hcall
      exact ⟨hlt, hnone _ hid, hf⟩
  · intro q item w hmem hw hcb
    obtain ⟨hw', hrest⟩ := h.queue q item w hmem hw hcb
    exact ⟨hopen w hw', hrest⟩

theorem Safe.deleteBegin (h : s.Safe) (t : τ) (id : Nat) : (s.deleteBegin t id).Safe := by
  rw [Threads.deleteBegin]
  split
  · next hcall hid =>
    refine h.beginCall (.delete id) not_false ?_
    rw [Call.record, hid]
    exact Option.some_ne_none _
  · exact h

theorem Safe.cancelBegin (h : s.Safe) (t : τ) (w : Nat) : (s.cancelBegin t w).Safe := by
  rw [Threads.cancelBegin]
  split
  · next hcall hid =>
    refine h.beginCall (.cancel w .unlinked) (fun hne => hne rfl) ?_
    rw [Call.record, hid]
    exact Option.some_ne_none _
  · exact h

theorem forall_calls_update {P : Call → Prop} {t : τ} {next : Option Call}
    (h : ∀ t' call, s.calls t' = some call → P call) (hnext : ∀ call, next = some call → P call) :
    ∀ t' call, Function.update s.calls t next t' = some call → P call := by
  intro t' call hcall
  by_cases ht : t' = t
  · rw [ht, Function.update_self] at hcall
    exact hnext call hcall
  · rw [Function.update_of_ne ht] at hcall
    exact h t' call hcall

theorem Safe.release (h : s.Safe) {t : τ} {call : Call} (hcall : s.calls t = some call)
    (hthread : ∀ func arg, s.timerThread ≠ .selected call.record func arg) {next : Option Call}
    (hnext : ∀ call', next = some call' →
      call'.record = call.record ∧ ∀ w, call' ≠ .cancel w .traversed) :
    Safe { s with
      deleted := call.record :: s.deleted
      calls := Function.update s.calls t next } := by
  obtain ⟨hlt, hidentity, -⟩ := h.calls t call hcall
  have hopen : ∀ w, s.Open w → Open { s with
      deleted := call.record :: s.deleted
      calls := Function.update s.calls t next } w := fun w hw =>
    ⟨hw.1, fun t' hcall' =>
      forall_calls_update (P := (· ≠ .cancel w .traversed)) (fun t' call' hc he => hw.2 t' (he ▸ hc))
        (fun call' hn => (hnext call' hn).2 w) t' _ hcall' rfl⟩
  refine { h with
    fresh := ?_, deleted := ?_, cancelled := ?_, calls := ?_, selected := ?_, touches := ?_,
    queue := ?_ }
  · intro id hid
    obtain ⟨hid₁, hid₂, hid₃⟩ := h.fresh id hid
    refine ⟨hid₁, hid₂, fun hmem => ?_⟩
    rcases List.mem_cons.1 hmem with rfl | hmem
    · exact absurd hid (Nat.not_le.2 hlt)
    · exact hid₃ hmem
  · intro id hmem
    rcases List.mem_cons.1 hmem with rfl | hmem
    · exact hidentity
    · exact h.deleted id hmem
  · exact fun w hw => List.mem_cons_of_mem _ (h.cancelled w hw)
  · refine forall_calls_update (P := fun call' => call'.record < s.fresh ∧
      s.timers.identity call'.record = none ∧
        (call'.Freed → call'.record ∈ call.record :: s.deleted)) ?_ ?_
    · intro t' call' hcall'
      obtain ⟨hlt', hid, hfreed⟩ := h.calls t' call' hcall'
      exact ⟨hlt', hid, fun hf => List.mem_cons_of_mem _ (hfreed hf)⟩
    · intro call' hn
      rw [(hnext call' hn).1]
      exact ⟨hlt, hidentity, fun _ => List.mem_cons_self⟩
  · intro id func arg heq
    obtain ⟨hnot, hfunc⟩ := h.selected id func arg heq
    refine ⟨fun hmem => ?_, hfunc⟩
    rcases List.mem_cons.1 hmem with rfl | hmem
    · exact hthread func arg heq
    · exact hnot hmem
  · exact fun w hw => hopen w (h.touches w hw)
  · intro q item w hmem hw hcb
    obtain ⟨hw', hrest⟩ := h.queue q item w hmem hw hcb
    exact ⟨hopen w hw', hrest⟩

theorem Safe.releaseWork (h : s.Safe) {t : τ} {w : Nat}
    (hcall : s.calls t = some (.cancel w .traversed))
    (hhand : ∀ q item, s.hands q = some item → item.work = some w → item.item.cb = none) :
    Safe { s with
      works := Function.update s.works w none
      cancelled := w :: s.cancelled
      calls := Function.update s.calls t none } := by
  obtain ⟨hlt, hidentity, hfreed⟩ := h.calls t _ hcall
  have hne : ∀ x, s.Open x → x ≠ w := by
    rintro x hx rfl
    exact hx.2 t hcall
  have hopen : ∀ x, s.Open x → Open { s with
      works := Function.update s.works w none
      cancelled := w :: s.cancelled
      calls := Function.update s.calls t none } x := by
    refine fun x hx => ⟨fun hmem => ?_, fun t' hcall' => ?_⟩
    · rcases List.mem_cons.1 hmem with heq | hmem
      · exact hne x hx heq
      · exact hx.1 hmem
    · exact forall_calls_update (P := (· ≠ .cancel x .traversed))
        (fun t' call' hc he => hx.2 t' (he ▸ hc)) (fun _ hn => by cases hn) t' _ hcall' rfl
  refine { h with
    fresh := ?_, cancelled := ?_, calls := ?_, touches := ?_, put := ?_, queue := ?_, hand := ?_ }
  · intro id hid
    obtain ⟨hid₁, hid₂, hid₃⟩ := h.fresh id hid
    have hid' : id ≠ w := fun heq => absurd (heq ▸ hid) (Nat.not_le.2 hlt)
    refine ⟨hid₁, ?_, hid₃⟩
    dsimp only
    rw [Function.update_of_ne hid']
    exact hid₂
  · intro x hx
    rcases List.mem_cons.1 hx with rfl | hx
    · exact hfreed fun heq => by cases heq
    · exact h.cancelled x hx
  · exact forall_calls_update h.calls (fun _ hn => by cases hn)
  · exact fun x hx => hopen x (h.touches x hx)
  · intro x work heq
    have hx := hne x (h.touches x (by rw [heq]; rfl))
    dsimp only
    rw [Function.update_of_ne hx]
    exact h.put x work heq
  · intro q item x hmem hx hcb
    obtain ⟨hx', work, hwork, hrest⟩ := h.queue q item x hmem hx hcb
    refine ⟨hopen x hx', work, ?_, hrest⟩
    dsimp only
    rw [Function.update_of_ne (hne x hx')]
    exact hwork
  · intro q item x hitem hx hcb hmem
    rcases List.mem_cons.1 hmem with rfl | hmem
    · exact hcb (hhand q item hitem hx)
    · exact h.hand q item x hitem hx hcb hmem

variable [DecidableEq β] [DecidableEq δ]

omit [DecidableEq τ] in
/-- An item in the queue after `tal_workqueue_cancel` was there before, and one that comes from the
delayed work has no callback. -/
theorem Safe.cancelQueue (h : s.Safe) {q w : Nat} {item : TracedItem β δ}
    (hmem : item ∈ (s.cancelQueue w q).items) (hcb : item.item.cb ≠ none) :
    item ∈ (s.queues q).items ∧ item.work ≠ some w := by
  rw [Threads.cancelQueue] at hmem
  cases hwork : s.works w with
  | none =>
    rw [hwork] at hmem
    refine ⟨hmem, fun hw => ?_⟩
    obtain ⟨-, work, hwork', -⟩ := h.queue q item w hmem hw hcb
    rw [hwork] at hwork'
    cases hwork'
  | some work =>
    rw [hwork] at hmem
    dsimp only at hmem
    have hsame : item ∈ (s.queues q).items → item.work = some w →
        work.handle = q ∧ item.item.cb = work.cb := by
      intro hold hw
      obtain ⟨-, work', hwork', hrest⟩ := h.queue q item w hold hw hcb
      rw [hwork] at hwork'
      cases hwork'
      exact hrest
    split_ifs at hmem with hnull
    · exact ⟨hmem, fun hw => hcb ((hsame hmem hw).2.trans hnull.1)⟩
    · by_cases hq : q = work.handle
      · rw [hq, Function.update_self] at hmem
        obtain ⟨src, hsrc, rfl⟩ := List.mem_map.1 hmem
        rw [← hq] at hsrc
        rw [cancelTraverse] at hcb hsame ⊢
        split_ifs at hcb hsame ⊢ with hmatch
        · exact absurd rfl hcb
        · refine ⟨hsrc, fun hw => hmatch (Or.inl ?_)⟩
          obtain ⟨-, heq⟩ := hsame hsrc hw
          rw [← heq]
          exact ⟨Option.isSome_iff_ne_none.2 hcb, rfl⟩
      · rw [Function.update_of_ne hq] at hmem
        exact ⟨hmem, fun hw => hq (hsame hmem hw).1.symm⟩

theorem Safe.traverse (h : s.Safe) {t : τ} {w : Nat}
    (hcall : s.calls t = some (.cancel w .freed)) (hthread : ¬s.timerThread.Touches w) :
    Safe { s with
      queues := s.cancelQueue w
      calls := Function.update s.calls t (some (.cancel w .traversed)) } := by
  obtain ⟨hlt, hidentity, hfreed⟩ := h.calls t _ hcall
  have hopen : ∀ x, x ≠ w → s.Open x → Open { s with
      queues := s.cancelQueue w
      calls := Function.update s.calls t (some (.cancel w .traversed)) } x := by
    refine fun x hne hx => ⟨hx.1, fun t' hcall' => ?_⟩
    refine forall_calls_update (P := (· ≠ .cancel x .traversed))
        (fun t' call' hc he => hx.2 t' (he ▸ hc)) (fun call' hn he => ?_) t' _ hcall' rfl
    cases hn
    cases he
    exact hne rfl
  refine { h with calls := ?_, touches := ?_, queue := ?_ }
  · refine forall_calls_update h.calls fun call' hn => ?_
    cases hn
    exact ⟨hlt, hidentity, fun _ => hfreed fun heq => by cases heq⟩
  · refine fun x hx => hopen x ?_ (h.touches x hx)
    rintro rfl
    exact hthread hx
  · intro q item x hmem hx hcb
    obtain ⟨hold, hne⟩ := h.cancelQueue hmem hcb
    obtain ⟨hx', hrest⟩ := h.queue q item x hold hx hcb
    refine ⟨hopen x ?_ hx', hrest⟩
    rintro rfl
    exact hne hx

theorem Safe.proceed (h : s.Safe) {t : τ} (hcond : ReturnCond s (.proceed t)) :
    (s.proceed t).Safe := by
  rw [ReturnCond] at hcond
  rw [Threads.proceed]
  cases hcall : s.calls t with
  | none => exact h
  | some call =>
    rw [hcall] at hcond
    cases call with
    | delete id => exact h.release hcall hcond fun _ hn => by cases hn
    | cancel w stage =>
      cases stage with
      | unlinked =>
        refine h.release hcall hcond fun _ hn => ?_
        cases hn
        exact ⟨rfl, fun _ heq => by cases heq⟩
      | freed => exact h.traverse hcall hcond
      | traversed => exact h.releaseWork hcall hcond

/-- **Every step that meets the condition keeps the invariant.** -/
theorem Safe.threadStep (h : s.Safe) {ev : ThreadEvent τ κ β δ} (hcond : ReturnCond s ev) :
    (threadStep s ev).Safe := by
  cases ev with
  | createTimer cb arg => exact h.create (fun heq => by cases heq) (fun _ _ => rfl)
  | initDelayed work =>
    exact h.create (fun _ => rfl) (fun w hne => Function.update_of_ne hne _ _)
  | clock now =>
    rw [System.threadStep]
    split_ifs with hle
    · exact h.clock hle
    · exact h
  | start id timeMs timerType =>
    exact h.setTimers (h.ordered.talSwTimerStart id le_rfl timeMs timerType)
      (TimerMgr.identity_talSwTimerStart s.timers id s.now timeMs timerType)
  | stop id =>
    exact h.setTimers (h.ordered.talSwTimerStop id) (TimerMgr.identity_talSwTimerStop s.timers id)
  | trigger id =>
    exact h.setTimers (h.ordered.talSwTimerTrigger id)
      (TimerMgr.identity_talSwTimerTrigger s.timers id)
  | schedule q item malloc => exact h.schedule (fun _ hw => by cases hw) malloc
  | timerNext malloc => exact h.timerNext malloc
  | workNext q => exact h.workNext q
  | deleteBegin t id => exact h.deleteBegin t id
  | cancelBegin t w => exact h.cancelBegin t w
  | proceed t => exact h.proceed hcond

end Release

theorem safe_threadsInit (now : SystemTime) (queueLen : Nat → Nat) :
    (threadsInit now queueLen : Threads τ κ β δ).Safe where
  ordered := TimerMgr.ordered_talSwTimerInit.mono (Nat.zero_le _)
  fresh _ _ := ⟨rfl, rfl, List.not_mem_nil⟩
  delayed _ _ hid := by cases hid
  deleted _ hmem := by cases hmem
  cancelled _ hmem := by cases hmem
  calls _ _ hcall := by cases hcall
  selected _ _ _ heq := by cases heq
  touches _ hw := hw.elim
  put _ _ heq := by cases heq
  queue _ _ _ hmem := by cases hmem
  hand _ _ _ hitem := by cases hitem
  late := rfl

end Threads

/-! ### Runs -/

variable (now : SystemTime) (queueLen : Nat → Nat)

/-- **A deleted timer or a cancelled delayed work never runs** in a run whose steps meet the
condition. -/
theorem late_eq_nil_of_run {evs : List (ThreadEvent τ κ β δ)}
    (h : Guarded threadStep ReturnCond (threadsInit now queueLen) evs) :
    (evs.foldl threadStep (threadsInit now queueLen)).late = [] :=
  (h.invariant (fun _ _ hsafe hcond => hsafe.threadStep hcond)
    (Threads.safe_threadsInit now queueLen)).late

/-- A delayed work is due and its item has been invoked before it is cancelled. -/
theorem late_eq_nil_cancel :
    (List.foldl threadStep (threadsInit ⟨0, 0⟩ fun _ => 4 : Threads Nat Nat Nat Nat)
      [.initDelayed ⟨some 7, none, 1⟩, .start 0 5 .once, .clock ⟨0, 10⟩, .timerNext true,
        .timerNext true, .timerNext true, .timerNext true, .workNext 1, .workNext 1,
        .cancelBegin 0 0, .proceed 0, .proceed 0, .proceed 0]).late = [] := by
  refine late_eq_nil_of_run ⟨0, 0⟩ (fun _ => 4) ?_
  refine ⟨trivial, trivial, trivial, trivial, trivial, trivial, trivial, trivial, trivial, trivial,
    ?_, ?_, ?_, trivial⟩
  · exact fun _ _ heq => by cases heq
  · exact fun hw => hw.elim
  · intro q item hitem
    have hhands : Function.update (Function.update (fun _ => none) 1
        (some (⟨⟨some 7, none⟩, some 0⟩ : TracedItem Nat Nat))) 1 none q = some item := hitem
    rw [Function.update_idem] at hhands
    by_cases hq : q = 1
    · rw [hq, Function.update_self] at hhands
      cases hhands
    · rw [Function.update_of_ne hq] at hhands
      cases hhands

section Necessary

omit [DecidableEq τ] [DecidableEq β] [DecidableEq δ]

variable {s : Threads τ κ β δ}

theorem note_ne_nil {released : List Nat} {n : Nat} (h : n ∈ released) (what : Late) :
    s.note released n what ≠ [] := by
  rw [Threads.note, if_pos h]
  exact List.append_ne_nil_of_right_ne_nil _ (List.cons_ne_nil _ _)

theorem late_timerNext_of_selected {id : Nat} {func : TimerFunc κ} {arg : Option Nat}
    (hthread : s.timerThread = .selected id func arg) (hdeleted : id ∈ s.deleted) (malloc : Bool) :
    (s.timerNext malloc).late ≠ [] := by
  have hlate := note_ne_nil (s := s) hdeleted (.timer id)
  rw [Threads.timerNext, hthread]
  cases func with
  | user cb =>
    cases arg with
    | none => exact hlate
    | some w => exact hlate
  | delayedWorkCb =>
    cases arg with
    | none => exact hlate
    | some w => exact hlate

theorem late_timerNext_of_touches {w : Nat} (hthread : s.timerThread.Touches w)
    (hcancelled : w ∈ s.cancelled) (malloc : Bool) : (s.timerNext malloc).late ≠ [] := by
  rw [Threads.timerNext]
  cases hcase : s.timerThread with
  | loop =>
    rw [hcase] at hthread
    exact hthread.elim
  | selected id func arg =>
    rw [hcase] at hthread
    exact hthread.elim
  | callback x =>
    rw [hcase] at hthread
    obtain rfl : x = w := hthread
    have hlate := note_ne_nil (s := s) hcancelled (.work x)
    dsimp only
    cases s.works x with
    | none => exact hlate
    | some work => exact hlate
  | put x work =>
    rw [hcase] at hthread
    obtain rfl : x = w := hthread
    have hlate := note_ne_nil (s := s) hcancelled (.schedule x)
    dsimp only
    rw [Threads.schedule]
    split_ifs with hcb
    · exact hlate
    · exact hlate

theorem late_workNext_of_hand {q w : Nat} {item : TracedItem β δ} (hhand : s.hands q = some item)
    (hwork : item.work = some w) (hcb : item.item.cb ≠ none) (hcancelled : w ∈ s.cancelled) :
    (s.workNext q).late ≠ [] := by
  obtain ⟨cb, hcb⟩ := Option.ne_none_iff_exists'.1 hcb
  rw [Threads.workNext, hhand]
  dsimp only
  rw [hcb, hwork]
  exact note_ne_nil (s := s) hcancelled (.invoke w)

end Necessary

/-- **The condition cannot be left out.** A step of a release that does not meet it has a
continuation in which a thread comes too late. -/
theorem exists_late_of_not_returnCond {s : Threads τ κ β δ} {t : τ}
    (h : ¬ReturnCond s (.proceed t)) :
    ∃ more, (List.foldl threadStep s (.proceed t :: more)).late ≠ [] := by
  rw [ReturnCond] at h
  cases hcall : s.calls t with
  | none =>
    rw [hcall] at h
    exact absurd trivial h
  | some call =>
    rw [hcall] at h
    cases call with
    | delete id =>
      obtain ⟨func, arg, hthread⟩ : ∃ func arg, s.timerThread = .selected id func arg := by
        simpa only [not_forall, not_not] using h
      refine ⟨[.timerNext true], ?_⟩
      rw [List.foldl_cons, List.foldl_cons, List.foldl_nil, threadStep, threadStep,
        Threads.proceed, hcall]
      exact late_timerNext_of_selected (s := { s with
        deleted := id :: s.deleted
        calls := Function.update s.calls t none }) hthread List.mem_cons_self true
    | cancel w stage =>
      cases stage with
      | unlinked =>
        obtain ⟨func, arg, hthread⟩ : ∃ func arg, s.timerThread = .selected w func arg := by
          simpa only [not_forall, not_not] using h
        refine ⟨[.timerNext true], ?_⟩
        rw [List.foldl_cons, List.foldl_cons, List.foldl_nil, threadStep, threadStep,
          Threads.proceed, hcall]
        exact late_timerNext_of_selected (s := { s with
          deleted := w :: s.deleted
          calls := Function.update s.calls t (some (.cancel w .freed)) })
          hthread List.mem_cons_self true
      | freed =>
        have hthread : s.timerThread.Touches w := not_not.1 h
        refine ⟨[.proceed t, .timerNext true], ?_⟩
        have hfirst : s.proceed t = { s with
            queues := s.cancelQueue w
            calls := Function.update s.calls t (some (.cancel w .traversed)) } := by
          rw [Threads.proceed, hcall]
        have hcall' : (s.proceed t).calls t = some (.cancel w .traversed) := by
          rw [hfirst]
          exact Function.update_self _ _ _
        have hthread' : (s.proceed t).timerThread.Touches w := by
          rw [hfirst]
          exact hthread
        rw [List.foldl_cons, List.foldl_cons, List.foldl_cons, List.foldl_nil, threadStep,
          threadStep, threadStep]
        rw [Threads.proceed.eq_def (s.proceed t), hcall']
        refine late_timerNext_of_touches (w := w) ?_ ?_ true
        · exact hthread'
        · exact List.mem_cons_self
      | traversed =>
        obtain ⟨q, item, hhand, hwork, hcb⟩ : ∃ q item, s.hands q = some item ∧
            item.work = some w ∧ item.item.cb ≠ none := by
          simpa only [not_forall, exists_prop] using h
        refine ⟨[.workNext q], ?_⟩
        rw [List.foldl_cons, List.foldl_cons, List.foldl_nil, threadStep, threadStep,
          Threads.proceed, hcall]
        refine late_workNext_of_hand ?_ hwork hcb ?_
        · exact hhand
        · exact List.mem_cons_self

/-- A timer has been selected when its delete is about to return. -/
theorem exists_late_selected :
    ∃ more, (List.foldl threadStep (List.foldl threadStep
      (threadsInit ⟨0, 0⟩ fun _ => 4 : Threads Nat Nat Nat Nat)
        [.createTimer 7 none, .start 0 5 .once, .clock ⟨0, 10⟩, .timerNext true, .deleteBegin 0 0])
      (.proceed 0 :: more)).late ≠ [] :=
  exists_late_of_not_returnCond fun h => h _ _ rfl

/-- A timer is deleted after it has been selected and before its callback is invoked. -/
theorem late_of_selected :
    (List.foldl threadStep (threadsInit ⟨0, 0⟩ fun _ => 4 : Threads Nat Nat Nat Nat)
      [.createTimer 7 none, .start 0 5 .once, .clock ⟨0, 10⟩, .timerNext true, .deleteBegin 0 0,
        .proceed 0, .timerNext true]).late ≠ [] := by
  decide

end TuyaOpen.System
