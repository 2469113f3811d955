import TuyaOpen.Basic.Transition
import TuyaOpen.Utilities.Queue
import Mathlib.Data.List.Nodup

/-!
# The work queue

`tal_workqueue.c`: threads put items in a queue and post a semaphore, and the work thread waits for
the semaphore, takes the first item and invokes it. Putting the item in and posting are two steps,
and so are waiting and taking it out. The steps of the threads come in any order.

An item is numbered when it enters the queue, and the state has the history of the items: those
that have entered, those that have been taken out and those that have been executed.
-/

namespace TuyaOpen.System

open TuyaOpen.Utilities

variable {τ β δ : Type}

/-! ### The state -/

/-- `WORK_ITEM_T`: a callback and its data, either of which may be a null pointer. -/
structure WorkItem (β δ : Type) where
  cb : Option β
  data : Option δ

/-- An item with its number and whether it is to be taken out first. -/
structure Entry (β δ : Type) where
  no : Nat
  instant : Bool
  item : WorkItem β δ

inductive WorkThread (β δ : Type)
  /-- Wait for the semaphore. -/
  | wait
  /-- Take an item out of the queue. -/
  | output
  /-- Invoke an item. -/
  | invoke (entry : Entry β δ)

/-- `TAL_WORKQUEUE_T` with its threads. -/
structure WorkQueue (τ β δ : Type) where
  queue : TuyaQueue (Entry β δ)
  semCount : Nat
  semMax : Nat
  /-- The threads that have put an item in the queue and are about to post the semaphore. -/
  posting : List τ
  thread : WorkThread β δ
  entered : List (Entry β δ)
  dequeued : List (Entry β δ)
  executed : List (Entry β δ)
  /-- What the calls of `tal_semaphore_post` have returned. -/
  posts : List OperateRet

/-- `tal_workqueue_create`: `malloc` and `mallocQueue` say whether the memory of the record and of
the queue has been allocated. -/
def talWorkqueueCreate (queueLen : UInt16) (malloc mallocQueue : Bool) :
    Except OperateRet (WorkQueue τ β δ) :=
  if queueLen = 0 then .error oprtInvalidParm
  else if malloc then
    match tuyaQueueCreate queueLen.toNat mallocQueue with
    | .error rt => .error rt
    | .ok queue => .ok ⟨queue, 0, queueLen.toNat, [], .wait, [], [], [], []⟩
  else .error oprtMallocFailed

/-! ### The steps -/

inductive WorkEvent (τ β δ : Type)
  /-- `tal_workqueue_schedule` or `tal_workqueue_schedule_instant` until the item is in the queue:
  `malloc` says whether the memory of the item has been allocated. -/
  | schedule (t : τ) (instant : Bool) (cb : Option β) (data : Option δ) (malloc : Bool)
  /-- The rest of the call. -/
  | post (t : τ)
  /-- `tal_semaphore_wait` of the work thread: it may fail. -/
  | wait (fails : Bool)
  | output
  | invoke

namespace WorkQueue

/-- The part of `tal_workqueue_schedule` and `tal_workqueue_schedule_instant` before the post. -/
def schedule [DecidableEq τ] (w : WorkQueue τ β δ) (t : τ) (instant : Bool) (cb : Option β)
    (data : Option δ) (malloc : Bool) : WorkQueue τ β δ :=
  if t ∈ w.posting then w
  else
    match cb with
    | none => w
    | some cb =>
      let entry : Entry β δ := ⟨w.entered.length, instant, ⟨some cb, data⟩⟩
      let r :=
        if instant then tuyaQueueInputInstant w.queue entry malloc
        else tuyaQueueInput w.queue entry malloc
      if r.1 = oprtOk then
        { w with queue := r.2, posting := t :: w.posting, entered := w.entered ++ [entry] }
      else { w with queue := r.2 }

/-- `tal_semaphore_post`: the count does not exceed its bound. -/
def post [DecidableEq τ] (w : WorkQueue τ β δ) (t : τ) : WorkQueue τ β δ :=
  if t ∈ w.posting then
    if w.semCount < w.semMax then
      { w with
        semCount := w.semCount + 1
        posting := w.posting.erase t
        posts := w.posts ++ [oprtOk] }
    else
      { w with
        posting := w.posting.erase t
        posts := w.posts ++ [oprtOsAdapterSemPostFailed] }
  else w

/-- `tal_semaphore_wait`: it blocks while the count is zero. -/
def wait (w : WorkQueue τ β δ) (fails : Bool) : WorkQueue τ β δ :=
  match w.thread with
  | .wait =>
    if fails = false ∧ 0 < w.semCount then
      { w with semCount := w.semCount - 1, thread := .output }
    else w
  | _ => w

/-- `tuya_queue_output` of the work thread. -/
def output (w : WorkQueue τ β δ) : WorkQueue τ β δ :=
  match w.thread with
  | .output =>
    let r := tuyaQueueOutput w.queue
    match r.2.1 with
    | some entry =>
      { w with queue := r.2.2, thread := .invoke entry, dequeued := w.dequeued ++ [entry] }
    | none => { w with thread := .wait }
  | _ => w

def invoke (w : WorkQueue τ β δ) : WorkQueue τ β δ :=
  match w.thread with
  | .invoke entry =>
    if entry.item.cb.isSome then
      { w with thread := .wait, executed := w.executed ++ [entry] }
    else { w with thread := .wait }
  | _ => w

end WorkQueue

/-- One step. A step that its thread cannot take leaves the state as it is. -/
def workStep [DecidableEq τ] (w : WorkQueue τ β δ) : WorkEvent τ β δ → WorkQueue τ β δ
  | .schedule t instant cb data malloc => w.schedule t instant cb data malloc
  | .post t => w.post t
  | .wait fails => w.wait fails
  | .output => w.output
  | .invoke => w.invoke

/-! ### The invariant -/

namespace WorkQueue

def order (w : WorkQueue τ β δ) : List (Entry β δ) :=
  w.dequeued ++ w.queue.items

def inHand (w : WorkQueue τ β δ) : List (Entry β δ) :=
  match w.thread with
  | .invoke entry => [entry]
  | _ => []

/-- The items for which the work thread has waited and that it has not yet taken out. -/
def claimed (w : WorkQueue τ β δ) : Nat :=
  match w.thread with
  | .output => 1
  | _ => 0

structure InStep (w : WorkQueue τ β δ) : Prop where
  /-- An item in the queue has a unit of the semaphore, a thread about to post one, or the work
  thread about to take it. -/
  length : w.queue.items.length = w.semCount + w.posting.length + w.claimed
  bound : w.semMax = w.queue.queueLen
  perm : w.order.Perm w.entered
  numbered : w.entered.map Entry.no = List.range w.entered.length
  fifo : w.order.filter (fun entry => !entry.instant) =
    w.entered.filter (fun entry => !entry.instant)
  callback : ∀ entry ∈ w.entered, entry.item.cb.isSome
  executed : w.dequeued = w.executed ++ w.inHand
  posts : ∀ rt ∈ w.posts, rt = oprtOk

def policy (instant : Bool) : EnqueuePolicy := if instant then .sendToFront else .sendToBack

section Order

variable {w : WorkQueue τ β δ}

theorem order_of_enter {entry : Entry β δ} {queue : TuyaQueue (Entry β δ)} {instant : Bool}
    (posting : List τ) (entered : List (Entry β δ))
    (hitems : queue.items = TuyaQueue.place w.queue.items entry (policy instant)) :
    order { w with queue := queue, posting := posting, entered := entered } =
      if instant then w.dequeued ++ entry :: w.queue.items else w.order ++ [entry] := by
  rw [order, hitems]
  cases instant with
  | false => exact (List.append_assoc _ _ _).symm
  | true => rfl

theorem order_sublist_enter (w : WorkQueue τ β δ) (entry : Entry β δ) (instant : Bool) :
    w.order.Sublist
      (if instant then w.dequeued ++ entry :: w.queue.items else w.order ++ [entry]) := by
  cases instant with
  | false => exact List.sublist_append_left _ _
  | true => exact (List.sublist_cons_self entry w.queue.items).append_left w.dequeued

theorem order_perm_enter (w : WorkQueue τ β δ) (entry : Entry β δ) (instant : Bool) :
    (if instant then w.dequeued ++ entry :: w.queue.items else w.order ++ [entry]).Perm
      (w.order ++ [entry]) := by
  cases instant with
  | false => exact List.Perm.refl _
  | true => exact List.perm_middle.trans (List.perm_append_singleton entry w.order).symm

theorem order_filter_enter (w : WorkQueue τ β δ) {entry : Entry β δ} {instant : Bool}
    (h : entry.instant = instant) :
    (if instant then w.dequeued ++ entry :: w.queue.items else w.order ++ [entry]).filter
        (fun entry => !entry.instant) =
      w.order.filter (fun entry => !entry.instant) ++
        [entry].filter (fun entry => !entry.instant) := by
  cases instant with
  | false =>
    rw [if_neg Bool.false_ne_true, List.filter_append]
  | true =>
    rw [if_pos rfl, List.filter_append, List.filter_cons_of_neg (by rw [h]; decide),
      List.filter_cons_of_neg (by rw [h]; decide), List.filter_nil, List.append_nil, order,
      List.filter_append]

end Order

section Steps

variable [DecidableEq τ] {w : WorkQueue τ β δ}

theorem schedule_cases (w : WorkQueue τ β δ) (t : τ) (instant : Bool) (cb : Option β)
    (data : Option δ) (malloc : Bool) :
    w.schedule t instant cb data malloc = w ∨
      ∃ entry : Entry β δ, ∃ queue : TuyaQueue (Entry β δ),
        entry.no = w.entered.length ∧ entry.instant = instant ∧ entry.item.cb.isSome ∧
        queue.items = TuyaQueue.place w.queue.items entry (policy instant) ∧
        queue.queueLen = w.queue.queueLen ∧
        w.schedule t instant cb data malloc =
          { w with
            queue := queue
            posting := t :: w.posting
            entered := w.entered ++ [entry] } := by
  rw [schedule.eq_def]
  by_cases ht : t ∈ w.posting
  · exact Or.inl (if_pos ht)
  rw [if_neg ht]
  cases cb with
  | none => exact Or.inl rfl
  | some cb =>
    let entry : Entry β δ := ⟨w.entered.length, instant, ⟨some cb, data⟩⟩
    have hinput : (if instant then tuyaQueueInputInstant w.queue entry malloc
        else tuyaQueueInput w.queue entry malloc) =
          enqueue w.queue entry (policy instant) malloc := by
      cases instant with
      | false => rfl
      | true => rfl
    dsimp only
    rw [hinput]
    rcases enqueue_cases w.queue entry (policy instant) malloc with
      ⟨hok, -, hitems, hlen⟩ | ⟨hfail, hqueue⟩
    · exact Or.inr ⟨entry, _, rfl, rfl, rfl, hitems, hlen, if_pos hok⟩
    · refine Or.inl ?_
      rw [if_neg hfail, hqueue]

theorem InStep.schedule (h : w.InStep) (t : τ) (instant : Bool) (cb : Option β)
    (data : Option δ) (malloc : Bool) : (w.schedule t instant cb data malloc).InStep := by
  rcases schedule_cases w t instant cb data malloc with
    hsame | ⟨entry, queue, hno, hinstant, hcb, hitems, hlen, hnext⟩
  · rw [hsame]
    exact h
  rw [hnext]
  have horder := order_of_enter (t :: w.posting) (w.entered ++ [entry]) hitems
  refine ⟨?_, h.bound.trans hlen.symm, ?_, ?_, ?_, ?_, h.executed, h.posts⟩
  · have hlength := h.length
    dsimp only [claimed] at hlength ⊢
    rw [hitems, TuyaQueue.length_place, List.length_cons]
    omega
  · rw [horder]
    exact (order_perm_enter w entry instant).trans (h.perm.append_right [entry])
  · dsimp only
    rw [List.map_append, List.map_singleton, h.numbered, hno, List.length_append,
      List.length_singleton, List.range_succ]
  · rw [horder, order_filter_enter w hinstant, h.fifo]
    exact (List.filter_append _ _).symm
  · intro e he
    rcases List.mem_append.1 he with hold | hnew
    · exact h.callback e hold
    · rw [List.mem_singleton.1 hnew]
      exact hcb

theorem InStep.post (h : w.InStep) (t : τ) : (w.post t).InStep := by
  rw [WorkQueue.post]
  split_ifs with ht hlt
  · have hlength := h.length
    have herase := List.length_erase_of_mem ht
    have hpos := List.length_pos_of_mem ht
    refine ⟨?_, h.bound, h.perm, h.numbered, h.fifo, h.callback, h.executed, ?_⟩
    · dsimp only [claimed] at hlength ⊢
      omega
    · intro rt hrt
      rcases List.mem_append.1 hrt with hold | hnew
      · exact h.posts rt hold
      · exact List.mem_singleton.1 hnew
  · -- a thread about to post has an item in the queue, and the queue has the bound
    exfalso
    have hlength := h.length
    have hbound := h.bound
    have hcount := w.queue.count
    have hpos := List.length_pos_of_mem ht
    omega
  · exact h

end Steps

section Thread

variable {w : WorkQueue τ β δ}

theorem InStep.wait (h : w.InStep) (fails : Bool) : (w.wait fails).InStep := by
  rw [WorkQueue.wait]
  cases hthread : w.thread with
  | wait =>
    dsimp only
    split_ifs with hok
    · have hlength := h.length
      have hexecuted := h.executed
      simp only [claimed, inHand, hthread] at hlength hexecuted
      refine ⟨?_, h.bound, h.perm, h.numbered, h.fifo, h.callback, hexecuted, h.posts⟩
      dsimp only [claimed]
      omega
    · exact h
  | output => exact h
  | invoke entry => exact h

theorem InStep.exists_output (h : w.InStep) (hthread : w.thread = .output) :
    ∃ entry rest, ∃ queue : TuyaQueue (Entry β δ), w.queue.items = entry :: rest ∧
      queue.items = rest ∧ queue.queueLen = w.queue.queueLen ∧
      w.output =
        { w with
          queue := queue
          thread := .invoke entry
          dequeued := w.dequeued ++ [entry] } := by
  have hlength := h.length
  simp only [claimed, hthread] at hlength
  cases hitems : w.queue.items with
  | nil =>
    rw [hitems, List.length_nil] at hlength
    omega
  | cons entry rest =>
    obtain ⟨-, hentry, hrest, hlen⟩ := tuyaQueueOutput_of_cons hitems
    refine ⟨entry, rest, (tuyaQueueOutput w.queue).2.2, rfl, hrest, hlen, ?_⟩
    rw [WorkQueue.output, hthread]
    dsimp only
    rw [hentry]

theorem InStep.order_output (h : w.InStep) : w.output.order = w.order := by
  cases hthread : w.thread with
  | wait => rw [WorkQueue.output, hthread]
  | output =>
    obtain ⟨entry, rest, queue, hitems, hrest, -, hnext⟩ := h.exists_output hthread
    rw [hnext, order, order, hrest, hitems, List.append_assoc, List.singleton_append]
  | invoke entry => rw [WorkQueue.output, hthread]

theorem InStep.output (h : w.InStep) : w.output.InStep := by
  have horder := h.order_output
  cases hthread : w.thread with
  | wait =>
    rw [WorkQueue.output, hthread]
    exact h
  | output =>
    obtain ⟨entry, rest, queue, hitems, hrest, hlen, hnext⟩ := h.exists_output hthread
    have hlength := h.length
    have hexecuted := h.executed
    simp only [claimed, inHand, hthread, List.append_nil] at hlength hexecuted
    rw [hitems, List.length_cons] at hlength
    rw [hnext] at horder ⊢
    refine ⟨?_, h.bound.trans hlen.symm, ?_, h.numbered, ?_, h.callback, ?_, h.posts⟩
    · dsimp only [claimed]
      rw [hrest]
      omega
    · rw [horder]
      exact h.perm
    · rw [horder]
      exact h.fifo
    · dsimp only [inHand]
      rw [hexecuted]
  | invoke entry =>
    rw [WorkQueue.output, hthread]
    exact h

theorem InStep.invoke (h : w.InStep) : w.invoke.InStep := by
  rw [WorkQueue.invoke]
  cases hthread : w.thread with
  | wait => exact h
  | output => exact h
  | invoke entry =>
    have hlength := h.length
    have hexecuted := h.executed
    simp only [claimed, inHand, hthread] at hlength hexecuted
    have hmem : entry ∈ w.entered := by
      refine h.perm.subset (List.mem_append_left _ ?_)
      rw [hexecuted]
      exact List.mem_append_right _ List.mem_cons_self
    dsimp only
    rw [if_pos (h.callback entry hmem)]
    refine ⟨hlength, h.bound, h.perm, h.numbered, h.fifo, h.callback, ?_, h.posts⟩
    dsimp only [inHand]
    rw [hexecuted, List.append_nil]

end Thread

/-- **Every step keeps the invariant.** -/
theorem InStep.workStep [DecidableEq τ] {w : WorkQueue τ β δ} (h : w.InStep)
    (ev : WorkEvent τ β δ) : (workStep w ev).InStep := by
  cases ev with
  | schedule t instant cb data malloc => exact h.schedule t instant cb data malloc
  | post t => exact h.post t
  | wait fails => exact h.wait fails
  | output => exact h.output
  | invoke => exact h.invoke

/-! ### The order of the items -/

theorem order_wait (w : WorkQueue τ β δ) (fails : Bool) : (w.wait fails).order = w.order := by
  rw [wait]
  cases w.thread with
  | wait =>
    dsimp only
    split_ifs with hok
    · rfl
    · rfl
  | output => rfl
  | invoke entry => rfl

theorem order_invoke (w : WorkQueue τ β δ) : w.invoke.order = w.order := by
  rw [invoke]
  cases w.thread with
  | wait => rfl
  | output => rfl
  | invoke entry =>
    dsimp only
    split_ifs with hcb
    · rfl
    · rfl

section Places

variable [DecidableEq τ] {w : WorkQueue τ β δ}

theorem order_post (w : WorkQueue τ β δ) (t : τ) : (w.post t).order = w.order := by
  rw [post]
  split_ifs with ht hlt
  · rfl
  · rfl
  · rfl

theorem order_sublist_workStep (h : w.InStep) (ev : WorkEvent τ β δ) :
    w.order.Sublist (System.workStep w ev).order := by
  cases ev with
  | schedule t instant cb data malloc =>
    rcases schedule_cases w t instant cb data malloc with
      hsame | ⟨entry, queue, -, -, -, hitems, -, hnext⟩
    · rw [System.workStep, hsame]
    · rw [System.workStep, hnext, order_of_enter _ _ hitems]
      exact order_sublist_enter w entry instant
  | post t => rw [System.workStep, order_post]
  | wait fails => rw [System.workStep, order_wait]
  | output => rw [System.workStep, h.order_output]
  | invoke => rw [System.workStep, order_invoke]

theorem order_sublist_run (h : w.InStep) (evs : List (WorkEvent τ β δ)) :
    w.order.Sublist (evs.foldl System.workStep w).order := by
  induction evs generalizing w with
  | nil => exact List.Sublist.refl _
  | cons ev evs ih => exact (order_sublist_workStep h ev).trans (ih (h.workStep ev))

theorem pair_sublist_of_instant {t : τ} {cb : Option β} {data : Option δ} {malloc : Bool}
    {x y : Entry β δ}
    (hx : (System.workStep w (.schedule t true cb data malloc)).entered = w.entered ++ [x])
    (hy : y ∈ w.queue.items) :
    [x, y].Sublist (System.workStep w (.schedule t true cb data malloc)).order := by
  rw [System.workStep] at hx ⊢
  rcases schedule_cases w t true cb data malloc with
    hsame | ⟨entry, queue, -, -, -, hitems, -, hnext⟩
  · rw [hsame] at hx
    exact absurd hx (by simp)
  · rw [hnext] at hx ⊢
    have hentry : entry = x := List.singleton_injective (List.append_cancel_left hx)
    rw [order_of_enter _ _ hitems, if_pos rfl, hentry]
    exact ((List.singleton_sublist.2 hy).cons_cons x).trans (List.sublist_append_right _ _)

end Places

/-! ### What remains to be done -/

/-- A step, other than the beginning of a call, that its thread can take. -/
def Enabled (w : WorkQueue τ β δ) : WorkEvent τ β δ → Prop
  | .schedule _ _ _ _ _ => False
  | .post t => t ∈ w.posting
  | .wait fails => fails = false ∧ w.thread = .wait ∧ 0 < w.semCount
  | .output => w.thread = .output
  | .invoke => ∃ entry, w.thread = .invoke entry

def threadSteps : WorkThread β δ → Nat
  | .wait => 0
  | .output => 2
  | .invoke _ => 1

/-- The number of steps that remain to be done for the items that have entered. -/
def remaining (w : WorkQueue τ β δ) : Nat :=
  4 * w.posting.length + 3 * w.semCount + threadSteps w.thread

theorem exists_enabled {w : WorkQueue τ β δ} (h : 0 < w.remaining) : ∃ ev, w.Enabled ev := by
  cases hthread : w.thread with
  | wait =>
    rw [remaining, hthread, threadSteps] at h
    cases hposting : w.posting with
    | nil =>
      rw [hposting, List.length_nil] at h
      exact ⟨.wait false, rfl, hthread, by omega⟩
    | cons t rest =>
      refine ⟨.post t, ?_⟩
      rw [Enabled, hposting]
      exact List.mem_cons_self
  | output => exact ⟨.output, hthread⟩
  | invoke entry => exact ⟨.invoke, entry, hthread⟩

theorem InStep.executed_perm {w : WorkQueue τ β δ} (h : w.InStep) (h₀ : w.remaining = 0) :
    w.executed.Perm w.entered := by
  have hlength := h.length
  have hexecuted := h.executed
  have hperm := h.perm
  rw [remaining] at h₀
  cases hthread : w.thread with
  | wait =>
    simp only [hthread, threadSteps, claimed, inHand, List.append_nil] at h₀ hlength hexecuted
    have hitems : w.queue.items = [] := List.length_eq_zero_iff.1 (by omega)
    rwa [order, hitems, List.append_nil, hexecuted] at hperm
  | output =>
    rw [hthread, threadSteps] at h₀
    omega
  | invoke entry =>
    rw [hthread, threadSteps] at h₀
    omega

section Drain

variable [DecidableEq τ] {w : WorkQueue τ β δ}

theorem InStep.remaining_workStep (h : w.InStep) {ev : WorkEvent τ β δ} (hev : w.Enabled ev) :
    (System.workStep w ev).remaining + 1 = w.remaining ∧
      (System.workStep w ev).entered = w.entered := by
  have hlength := h.length
  cases ev with
  | schedule t instant cb data malloc => exact hev.elim
  | post t =>
    rw [Enabled] at hev
    have hbound := h.bound
    have hcount := w.queue.count
    have herase := List.length_erase_of_mem hev
    have hpos := List.length_pos_of_mem hev
    rw [System.workStep, WorkQueue.post, if_pos hev, if_pos (by omega)]
    refine ⟨?_, rfl⟩
    rw [remaining, remaining]
    dsimp only
    omega
  | wait fails =>
    obtain ⟨rfl, hthread, hpos⟩ := hev
    rw [System.workStep, WorkQueue.wait, hthread]
    dsimp only
    rw [if_pos ⟨rfl, hpos⟩, remaining, remaining, hthread, threadSteps, threadSteps]
    refine ⟨?_, rfl⟩
    dsimp only
    omega
  | output =>
    obtain ⟨entry, rest, queue, -, -, -, hnext⟩ := h.exists_output hev
    rw [Enabled] at hev
    rw [System.workStep, hnext, remaining, remaining, hev]
    exact ⟨rfl, rfl⟩
  | invoke =>
    obtain ⟨entry, hthread⟩ := hev
    rw [System.workStep, WorkQueue.invoke, hthread]
    dsimp only
    rw [remaining, remaining, hthread]
    split_ifs with hcb
    · exact ⟨rfl, rfl⟩
    · exact ⟨rfl, rfl⟩

theorem InStep.drained (h : w.InStep) {evs : List (WorkEvent τ β δ)}
    (hevs : Guarded System.workStep Enabled w evs) :
    evs.length ≤ w.remaining ∧
      (evs.length = w.remaining → (evs.foldl System.workStep w).executed.Perm w.entered) := by
  induction evs generalizing w with
  | nil => exact ⟨Nat.zero_le _, fun h₀ => h.executed_perm h₀.symm⟩
  | cons ev evs ih =>
    obtain ⟨hremaining, hentered⟩ := h.remaining_workStep hevs.1
    obtain ⟨hle, hperm⟩ := ih (h.workStep ev) hevs.2
    rw [List.length_cons, ← hremaining]
    refine ⟨Nat.succ_le_succ hle, fun hlen => ?_⟩
    rw [← hentered]
    exact hperm (Nat.succ_injective hlen)

end Drain

/-! ### Runs -/

/-- What the work queue guarantees of a state. -/
structure Once [DecidableEq τ] (w : WorkQueue τ β δ) : Prop where
  /-- No post has exceeded the bound of the semaphore. -/
  posts : ∀ rt ∈ w.posts, rt = oprtOk
  /-- No item is lost and none is taken out twice. -/
  nodup : w.entered.Nodup
  perm : (w.dequeued ++ w.queue.items).Perm w.entered
  /-- What has been taken out has been executed, but for the item in hand. -/
  executed : w.dequeued = w.executed ++ w.inHand
  /-- Items that are not instant are taken out in the order in which they entered. -/
  fifo : (w.dequeued ++ w.queue.items).filter (fun entry => !entry.instant) =
    w.entered.filter (fun entry => !entry.instant)
  /-- While something remains to be done, some thread can go on, -/
  live : 0 < w.remaining → ∃ ev, w.Enabled ev
  /-- and going on executes every item. -/
  drained : ∀ evs, Guarded System.workStep Enabled w evs →
    evs.length ≤ w.remaining ∧
      (evs.length = w.remaining → (evs.foldl System.workStep w).executed.Perm w.entered)

theorem InStep.once [DecidableEq τ] {w : WorkQueue τ β δ} (h : w.InStep) : w.Once where
  posts := h.posts
  nodup := by
    have hnos := List.nodup_range (n := w.entered.length)
    rw [← h.numbered] at hnos
    exact hnos.of_map
  perm := h.perm
  executed := h.executed
  fifo := h.fifo
  live := exists_enabled
  drained _ hevs := h.drained hevs

end WorkQueue

theorem inStep_of_create {queueLen : UInt16} {malloc mallocQueue : Bool} {w : WorkQueue τ β δ}
    (h : talWorkqueueCreate queueLen malloc mallocQueue = .ok w) : w.InStep := by
  rw [talWorkqueueCreate, tuyaQueueCreate] at h
  split_ifs at h with h₁ h₂ h₃ h₄
  · cases h
    exact ⟨rfl, rfl, List.Perm.refl _, rfl, rfl, by simp, rfl, by simp⟩

theorem inStep_run [DecidableEq τ] {w : WorkQueue τ β δ} (h : w.InStep)
    (evs : List (WorkEvent τ β δ)) : (evs.foldl workStep w).InStep := by
  induction evs generalizing w with
  | nil => exact h
  | cons ev evs ih => exact ih (h.workStep ev)

/-- **The work queue executes every item exactly once.** Whatever the order of the steps of the
threads, the guarantee holds after every run, and an instant item comes before the items that were
in the queue when it entered. -/
theorem once_of_run [DecidableEq τ] {queueLen : UInt16} {malloc mallocQueue : Bool}
    {w : WorkQueue τ β δ} (h : talWorkqueueCreate queueLen malloc mallocQueue = .ok w)
    (evs : List (WorkEvent τ β δ)) :
    (evs.foldl workStep w).Once ∧
      ∀ evs₁ evs₂ t cb data mallocItem x y,
        evs = evs₁ ++ .schedule t true cb data mallocItem :: evs₂ →
        (workStep (evs₁.foldl workStep w) (.schedule t true cb data mallocItem)).entered =
          (evs₁.foldl workStep w).entered ++ [x] →
        y ∈ (evs₁.foldl workStep w).queue.items →
        [x, y].Sublist
          ((evs.foldl workStep w).dequeued ++ (evs.foldl workStep w).queue.items) := by
  have hin := inStep_of_create h
  refine ⟨(inStep_run hin evs).once, ?_⟩
  rintro evs₁ evs₂ t cb data mallocItem x y rfl hx hy
  rw [List.foldl_append, List.foldl_cons]
  exact (WorkQueue.pair_sublist_of_instant hx hy).trans
    (WorkQueue.order_sublist_run ((inStep_run hin evs₁).workStep _) evs₂)

/-- Two threads put an item in a queue of two places, the second one an instant item, before either
of them posts. -/
theorem once_of_run_two_threads :
    ∃ w : WorkQueue Nat Nat Nat, talWorkqueueCreate 2 true true = .ok w ∧
      (List.foldl workStep w
        [.schedule 0 false (some 7) none true, .schedule 1 true (some 8) none true, .post 1,
          .wait false, .output, .post 0, .invoke]).Once :=
  ⟨_, rfl, (@once_of_run Nat Nat Nat _ 2 true true _ rfl _).1⟩

end TuyaOpen.System
