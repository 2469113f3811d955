import TuyaOpen.System.DelayedWork

/-!
# Cancelling work

`tal_workqueue_cancel` goes through the queue and disables items: it takes away their callbacks, and
the work thread passes over them. There are three ways to cancel, by the callback, by the data, and
by both. With both, an item that agrees in one of the two is disabled as well.
-/

namespace TuyaOpen.System

open TuyaOpen.Utilities

variable {τ κ β δ : Type}

/-! ### The functions -/

section Functions

variable [DecidableEq β] [DecidableEq δ]

/-- `__work_cancel_traverse`. -/
def workCancelTraverse (dst src : WorkItem β δ) : WorkItem β δ :=
  if (dst.cb.isSome ∧ dst.cb = src.cb) ∨ (dst.data.isSome ∧ dst.data = src.data) then
    { src with cb := none }
  else src

/-- `tal_workqueue_cancel`. -/
def talWorkqueueCancel (w : WorkQueue τ β δ) (cb : Option β) (data : Option δ) :
    OperateRet × WorkQueue τ β δ :=
  if cb = none ∧ data = none then (oprtInvalidParm, w)
  else
    (oprtOk, { w with
      queue := tuyaQueueTraverse w.queue fun entry =>
        { entry with item := workCancelTraverse ⟨cb, data⟩ entry.item } })

theorem cancelTraverse_eq (work : DelayedWork β δ) (src : TracedItem β δ) :
    Threads.cancelTraverse work src =
      { src with item := workCancelTraverse ⟨work.cb, work.data⟩ src.item } := by
  rw [Threads.cancelTraverse, workCancelTraverse]
  split_ifs
  · rfl
  · rfl

def WorkItem.cancelOnly (cb : β) (data : δ) (item : WorkItem β δ) : WorkItem β δ :=
  if item.cb = some cb ∧ item.data = some data then { item with cb := none } else item

/-- An item that still has a callback agrees in both, the callback and the data, or in none. -/
def AgreesWhole (cb : β) (data : δ) (item : WorkItem β δ) : Prop :=
  ∀ x, item.cb = some x → (x = cb ↔ item.data = some data)

theorem workCancelTraverse_eq_iff (cb : β) (data : δ) (item : WorkItem β δ) :
    workCancelTraverse ⟨some cb, some data⟩ item = item.cancelOnly cb data ↔
      AgreesWhole cb data item := by
  obtain ⟨_ | x, d⟩ := item
  · -- it has been disabled before
    refine iff_of_true ?_ fun x hx => by cases hx
    have hkeep : WorkItem.cancelOnly cb data ⟨none, d⟩ = ⟨none, d⟩ := if_neg fun h => by cases h.1
    rw [hkeep]
    exact ite_self _
  · have hagrees : AgreesWhole cb data ⟨some x, d⟩ ↔ (x = cb ↔ d = some data) :=
      ⟨fun h => h x rfl, fun h y hy => by cases hy; exact h⟩
    rw [hagrees, workCancelTraverse, WorkItem.cancelOnly]
    have hcomm : some cb = some x ↔ x = cb := by rw [Option.some.injEq, eq_comm]
    have hdata : some data = d ↔ d = some data := eq_comm
    by_cases h₁ : x = cb <;> by_cases h₂ : d = some data
    all_goals simp [hcomm, hdata, h₁, h₂]

end Functions

/-! ### What the work thread executes -/

namespace WorkQueue

section Serve

variable [DecidableEq τ]

/-- The work thread serves `n` items: each time it waits, takes an item and invokes it. -/
def serve (w : WorkQueue τ β δ) (n : Nat) : WorkQueue τ β δ :=
  (List.replicate n [.wait false, .output, .invoke]).flatten.foldl workStep w

/-- The work thread waits, and the semaphore has been posted for every item. -/
structure Settled (w : WorkQueue τ β δ) : Prop where
  thread : w.thread = .wait
  posted : w.semCount = w.queue.items.length

theorem Settled.serve_one {w : WorkQueue τ β δ} {entry : Entry β δ} {rest : List (Entry β δ)}
    (h : w.Settled) (hitems : w.queue.items = entry :: rest) :
    (w.serve 1).Settled ∧ (w.serve 1).queue.items = rest ∧
      (w.serve 1).executed = w.executed ++ if entry.item.cb.isSome then [entry] else [] := by
  have hcount : w.semCount = rest.length + 1 := by rw [h.posted, hitems, List.length_cons]
  obtain ⟨-, hentry, hrest, -⟩ := tuyaQueueOutput_of_cons hitems
  have hwait : w.wait false = { w with semCount := rest.length, thread := .output } := by
    rw [WorkQueue.wait, h.thread]
    dsimp only
    rw [if_pos ⟨rfl, by omega⟩, hcount, Nat.add_sub_cancel]
  have hserve : w.serve 1 = ((w.wait false).output).invoke := rfl
  rw [hserve, hwait, WorkQueue.output]
  dsimp only
  rw [hentry, WorkQueue.invoke]
  dsimp only
  split_ifs
  · exact ⟨⟨rfl, by rw [hrest]⟩, hrest, rfl⟩
  · exact ⟨⟨rfl, by rw [hrest]⟩, hrest, (List.append_nil _).symm⟩

theorem serve_succ (w : WorkQueue τ β δ) (n : Nat) : w.serve (n + 1) = (w.serve 1).serve n := by
  rw [serve, serve, serve, List.replicate_succ, List.flatten_cons, List.foldl_append]
  rfl

theorem executed_serve {w : WorkQueue τ β δ} (h : w.Settled) :
    (w.serve w.queue.items.length).executed =
      w.executed ++ w.queue.items.filter fun entry => entry.item.cb.isSome := by
  generalize hitems : w.queue.items = items
  induction items generalizing w with
  | nil => exact (List.append_nil _).symm
  | cons entry rest ih =>
    obtain ⟨hsettled, hrest, hexecuted⟩ := h.serve_one hitems
    rw [List.length_cons, serve_succ, ih hsettled hrest, hexecuted, List.filter_cons,
      List.append_assoc]
    split_ifs
    · rfl
    · rfl

end Serve

end WorkQueue

/-! ### Which queues are cancelled rightly -/

section Cancel

variable [DecidableEq τ] [DecidableEq β] [DecidableEq δ]

/-- Exactly the items with the callback and the data are disabled, and the work thread still
executes all others. -/
structure CancelsOnly (w : WorkQueue τ β δ) (cb : β) (data : δ) : Prop where
  ok : (talWorkqueueCancel w (some cb) (some data)).1 = oprtOk
  items : (talWorkqueueCancel w (some cb) (some data)).2.queue.items =
    w.queue.items.map fun entry => { entry with item := entry.item.cancelOnly cb data }
  executed : w.Settled →
    ((talWorkqueueCancel w (some cb) (some data)).2.serve w.queue.items.length).executed =
      w.executed ++ w.queue.items.filter fun entry =>
        entry.item.cb.isSome ∧ ¬(entry.item.cb = some cb ∧ entry.item.data = some data)

theorem filter_map_cancelOnly (cb : β) (data : δ) (items : List (Entry β δ)) :
    (items.map fun entry => { entry with item := entry.item.cancelOnly cb data }).filter
        (fun entry => entry.item.cb.isSome) =
      items.filter fun entry =>
        entry.item.cb.isSome ∧ ¬(entry.item.cb = some cb ∧ entry.item.data = some data) := by
  induction items with
  | nil => rfl
  | cons entry items ih =>
    rw [List.map_cons, List.filter_cons, List.filter_cons, ih]
    by_cases hmatch : entry.item.cb = some cb ∧ entry.item.data = some data
    · have hnone : (entry.item.cancelOnly cb data).cb = none := by
        rw [WorkItem.cancelOnly, if_pos hmatch]
      rw [hnone, if_neg (by simp), if_neg (by simp [hmatch])]
    · have hsame : entry.item.cancelOnly cb data = entry.item := if_neg hmatch
      rw [hsame]
      simp only [hmatch, not_false_eq_true, and_true, Bool.decide_eq_true]

theorem cancelsOnly_iff (w : WorkQueue τ β δ) (cb : β) (data : δ) :
    CancelsOnly w cb data ↔ ∀ entry ∈ w.queue.items, AgreesWhole cb data entry.item := by
  have hcancel : talWorkqueueCancel w (some cb) (some data) =
      (oprtOk, { w with
        queue := tuyaQueueTraverse w.queue fun entry =>
          { entry with item := workCancelTraverse ⟨some cb, some data⟩ entry.item } }) :=
    if_neg (by simp)
  have hitems : (talWorkqueueCancel w (some cb) (some data)).2.queue.items =
      w.queue.items.map fun entry =>
        { entry with item := workCancelTraverse ⟨some cb, some data⟩ entry.item } := by
    rw [hcancel]
    rfl
  have hiff : (talWorkqueueCancel w (some cb) (some data)).2.queue.items =
      (w.queue.items.map fun entry => { entry with item := entry.item.cancelOnly cb data }) ↔
        ∀ entry ∈ w.queue.items, AgreesWhole cb data entry.item := by
    rw [hitems, List.map_inj_left]
    refine forall₂_congr fun entry _ => ?_
    rw [← workCancelTraverse_eq_iff, Entry.mk.injEq]
    simp only [true_and]
  refine ⟨fun h => hiff.1 h.items, fun h => ⟨by rw [hcancel], hiff.2 h, fun hsettled => ?_⟩⟩
  have hsame := hiff.2 h
  have hsettled' : (talWorkqueueCancel w (some cb) (some data)).2.Settled := by
    refine ⟨by rw [hcancel]; exact hsettled.thread, ?_⟩
    rw [hsame, List.length_map, ← hsettled.posted, hcancel]
  have hexecuted := WorkQueue.executed_serve hsettled'
  rw [hsame, List.length_map, filter_map_cancelOnly] at hexecuted
  rw [hexecuted, hcancel]

/-- The cancel of a delayed work disables exactly the items with its callback and its data, whoever
has put them in the queue, and leaves the other queues as they are. -/
def DelayedCancelsOnly (s : Threads τ κ β δ) (n : Nat) (cb : β) (data : δ) (handle : Nat) : Prop :=
  ∀ h, (s.cancelQueue n h).items =
    if h = handle then
      (s.queues h).items.map fun traced => { traced with item := traced.item.cancelOnly cb data }
    else (s.queues h).items

omit [DecidableEq τ] in
theorem delayedCancelsOnly_iff {s : Threads τ κ β δ} {n handle : Nat} {cb : β} {data : δ}
    (hwork : s.works n = some ⟨some cb, some data, handle⟩) :
    DelayedCancelsOnly s n cb data handle ↔
      ∀ traced ∈ (s.queues handle).items, AgreesWhole cb data traced.item := by
  have hitems (h : Nat) : (s.cancelQueue n h).items =
      if h = handle then
        (s.queues h).items.map fun traced =>
          { traced with item := workCancelTraverse ⟨some cb, some data⟩ traced.item }
      else (s.queues h).items := by
    rw [Threads.cancelQueue, hwork]
    dsimp only
    rw [if_neg (by simp), Function.update_apply]
    split_ifs with hh
    · rw [hh]
      exact List.map_congr_left fun traced _ => cancelTraverse_eq _ traced
    · rfl
  have hiff : ((s.queues handle).items.map fun traced =>
        { traced with item := workCancelTraverse ⟨some cb, some data⟩ traced.item }) =
      ((s.queues handle).items.map fun traced =>
        { traced with item := traced.item.cancelOnly cb data }) ↔
        ∀ traced ∈ (s.queues handle).items, AgreesWhole cb data traced.item := by
    rw [List.map_inj_left]
    refine forall₂_congr fun traced _ => ?_
    rw [← workCancelTraverse_eq_iff, TracedItem.mk.injEq]
    simp only [and_true]
  constructor
  · intro hcancels
    have hhandle := hcancels handle
    rw [hitems, if_pos rfl, if_pos rfl] at hhandle
    exact hiff.1 hhandle
  · intro hagrees h
    rw [hitems]
    split_ifs with hh
    · rw [hh]
      exact hiff.2 hagrees
    · rfl

/-- **Cancelling work.** Cancelling by callback and data, and cancelling a delayed work, disable
exactly the items with both if and only if every item of the queue that has a callback agrees in
both or in none. -/
theorem cancels_iff :
    (∀ (w : WorkQueue τ β δ) (cb : β) (data : δ),
      CancelsOnly w cb data ↔ ∀ entry ∈ w.queue.items, AgreesWhole cb data entry.item) ∧
    ∀ (s : Threads τ κ β δ) (n handle : Nat) (cb : β) (data : δ),
      s.works n = some ⟨some cb, some data, handle⟩ →
        (DelayedCancelsOnly s n cb data handle ↔
          ∀ traced ∈ (s.queues handle).items, AgreesWhole cb data traced.item) :=
  ⟨cancelsOnly_iff, fun _ _ _ _ _ => delayedCancelsOnly_iff⟩

end Cancel

/-- A queue with one item of the callback `0` and the data `1`, which another user has scheduled. -/
def otherUser : WorkQueue Nat Nat Nat :=
  ⟨⟨4, 3, [⟨0, false, ⟨some 0, some 1⟩⟩], rfl⟩, 1, 4, [], .wait, [], [], [], []⟩

/-- Two delayed works with the callback `0`, and the item of the second one in the queue. -/
def twoDelayed : Threads Nat Nat Nat Nat :=
  { threadsInit ⟨0, 0⟩ fun _ => 4 with
    works := fun n => if n = 0 then some ⟨some 0, some 0, 0⟩ else some ⟨some 0, some 1, 0⟩
    queues := fun _ => ⟨4, 3, [⟨⟨some 0, some 1⟩, some 1⟩], rfl⟩ }

theorem cancels_iff_twoDelayed :
    (CancelsOnly otherUser 1 2 ↔ ∀ entry ∈ otherUser.queue.items, AgreesWhole 1 2 entry.item) ∧
      (DelayedCancelsOnly twoDelayed 0 0 0 0 ↔
        ∀ traced ∈ (twoDelayed.queues 0).items, AgreesWhole 0 0 traced.item) :=
  ⟨(cancels_iff (κ := Nat)).1 otherUser 1 2, (cancels_iff (τ := Nat)).2 twoDelayed 0 0 0 0 rfl⟩

/-- The item of the other user is disabled, and the work thread does not execute it. -/
theorem not_cancelsOnly_otherUser :
    ¬CancelsOnly otherUser 0 2 ∧
      ((talWorkqueueCancel otherUser (some 0) (some 2)).2.serve 1).executed = [] ∧
      ¬DelayedCancelsOnly twoDelayed 0 0 0 0 := by
  refine ⟨fun h => ?_, rfl, fun h => ?_⟩
  · have hitems := h.items
    cases hitems
  · have hitems := h 0
    cases hitems

end TuyaOpen.System
