import TuyaOpen.Basic.Bytes
import TuyaOpen.Common.OperateRet

/-!
# The bounded queue

`tuya_queue.c`: a list of items with a count of the places that are free. Every function takes the
mutex of the queue, so that a call is one step.
-/

namespace TuyaOpen.Utilities

variable {α : Type*}

/-- `TUYA_QUEUE_T`. -/
@[ext]
structure TuyaQueue (α : Type*) where
  queueLen : Nat
  queueFree : Nat
  /-- The items of `head`, the first one first. -/
  items : List α
  count : items.length + queueFree = queueLen

/-- `ENQUEUE_POLICY_E`. -/
inductive EnqueuePolicy
  | sendToBack
  | sendToFront
  deriving DecidableEq

namespace TuyaQueue

def place (items : List α) (item : α) : EnqueuePolicy → List α
  | .sendToBack => items ++ [item]
  | .sendToFront => item :: items

theorem length_place (items : List α) (item : α) (policy : EnqueuePolicy) :
    (place items item policy).length = items.length + 1 := by
  cases policy with
  | sendToBack => rw [place, List.length_append, List.length_singleton]
  | sendToFront => rw [place, List.length_cons]

theorem count_place (queue : TuyaQueue α) (h : 0 < queue.queueFree) (item : α)
    (policy : EnqueuePolicy) :
    (place queue.items item policy).length + (queue.queueFree - 1) = queue.queueLen := by
  have hcount := queue.count
  rw [length_place]
  omega

theorem items_ne_nil (queue : TuyaQueue α) (h : queue.queueFree < queue.queueLen) :
    queue.items ≠ [] := by
  intro hnil
  have hcount := queue.count
  rw [hnil, List.length_nil] at hcount
  omega

theorem count_tail (queue : TuyaQueue α) (h : queue.queueFree < queue.queueLen) :
    queue.items.tail.length + (queue.queueFree + 1) = queue.queueLen := by
  have hcount := queue.count
  have hpos := List.length_pos_of_ne_nil (queue.items_ne_nil h)
  rw [List.length_tail]
  omega

theorem count_map (queue : TuyaQueue α) (f : α → α) :
    (queue.items.map f).length + queue.queueFree = queue.queueLen := by
  rw [List.length_map]
  exact queue.count

theorem count_nil (queueLen : Nat) : ([] : List α).length + queueLen = queueLen :=
  Nat.zero_add queueLen

end TuyaQueue

/-- `tuya_queue_create`. -/
def tuyaQueueCreate (queueLen : Nat) (malloc : Bool) : Except OperateRet (TuyaQueue α) :=
  if queueLen = 0 then .error oprtInvalidParm
  else if malloc then .ok ⟨queueLen, queueLen, [], TuyaQueue.count_nil queueLen⟩
  else .error oprtMallocFailed

/-- `__enqueue`: `malloc` says whether the memory of the item has been allocated. -/
def enqueue (queue : TuyaQueue α) (item : α) (policy : EnqueuePolicy) (malloc : Bool) :
    OperateRet × TuyaQueue α :=
  if malloc then
    if h : 0 < queue.queueFree then
      (oprtOk, ⟨queue.queueLen, queue.queueFree - 1, TuyaQueue.place queue.items item policy,
        queue.count_place h item policy⟩)
    else (oprtExceedUpperLimit, queue)
  else (oprtMallocFailed, queue)

/-- `tuya_queue_input`. -/
def tuyaQueueInput (queue : TuyaQueue α) (item : α) (malloc : Bool) : OperateRet × TuyaQueue α :=
  enqueue queue item .sendToBack malloc

/-- `tuya_queue_input_instant`. -/
def tuyaQueueInputInstant (queue : TuyaQueue α) (item : α) (malloc : Bool) :
    OperateRet × TuyaQueue α :=
  enqueue queue item .sendToFront malloc

/-- `tuya_queue_output`. -/
def tuyaQueueOutput (queue : TuyaQueue α) : OperateRet × Option α × TuyaQueue α :=
  if h : queue.queueFree < queue.queueLen then
    (oprtOk, some (queue.items.head (queue.items_ne_nil h)),
      ⟨queue.queueLen, queue.queueFree + 1, queue.items.tail, queue.count_tail h⟩)
  else (oprtNotFound, none, queue)

/-- `tuya_queue_traverse` with a callback that goes on to the end: `f` is what the callback does to
an item. -/
def tuyaQueueTraverse (queue : TuyaQueue α) (f : α → α) : TuyaQueue α :=
  ⟨queue.queueLen, queue.queueFree, queue.items.map f, queue.count_map f⟩

section Outcomes

variable {queue : TuyaQueue α}

theorem enqueue_of_room (h : queue.items.length < queue.queueLen) (item : α)
    (policy : EnqueuePolicy) :
    (enqueue queue item policy true).1 = oprtOk ∧
      (enqueue queue item policy true).2.items = TuyaQueue.place queue.items item policy ∧
      (enqueue queue item policy true).2.queueLen = queue.queueLen := by
  have hcount := queue.count
  have hfree : 0 < queue.queueFree := by omega
  rw [enqueue, if_pos rfl, dif_pos hfree]
  exact ⟨rfl, rfl, rfl⟩

theorem enqueue_of_full (h : queue.queueLen ≤ queue.items.length) (item : α)
    (policy : EnqueuePolicy) :
    enqueue queue item policy true = (oprtExceedUpperLimit, queue) := by
  have hcount := queue.count
  rw [enqueue, if_pos rfl, dif_neg (by omega)]

theorem enqueue_of_malloc_failed (queue : TuyaQueue α) (item : α) (policy : EnqueuePolicy) :
    enqueue queue item policy false = (oprtMallocFailed, queue) := by
  rw [enqueue, if_neg Bool.false_ne_true]

theorem enqueue_cases (queue : TuyaQueue α) (item : α) (policy : EnqueuePolicy) (malloc : Bool) :
    ((enqueue queue item policy malloc).1 = oprtOk ∧ queue.items.length < queue.queueLen ∧
        (enqueue queue item policy malloc).2.items = TuyaQueue.place queue.items item policy ∧
        (enqueue queue item policy malloc).2.queueLen = queue.queueLen) ∨
      ((enqueue queue item policy malloc).1 ≠ oprtOk ∧
        (enqueue queue item policy malloc).2 = queue) := by
  cases malloc with
  | false =>
    rw [enqueue_of_malloc_failed]
    exact Or.inr ⟨oprtMallocFailed_ne_ok, rfl⟩
  | true =>
    rcases Nat.lt_or_ge queue.items.length queue.queueLen with hroom | hfull
    · obtain ⟨hok, hitems, hlen⟩ := enqueue_of_room hroom item policy
      exact Or.inl ⟨hok, hroom, hitems, hlen⟩
    · rw [enqueue_of_full hfull]
      exact Or.inr ⟨oprtExceedUpperLimit_ne_ok, rfl⟩

theorem tuyaQueueOutput_of_cons {item : α} {rest : List α} (h : queue.items = item :: rest) :
    (tuyaQueueOutput queue).1 = oprtOk ∧ (tuyaQueueOutput queue).2.1 = some item ∧
      (tuyaQueueOutput queue).2.2.items = rest ∧
      (tuyaQueueOutput queue).2.2.queueLen = queue.queueLen := by
  have hcount := queue.count
  have hlt : queue.queueFree < queue.queueLen := by
    rw [h, List.length_cons] at hcount
    omega
  rw [tuyaQueueOutput, dif_pos hlt]
  refine ⟨rfl, ?_, ?_, rfl⟩
  · simp only [h, List.head_cons]
  · simp only [h, List.tail_cons]

theorem mem_of_tuyaQueueOutput_eq {item : α} (h : (tuyaQueueOutput queue).2.1 = some item) :
    item ∈ queue.items := by
  rw [tuyaQueueOutput] at h
  split_ifs at h with hlt
  cases h
  exact List.head_mem _

theorem mem_of_mem_tuyaQueueOutput {item : α} (h : item ∈ (tuyaQueueOutput queue).2.2.items) :
    item ∈ queue.items := by
  rw [tuyaQueueOutput] at h
  split_ifs at h with hlt
  · exact List.mem_of_mem_tail h
  · exact h

end Outcomes

end TuyaOpen.Utilities
