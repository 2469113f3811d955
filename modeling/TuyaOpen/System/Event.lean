import TuyaOpen.Basic.Bytes
import TuyaOpen.Basic.Transition
import TuyaOpen.Common.OperateRet
import Mathlib.Data.List.Nodup

/-!
# Events

`tal_event.c`: an event has a list of subscribers. A subscriber to an event that does not exist waits
in the free list, and the first publish of the event creates it and moves the subscribers that wait
for it to its list.

A call looks up the event without a lock. What it then does with the free list, with the list of the
event or with the root of the events is under a mutex. The steps of the threads come in any order,
so that the event may have been created after a call has not found it.
-/

namespace TuyaOpen.System

variable {τ β : Type}

/-! ### The state -/

/-- `SUBSCRIBE_NODE_T`. The callback may be a null pointer. -/
structure Subscribe (β : Type) where
  name : Bytes
  desc : Bytes
  type : UInt8
  cb : Option β
  deriving DecidableEq

structure Ident (β : Type) where
  name : Bytes
  desc : Bytes
  cb : Option β
  deriving DecidableEq

def Subscribe.ident (s : Subscribe β) : Ident β := ⟨s.name, s.desc, s.cb⟩

/-- `SUBSCRIBE_TYPE_EMERGENCY`. -/
def subscribeTypeEmergency : UInt8 := 1

/-- `SUBSCRIBE_TYPE_ONETIME`. -/
def subscribeTypeOnetime : UInt8 := 2

/-- What remains to be done of a call. An event is named by its place in the root. -/
inductive EventCall (β : Type)
  /-- `tal_event_subscribe` has looked up the event. -/
  | subscribe (subscribe : Subscribe β) (event : Option Nat)
  /-- `tal_event_unsubscribe` has looked up the event. -/
  | unsubscribe (subscribe : Subscribe β) (event : Option Nat)
  /-- `tal_event_publish` has not found the event: `before` are the subscriptions that had been made
  when it started. -/
  | create (name : Bytes) (before : List (Ident β))
  /-- `tal_event_publish` has the event. -/
  | dispatch (event : Nat) (name : Bytes) (before : List (Ident β))

/-- `EVENT_MANAGE_T`, with the calls of the threads. -/
structure EventManager (τ β : Type) where
  /-- The names of the events. -/
  eventRoot : List Bytes
  /-- The subscribers of the event at a place of the root. -/
  subscribeRoot : Nat → List (Subscribe β)
  freeSubscribeRoot : List (Subscribe β)
  calls : τ → Option (EventCall β)
  owed : List (Ident β)
  missed : List (Ident β)

/-- `tal_event_init`. -/
def talEventInit : EventManager τ β :=
  ⟨[], fun _ => [], [], fun _ => none, [], []⟩

/-! ### The functions -/

/-- `_event_name_is_valid`: the length of the name is at most `EVENT_NAME_MAX_LEN`. -/
def eventNameIsValid (name : Bytes) : Bool := name.length ≤ 16 && 0 < name.length

/-- `_event_desc_is_valid`: the length of the description is at most `EVENT_DESC_MAX_LEN`. -/
def eventDescIsValid (desc : Bytes) : Bool := desc.length ≤ 32 && 0 < desc.length

/-- The checks of `tal_event_subscribe` and `tal_event_unsubscribe`: a call that does not pass them
returns the code. -/
def subscribeCheck (s : Subscribe β) : OperateRet :=
  if !eventDescIsValid s.desc then oprtBaseEventInvalidEventDesc
  else if !eventNameIsValid s.name then oprtBaseEventInvalidEventName
  else oprtOk

section Functions

variable [DecidableEq β]

/-- The comparison of `_event_node_get_free_subscribe`. -/
def sameFree (s entry : Subscribe β) : Bool :=
  entry.name = s.name ∧ entry.desc = s.desc ∧ entry.cb = s.cb

/-- The comparison of `_event_node_get_subscribe`. -/
def sameSubscribe (s entry : Subscribe β) : Bool :=
  entry.desc = s.desc ∧ entry.cb = s.cb

/-- A subscriber comes first in the list if it is an emergency, and last if not. -/
def addByType (l : List (Subscribe β)) (s : Subscribe β) : List (Subscribe β) :=
  if s.type = subscribeTypeEmergency then s :: l else l ++ [s]

/-- `_event_node_add_free_subscribe`: the return value, and the list. -/
def eventNodeAddFreeSubscribe (free : List (Subscribe β)) (s : Subscribe β) (malloc : Bool) :
    OperateRet × List (Subscribe β) :=
  if free.any (sameFree s) then (oprtOk, free)
  else if malloc then (oprtOk, free ++ [s])
  else (oprtMallocFailed, free)

/-- `_event_node_add_subscribe`: the return value, and the list. -/
def eventNodeAddSubscribe (l : List (Subscribe β)) (s : Subscribe β) (malloc : Bool) :
    OperateRet × List (Subscribe β) :=
  if l.any (sameSubscribe s) then (oprtOk, l)
  else if malloc then (oprtOk, addByType l s)
  else (oprtMallocFailed, l)

/-- `_event_node_del_free_subscribe`. -/
def eventNodeDelFreeSubscribe (free : List (Subscribe β)) (s : Subscribe β) : List (Subscribe β) :=
  free.eraseP (sameFree s)

/-- `_event_node_del_subscribe`. -/
def eventNodeDelSubscribe (l : List (Subscribe β)) (s : Subscribe β) : List (Subscribe β) :=
  l.eraseP (sameSubscribe s)

/-- The subscribers that `_event_node_create_init` moves to the list of a new event. -/
def migrate (free : List (Subscribe β)) (name : Bytes) : List (Subscribe β) :=
  (free.filter fun s => s.name = name).foldl addByType []

/-- The subscribers that `_event_node_dispatch` invokes. -/
def invoked (l : List (Subscribe β)) : List (Subscribe β) :=
  l.filter fun s => s.cb.isSome

/-- The subscribers that `_event_node_dispatch` leaves in the list. -/
def remaining (l : List (Subscribe β)) : List (Subscribe β) :=
  l.filter fun s => s.type ≠ subscribeTypeOnetime

/-- The subscriptions that `_event_node_dispatch` consumes. -/
def consumed (l : List (Subscribe β)) : List (Ident β) :=
  (l.filter fun s => s.type = subscribeTypeOnetime).map Subscribe.ident

end Functions

namespace EventManager

/-- `_event_node_get`. -/
def eventNodeGet (m : EventManager τ β) (name : Bytes) : Option Nat :=
  m.eventRoot.findIdx? fun n => n = name

/-! ### The steps -/

section Steps

variable [DecidableEq τ] [DecidableEq β]

def setCall (m : EventManager τ β) (t : τ) (call : Option (EventCall β)) : EventManager τ β :=
  { m with calls := Function.update m.calls t call }

/-- `tal_event_subscribe` until the event has been looked up. -/
def subscribeBegin (m : EventManager τ β) (t : τ) (s : Subscribe β) : EventManager τ β :=
  if subscribeCheck s = oprtOk then
    m.setCall t (some (.subscribe s (m.eventNodeGet s.name)))
  else m

/-- `tal_event_unsubscribe` until the event has been looked up. -/
def unsubscribeBegin (m : EventManager τ β) (t : τ) (s : Subscribe β) : EventManager τ β :=
  if subscribeCheck s = oprtOk then
    m.setCall t (some (.unsubscribe s (m.eventNodeGet s.name)))
  else m

/-- `tal_event_publish` until the event has been looked up. -/
def publishBegin (m : EventManager τ β) (t : τ) (name : Bytes) : EventManager τ β :=
  let before := m.owed.filter fun x => x.name = name
  if eventNameIsValid name then
    match m.eventNodeGet name with
    | none => m.setCall t (some (.create name before))
    | some event => m.setCall t (some (.dispatch event name before))
  else m

/-- A subscription has been made. One without a callback has nothing to be invoked. -/
def owe (m : EventManager τ β) (s : Subscribe β) (rt : OperateRet) : EventManager τ β :=
  if rt = oprtOk ∧ s.cb.isSome then { m with owed := s.ident :: m.owed } else m

/-- The subscriptions that had been made when a publish started, that are still owed, and that it has
not invoked exactly once. -/
def miss (m : EventManager τ β) (before : List (Ident β)) (done : List (Subscribe β)) :
    List (Ident β) :=
  before.filter fun x => x ∈ m.owed ∧ done.countP (fun s => s.ident = x) ≠ 1

def next (m : EventManager τ β) (t : τ) (malloc : Bool) : EventManager τ β :=
  match m.calls t with
  | none => m
  | some (.subscribe s none) =>
    let r := eventNodeAddFreeSubscribe m.freeSubscribeRoot s malloc
    EventManager.owe { m.setCall t none with freeSubscribeRoot := r.2 } s r.1
  | some (.subscribe s (some event)) =>
    let r := eventNodeAddSubscribe (m.subscribeRoot event) s malloc
    EventManager.owe { m.setCall t none with
      subscribeRoot := Function.update m.subscribeRoot event r.2 } s r.1
  | some (.unsubscribe s none) =>
    { m.setCall t none with
      freeSubscribeRoot := eventNodeDelFreeSubscribe m.freeSubscribeRoot s
      owed := m.owed.filter fun x => x ≠ s.ident }
  | some (.unsubscribe s (some event)) =>
    { m.setCall t none with
      subscribeRoot := Function.update m.subscribeRoot event
        (eventNodeDelSubscribe (m.subscribeRoot event) s)
      owed := m.owed.filter fun x => x ≠ s.ident }
  | some (.create name before) =>
    if malloc then
      { m.setCall t (some (.dispatch m.eventRoot.length name before)) with
        eventRoot := m.eventRoot ++ [name]
        subscribeRoot := Function.update m.subscribeRoot m.eventRoot.length
          (migrate m.freeSubscribeRoot name)
        freeSubscribeRoot := m.freeSubscribeRoot.filter fun s => s.name ≠ name }
    else { m.setCall t none with missed := m.missed ++ m.miss before [] }
  | some (.dispatch event _ before) =>
    let l := m.subscribeRoot event
    { m.setCall t none with
      subscribeRoot := Function.update m.subscribeRoot event (remaining l)
      owed := m.owed.filter fun x => x ∉ consumed l
      missed := m.missed ++ m.miss before (invoked l) }

end Steps

end EventManager

inductive EventStep (τ β : Type)
  | subscribeBegin (t : τ) (s : Subscribe β)
  | unsubscribeBegin (t : τ) (s : Subscribe β)
  | publishBegin (t : τ) (name : Bytes)
  | next (t : τ) (malloc : Bool)

section Step

variable [DecidableEq τ] [DecidableEq β]

def eventStep (m : EventManager τ β) : EventStep τ β → EventManager τ β
  | .subscribeBegin t s => if (m.calls t).isSome then m else m.subscribeBegin t s
  | .unsubscribeBegin t s => if (m.calls t).isSome then m else m.unsubscribeBegin t s
  | .publishBegin t name => if (m.calls t).isSome then m else m.publishBegin t name
  | .next t malloc => m.next t malloc

def StaleCall (m : EventManager τ β) (malloc : Bool) : Option (EventCall β) → Prop
  | some (.subscribe s none) => s.name ∉ m.eventRoot
  | some (.create name _) => name ∉ m.eventRoot ∧ malloc = true
  | _ => True

instance (m : EventManager τ β) (malloc : Bool) :
    (call : Option (EventCall β)) → Decidable (StaleCall m malloc call)
  | none => inferInstanceAs (Decidable True)
  | some (.subscribe s none) => inferInstanceAs (Decidable (s.name ∉ m.eventRoot))
  | some (.subscribe _ (some _)) => inferInstanceAs (Decidable True)
  | some (.unsubscribe _ _) => inferInstanceAs (Decidable True)
  | some (.create name _) => inferInstanceAs (Decidable (name ∉ m.eventRoot ∧ malloc = true))
  | some (.dispatch _ _ _) => inferInstanceAs (Decidable True)

/-- The condition on a step: when a call that has not found an event puts a subscriber in the free
list or creates the event, there is still no such event; and the memory of an event is there. -/
def StaleCond (m : EventManager τ β) : EventStep τ β → Prop
  | .next t malloc => StaleCall m malloc (m.calls t)
  | _ => True

instance (m : EventManager τ β) : (ev : EventStep τ β) → Decidable (StaleCond m ev)
  | .subscribeBegin _ _ => inferInstanceAs (Decidable True)
  | .unsubscribeBegin _ _ => inferInstanceAs (Decidable True)
  | .publishBegin _ _ => inferInstanceAs (Decidable True)
  | .next t malloc => inferInstanceAs (Decidable (StaleCall m malloc (m.calls t)))

end Step

/-! ### The lists of subscribers -/

section Comparison

variable [DecidableEq β]

theorem sameFree_iff {s entry : Subscribe β} : sameFree s entry = true ↔ entry.ident = s.ident := by
  rw [sameFree, decide_eq_true_iff, Subscribe.ident, Subscribe.ident, Ident.mk.injEq]

theorem sameSubscribe_iff {s entry : Subscribe β} (h : entry.name = s.name) :
    sameSubscribe s entry = true ↔ entry.ident = s.ident := by
  rw [sameSubscribe, decide_eq_true_iff, Subscribe.ident, Subscribe.ident, Ident.mk.injEq]
  exact ⟨fun hs => ⟨h, hs⟩, And.right⟩

end Comparison

section Lists

theorem perm_addByType (l : List (Subscribe β)) (s : Subscribe β) :
    (addByType l s).Perm (s :: l) := by
  rw [addByType]
  split_ifs with htype
  · exact List.Perm.refl _
  · exact List.perm_append_singleton s l

theorem perm_foldl_addByType (acc l : List (Subscribe β)) :
    (l.foldl addByType acc).Perm (l ++ acc) := by
  induction l generalizing acc with
  | nil => exact List.Perm.refl _
  | cons s l ih =>
    rw [List.foldl_cons]
    exact (ih _).trans (((perm_addByType acc s).append_left l).trans List.perm_middle)

theorem perm_migrate (free : List (Subscribe β)) (name : Bytes) :
    (migrate free name).Perm (free.filter fun s => s.name = name) := by
  have hperm := perm_foldl_addByType [] (free.filter fun s => s.name = name)
  rwa [List.append_nil] at hperm

def Single (l : List (Subscribe β)) : Prop :=
  (l.map Subscribe.ident).Nodup

theorem Single.perm {l l' : List (Subscribe β)} (h : Single l) (hperm : l'.Perm l) : Single l' :=
  (hperm.map Subscribe.ident).nodup_iff.2 h

theorem Single.sublist {l l' : List (Subscribe β)} (h : Single l) (hsub : l'.Sublist l) :
    Single l' :=
  List.Nodup.sublist (hsub.map Subscribe.ident) h

/-- What adding a subscriber does: it is there already, or it comes into the list, or the call
fails. -/
structure Added (l : List (Subscribe β)) (s : Subscribe β) (r : OperateRet × List (Subscribe β)) :
    Prop where
  mem : r.1 = oprtOk → ∃ e ∈ r.2, e.ident = s.ident
  subset : ∀ e ∈ l, e ∈ r.2
  of_mem : ∀ e ∈ r.2, e ∈ l ∨ e = s
  single : Single l → Single r.2

theorem Added.of_same {l : List (Subscribe β)} {s : Subscribe β} {rt : OperateRet}
    (h : rt = oprtOk → ∃ e ∈ l, e.ident = s.ident) : Added l s (rt, l) :=
  ⟨h, fun _ he => he, fun _ he => Or.inl he, fun hl => hl⟩

theorem Added.of_perm {l l' : List (Subscribe β)} {s : Subscribe β} (h : l'.Perm (s :: l))
    (hnew : ∀ e ∈ l, e.ident ≠ s.ident) : Added l s (oprtOk, l') where
  mem _ := ⟨s, h.mem_iff.2 List.mem_cons_self, rfl⟩
  subset e he := h.mem_iff.2 (List.mem_cons_of_mem s he)
  of_mem e he := (List.mem_cons.1 (h.mem_iff.1 he)).symm
  single hl := by
    have hcons : Single (s :: l) := by
      rw [Single, List.map_cons]
      refine List.nodup_cons.2 ⟨fun hmem => ?_, hl⟩
      obtain ⟨e, he, heq⟩ := List.mem_map.1 hmem
      exact hnew e he heq
    exact hcons.perm h

variable [DecidableEq β]

theorem added_eventNodeAddFreeSubscribe (free : List (Subscribe β)) (s : Subscribe β)
    (malloc : Bool) : Added free s (eventNodeAddFreeSubscribe free s malloc) := by
  rw [eventNodeAddFreeSubscribe]
  split_ifs with hany hmalloc
  · obtain ⟨e, he, hsame⟩ := List.any_eq_true.1 hany
    exact Added.of_same fun _ => ⟨e, he, sameFree_iff.1 hsame⟩
  · refine Added.of_perm (List.perm_append_singleton s free) fun e he heq => hany ?_
    exact List.any_eq_true.2 ⟨e, he, sameFree_iff.2 heq⟩
  · exact Added.of_same fun hok => absurd hok oprtMallocFailed_ne_ok

theorem added_eventNodeAddSubscribe {l : List (Subscribe β)} {s : Subscribe β}
    (hname : ∀ e ∈ l, e.name = s.name) (malloc : Bool) :
    Added l s (eventNodeAddSubscribe l s malloc) := by
  rw [eventNodeAddSubscribe]
  split_ifs with hany hmalloc
  · obtain ⟨e, he, hsame⟩ := List.any_eq_true.1 hany
    exact Added.of_same fun _ => ⟨e, he, (sameSubscribe_iff (hname e he)).1 hsame⟩
  · refine Added.of_perm (perm_addByType l s) fun e he heq => hany ?_
    exact List.any_eq_true.2 ⟨e, he, (sameSubscribe_iff (hname e he)).2 heq⟩
  · exact Added.of_same fun hok => absurd hok oprtMallocFailed_ne_ok

theorem countP_invoked {l : List (Subscribe β)} (h : Single l) {s : Subscribe β} (hs : s ∈ l)
    (hcb : s.cb.isSome) : (invoked l).countP (fun e => e.ident = s.ident) = 1 := by
  have hmem : s ∈ invoked l := List.mem_filter.2 ⟨hs, hcb⟩
  have hsingle : Single (invoked l) := h.sublist List.filter_sublist
  have hcount := List.count_eq_one_of_mem hsingle (List.mem_map_of_mem (f := Subscribe.ident) hmem)
  rw [← hcount, List.count_eq_countP, List.countP_map]
  refine List.countP_congr fun e _ => ?_
  rw [Function.comp_apply, beq_iff_eq, decide_eq_true_iff]

end Lists

/-! ### The invariant -/

def EventCall.Fits (root : List Bytes) : EventCall β → Prop
  | .subscribe s (some event) => root[event]? = some s.name
  | .unsubscribe s (some event) => root[event]? = some s.name
  | .create name before => ∀ x ∈ before, x.name = name
  | .dispatch event name before => root[event]? = some name ∧ ∀ x ∈ before, x.name = name
  | _ => True

theorem getElem?_append_of_eq {root more : List Bytes} {i : Nat} {name : Bytes}
    (h : root[i]? = some name) : (root ++ more)[i]? = some name := by
  rw [List.getElem?_append_left (List.getElem?_eq_some_iff.1 h).1]
  exact h

theorem EventCall.Fits.append {root : List Bytes} {call : EventCall β} (h : call.Fits root)
    (more : List Bytes) : call.Fits (root ++ more) := by
  cases call with
  | subscribe s event =>
    cases event with
    | none => trivial
    | some event => exact getElem?_append_of_eq h
  | unsubscribe s event =>
    cases event with
    | none => trivial
    | some event => exact getElem?_append_of_eq h
  | create name before => exact h
  | dispatch event name before => exact ⟨getElem?_append_of_eq h.1, h.2⟩

namespace EventManager

def Held (m : EventManager τ β) (x : Ident β) : Prop :=
  (∃ s ∈ m.freeSubscribeRoot, s.ident = x) ∨ ∃ i, ∃ s ∈ m.subscribeRoot i, s.ident = x

structure Kept (m : EventManager τ β) : Prop where
  nodup : m.eventRoot.Nodup
  free : ∀ s ∈ m.freeSubscribeRoot, s.name ∉ m.eventRoot
  name : ∀ i, ∀ s ∈ m.subscribeRoot i, m.eventRoot[i]? = some s.name
  freeSingle : Single m.freeSubscribeRoot
  single : ∀ i, Single (m.subscribeRoot i)
  owed : ∀ x ∈ m.owed, x.cb.isSome ∧ m.Held x
  calls : ∀ t call, m.calls t = some call → call.Fits m.eventRoot
  missed : m.missed = []

theorem getElem?_of_eventNodeGet {m : EventManager τ β} {name : Bytes} {i : Nat}
    (h : m.eventNodeGet name = some i) : m.eventRoot[i]? = some name := by
  obtain ⟨hlt, hname, -⟩ := List.findIdx?_eq_some_iff_getElem.1 h
  rw [List.getElem?_eq_getElem hlt, decide_eq_true_iff.1 hname]

theorem Kept.owe {m : EventManager τ β} (h : m.Kept) {s : Subscribe β} {rt : OperateRet}
    (hheld : rt = oprtOk → m.Held s.ident) : (m.owe s rt).Kept := by
  rw [EventManager.owe]
  split_ifs with hok
  · refine { h with owed := fun x hx => ?_ }
    rcases List.mem_cons.1 hx with rfl | hx
    · exact ⟨hok.2, hheld hok.1⟩
    · exact h.owed x hx
  · exact h

theorem Kept.mem_subscribeRoot {m : EventManager τ β} (h : m.Kept) {i : Nat} {x : Ident β} (hx : x ∈ m.owed)
    (hi : m.eventRoot[i]? = some x.name) : ∃ s ∈ m.subscribeRoot i, s.ident = x := by
  rcases (h.owed x hx).2 with ⟨s, hs, rfl⟩ | ⟨j, s, hs, rfl⟩
  · exact absurd (List.mem_of_getElem? hi) (h.free s hs)
  · have hj := h.name j s hs
    have hlt : i < m.eventRoot.length := (List.getElem?_eq_some_iff.1 hi).1
    rw [(List.getElem?_inj hlt h.nodup).1 (hi.trans hj.symm)]
    exact ⟨s, hs, rfl⟩

section Calls

variable [DecidableEq τ] {m : EventManager τ β} {t : τ}

theorem Kept.setCall (h : m.Kept) {next : Option (EventCall β)}
    (hnext : ∀ call, next = some call → call.Fits m.eventRoot) : (m.setCall t next).Kept := by
  refine { h with calls := ?_ }
  intro t' call hcall
  simp only [EventManager.setCall, Function.update_apply] at hcall
  split_ifs at hcall with ht
  · exact hnext call hcall
  · exact h.calls t' call hcall

theorem Kept.return (h : m.Kept) : (m.setCall t none).Kept :=
  h.setCall fun _ hcall => by cases hcall

theorem Kept.subscribeBegin (h : m.Kept) (t : τ) (s : Subscribe β) : (m.subscribeBegin t s).Kept := by
  rw [EventManager.subscribeBegin]
  split_ifs with hcheck
  · refine h.setCall fun call hcall => ?_
    cases hcall
    cases hget : m.eventNodeGet s.name with
    | none => trivial
    | some i => exact getElem?_of_eventNodeGet hget
  · exact h

theorem Kept.unsubscribeBegin (h : m.Kept) (t : τ) (s : Subscribe β) :
    (m.unsubscribeBegin t s).Kept := by
  rw [EventManager.unsubscribeBegin]
  split_ifs with hcheck
  · refine h.setCall fun call hcall => ?_
    cases hcall
    cases hget : m.eventNodeGet s.name with
    | none => trivial
    | some i => exact getElem?_of_eventNodeGet hget
  · exact h

theorem Kept.publishBegin (h : m.Kept) (t : τ) (name : Bytes) : (m.publishBegin t name).Kept := by
  have hbefore : ∀ x ∈ m.owed.filter fun x => x.name = name, x.name = name := fun x hx =>
    decide_eq_true_iff.1 (List.mem_filter.1 hx).2
  rw [EventManager.publishBegin]
  split_ifs with hvalid
  · cases hget : m.eventNodeGet name with
    | none =>
      refine h.setCall fun call hcall => ?_
      cases hcall
      exact hbefore
    | some i =>
      refine h.setCall fun call hcall => ?_
      cases hcall
      exact ⟨getElem?_of_eventNodeGet hget, hbefore⟩
  · exact h

theorem Kept.create (h : m.Kept) {name : Bytes} {before : List (Ident β)}
    (hcond : name ∉ m.eventRoot) (hbefore : ∀ x ∈ before, x.name = name) :
    Kept { m.setCall t (some (.dispatch m.eventRoot.length name before)) with
      eventRoot := m.eventRoot ++ [name]
      subscribeRoot := Function.update m.subscribeRoot m.eventRoot.length
        (migrate m.freeSubscribeRoot name)
      freeSubscribeRoot := m.freeSubscribeRoot.filter fun s => s.name ≠ name } := by
  have hperm := perm_migrate m.freeSubscribeRoot name
  have hlast : (m.eventRoot ++ [name])[m.eventRoot.length]? = some name :=
    List.getElem?_concat_length
  have hroot : ∀ j, Function.update m.subscribeRoot m.eventRoot.length
      (migrate m.freeSubscribeRoot name) j =
        if j = m.eventRoot.length then migrate m.freeSubscribeRoot name
        else m.subscribeRoot j := fun j => Function.update_apply _ _ _ _
  refine ⟨?_, ?_, ?_, h.freeSingle.sublist List.filter_sublist, ?_, ?_, ?_, h.missed⟩
  · refine (List.perm_append_singleton name _).nodup_iff.2 (List.nodup_cons.2 ⟨hcond, h.nodup⟩)
  · intro s hs hmem
    obtain ⟨hold, hne⟩ := List.mem_filter.1 hs
    rcases List.mem_append.1 hmem with hmem | hmem
    · exact h.free s hold hmem
    · exact decide_eq_true_iff.1 hne (List.mem_singleton.1 hmem)
  · intro j s hs
    dsimp only at hs ⊢
    rw [hroot] at hs
    split_ifs at hs with hj
    · rw [hj, decide_eq_true_iff.1 (List.mem_filter.1 (hperm.mem_iff.1 hs)).2]
      exact hlast
    · exact getElem?_append_of_eq (h.name j s hs)
  · intro j
    dsimp only
    rw [hroot]
    split_ifs with hj
    · exact (h.freeSingle.sublist List.filter_sublist).perm hperm
    · exact h.single j
  · intro x hx
    obtain ⟨hcb, hheld⟩ := h.owed x hx
    refine ⟨hcb, ?_⟩
    rcases hheld with ⟨s, hs, rfl⟩ | ⟨j, s, hs, rfl⟩
    · by_cases hname : s.name = name
      · refine Or.inr ⟨m.eventRoot.length, s, ?_, rfl⟩
        dsimp only
        rw [hroot, if_pos rfl]
        exact hperm.mem_iff.2 (List.mem_filter.2 ⟨hs, decide_eq_true_iff.2 hname⟩)
      · exact Or.inl ⟨s, List.mem_filter.2 ⟨hs, decide_eq_true_iff.2 hname⟩, rfl⟩
    · refine Or.inr ⟨j, s, ?_, rfl⟩
      have hj : j ≠ m.eventRoot.length := by
        rintro rfl
        have hsome := h.name _ s hs
        rw [List.getElem?_eq_none le_rfl] at hsome
        cases hsome
      dsimp only
      rw [hroot, if_neg hj]
      exact hs
  · intro t' call hcall
    simp only [EventManager.setCall, Function.update_apply] at hcall
    split_ifs at hcall with ht
    · cases hcall
      exact ⟨hlast, hbefore⟩
    · exact (h.calls t' call hcall).append [name]

theorem Kept.subscribeFree (h : m.Kept) {s : Subscribe β} (hcond : s.name ∉ m.eventRoot)
    {r : OperateRet × List (Subscribe β)} (hadded : Added m.freeSubscribeRoot s r) :
    (EventManager.owe { m.setCall t none with freeSubscribeRoot := r.2 } s r.1).Kept := by
  have hkept : Kept { m.setCall t none with freeSubscribeRoot := r.2 } := by
    refine { h.return with free := ?_, freeSingle := hadded.single h.freeSingle, owed := ?_ }
    · intro e he
      rcases hadded.of_mem e he with hold | rfl
      · exact h.free e hold
      · exact hcond
    · intro x hx
      obtain ⟨hcb, hheld⟩ := h.owed x hx
      refine ⟨hcb, hheld.imp_left ?_⟩
      rintro ⟨e, he, hident⟩
      exact ⟨e, hadded.subset e he, hident⟩
  exact hkept.owe fun hok => Or.inl (hadded.mem hok)

theorem Kept.setSubscribers (h : m.Kept) {i : Nat} {l : List (Subscribe β)}
    (hname : ∀ s ∈ l, m.eventRoot[i]? = some s.name) (hsingle : Single l)
    {owed missed : List (Ident β)} (howed : ∀ x ∈ owed, x ∈ m.owed)
    (hkept : ∀ s ∈ m.subscribeRoot i, s.ident ∈ owed → s ∈ l) (hmissed : missed = []) :
    Kept { m.setCall t none with
      subscribeRoot := Function.update m.subscribeRoot i l, owed := owed, missed := missed } := by
  have hroot : ∀ j, Function.update m.subscribeRoot i l j =
      if j = i then l else m.subscribeRoot j := fun j => Function.update_apply _ _ _ _
  refine { h.return with name := ?_, single := ?_, owed := ?_, missed := hmissed }
  · intro j e he
    dsimp only at he
    rw [hroot] at he
    split_ifs at he with hj
    · rw [hj]
      exact hname e he
    · exact h.name j e he
  · intro j
    dsimp only
    rw [hroot]
    split_ifs with hj
    · exact hsingle
    · exact h.single j
  · intro x hx
    obtain ⟨hcb, hheld⟩ := h.owed x (howed x hx)
    refine ⟨hcb, hheld.imp_right ?_⟩
    rintro ⟨j, e, he, rfl⟩
    refine ⟨j, e, ?_, rfl⟩
    dsimp only
    rw [hroot]
    split_ifs with hj
    · rw [hj] at he
      exact hkept e he hx
    · exact he

theorem Kept.subscribe (h : m.Kept) {s : Subscribe β} {i : Nat}
    (hfits : m.eventRoot[i]? = some s.name) {r : OperateRet × List (Subscribe β)}
    (hadded : Added (m.subscribeRoot i) s r) :
    (EventManager.owe { m.setCall t none with
      subscribeRoot := Function.update m.subscribeRoot i r.2 } s r.1).Kept := by
  have hname : ∀ e ∈ r.2, m.eventRoot[i]? = some e.name := by
    intro e he
    rcases hadded.of_mem e he with hold | rfl
    · exact h.name i e hold
    · exact hfits
  have hkept : Kept { m.setCall t none with
      subscribeRoot := Function.update m.subscribeRoot i r.2 } :=
    h.setSubscribers hname (hadded.single (h.single i)) (fun x hx => hx)
      (fun e he _ => hadded.subset e he) h.missed
  refine hkept.owe fun hok => Or.inr ⟨i, ?_⟩
  dsimp only
  rw [Function.update_self]
  exact hadded.mem hok

variable [DecidableEq β]

theorem Kept.unsubscribeFree (h : m.Kept) (s : Subscribe β) :
    Kept { m.setCall t none with
      freeSubscribeRoot := eventNodeDelFreeSubscribe m.freeSubscribeRoot s
      owed := m.owed.filter fun x => x ≠ s.ident } := by
  have hsub : (eventNodeDelFreeSubscribe m.freeSubscribeRoot s).Sublist m.freeSubscribeRoot :=
    List.eraseP_sublist
  refine { h.return with
    free := fun e he => h.free e (hsub.subset he)
    freeSingle := h.freeSingle.sublist hsub
    owed := ?_ }
  intro x hx
  obtain ⟨hmem, hne⟩ := List.mem_filter.1 hx
  obtain ⟨hcb, hheld⟩ := h.owed x hmem
  refine ⟨hcb, hheld.imp_left ?_⟩
  rintro ⟨e, he, rfl⟩
  refine ⟨e, (List.mem_eraseP_of_neg fun hsame => ?_).2 he, rfl⟩
  exact decide_eq_true_iff.1 hne (sameFree_iff.1 hsame)

theorem Kept.unsubscribe (h : m.Kept) {s : Subscribe β} {i : Nat}
    (hfits : m.eventRoot[i]? = some s.name) :
    Kept { m.setCall t none with
      subscribeRoot := Function.update m.subscribeRoot i
        (eventNodeDelSubscribe (m.subscribeRoot i) s)
      owed := m.owed.filter fun x => x ≠ s.ident } := by
  have hsub : (eventNodeDelSubscribe (m.subscribeRoot i) s).Sublist (m.subscribeRoot i) :=
    List.eraseP_sublist
  refine h.setSubscribers (fun e he => h.name i e (hsub.subset he)) ((h.single i).sublist hsub)
    (fun x hx => (List.mem_filter.1 hx).1) (fun e he howed => ?_) h.missed
  have hname : e.name = s.name := Option.some.inj ((h.name i e he).symm.trans hfits)
  refine (List.mem_eraseP_of_neg fun hsame => ?_).2 he
  exact decide_eq_true_iff.1 (List.mem_filter.1 howed).2 ((sameSubscribe_iff hname).1 hsame)

theorem Kept.dispatch (h : m.Kept) {i : Nat} {name : Bytes} {before : List (Ident β)}
    (hname : m.eventRoot[i]? = some name) (hbefore : ∀ x ∈ before, x.name = name) :
    Kept { m.setCall t none with
      subscribeRoot := Function.update m.subscribeRoot i (remaining (m.subscribeRoot i))
      owed := m.owed.filter fun x => x ∉ consumed (m.subscribeRoot i)
      missed := m.missed ++ m.miss before (invoked (m.subscribeRoot i)) } := by
  have hsub : (remaining (m.subscribeRoot i)).Sublist (m.subscribeRoot i) := List.filter_sublist
  refine h.setSubscribers (fun e he => h.name i e (hsub.subset he)) ((h.single i).sublist hsub)
    (fun x hx => (List.mem_filter.1 hx).1) (fun e he howed => ?_) ?_
  · have hnot := decide_eq_true_iff.1 (List.mem_filter.1 howed).2
    refine List.mem_filter.2 ⟨he, decide_eq_true_iff.2 fun htype => hnot ?_⟩
    exact List.mem_map_of_mem (List.mem_filter.2 ⟨he, decide_eq_true_iff.2 htype⟩)
  · rw [h.missed, List.nil_append, miss, List.filter_eq_nil_iff]
    intro x hx hmiss
    obtain ⟨howed, hcount⟩ := decide_eq_true_iff.1 hmiss
    obtain ⟨s, hs, rfl⟩ := h.mem_subscribeRoot howed (by rw [hbefore x hx]; exact hname)
    exact hcount (countP_invoked (h.single i) hs (h.owed _ howed).1)

theorem Kept.next (h : m.Kept) {malloc : Bool} (hcond : StaleCond m (.next t malloc)) :
    (m.next t malloc).Kept := by
  rw [StaleCond] at hcond
  rw [EventManager.next]
  cases hcall : m.calls t with
  | none => exact h
  | some call =>
    have hfits := h.calls t call hcall
    rw [hcall] at hcond
    cases call with
    | subscribe s event =>
      cases event with
      | none => exact h.subscribeFree hcond (added_eventNodeAddFreeSubscribe _ s malloc)
      | some i =>
        have hname : ∀ e ∈ m.subscribeRoot i, e.name = s.name := fun e he =>
          Option.some.inj ((h.name i e he).symm.trans hfits)
        exact h.subscribe hfits (added_eventNodeAddSubscribe hname malloc)
    | unsubscribe s event =>
      cases event with
      | none => exact h.unsubscribeFree s
      | some i => exact h.unsubscribe hfits
    | create name before =>
      obtain ⟨hnew, rfl⟩ := hcond
      exact h.create hnew hfits
    | dispatch i name before => exact h.dispatch hfits.1 hfits.2

/-- **Every step that meets the condition keeps the invariant.** -/
theorem Kept.eventStep (h : m.Kept) {ev : EventStep τ β} (hcond : StaleCond m ev) :
    (eventStep m ev).Kept := by
  cases ev with
  | subscribeBegin t s =>
    rw [System.eventStep]
    split_ifs with hbusy
    · exact h
    · exact h.subscribeBegin t s
  | unsubscribeBegin t s =>
    rw [System.eventStep]
    split_ifs with hbusy
    · exact h
    · exact h.unsubscribeBegin t s
  | publishBegin t name =>
    rw [System.eventStep]
    split_ifs with hbusy
    · exact h
    · exact h.publishBegin t name
  | next t malloc => exact h.next hcond

end Calls

end EventManager

/-! ### Runs -/

end TuyaOpen.System
