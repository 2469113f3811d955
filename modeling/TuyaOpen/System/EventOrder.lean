import TuyaOpen.System.Event

/-!
# The order of delivery

Subscribers come to the list of an event in two ways. When the event exists, a subscriber is put
first or last by its type. When it does not, the subscriber waits in the free list, which has the
subscribers of several events, and the publish that creates the event moves it. The order in which a
publish invokes the callbacks is the same in both cases, for calls that come one after the other.
-/

namespace TuyaOpen.System

variable {τ β : Type}

/-! ### Calls one after the other -/

/-- A call of `tal_event_subscribe` or of `tal_event_unsubscribe`: `malloc` says whether the memory of
a subscriber can be allocated. -/
inductive SequentialCall (β : Type)
  | subscribe (s : Subscribe β) (malloc : Bool)
  | unsubscribe (s : Subscribe β)

def SequentialCall.steps (t : τ) : SequentialCall β → List (EventStep τ β)
  | .subscribe s malloc => [.subscribeBegin t s, .next t malloc]
  | .unsubscribe s => [.unsubscribeBegin t s, .next t true]

section Sequential

variable [DecidableEq τ] [DecidableEq β]

def sequentially (t : τ) (m : EventManager τ β) (calls : List (SequentialCall β)) :
    EventManager τ β :=
  calls.foldl (fun m call => (call.steps t).foldl eventStep m) m

/-- `tal_event_publish` until it has the event, which it creates if there is none. -/
def publishEvent (t : τ) (m : EventManager τ β) (name : Bytes) : EventManager τ β :=
  let m := eventStep m (.publishBegin t name)
  match m.calls t with
  | some (.create _ _) => eventStep m (.next t true)
  | _ => m

/-- `tal_event_publish`. -/
def talEventPublish (t : τ) (m : EventManager τ β) (name : Bytes) : EventManager τ β :=
  eventStep (publishEvent t m name) (.next t true)

/-- The subscribers that a publish invokes, in the order of the dispatch. -/
def publishOrder (t : τ) (m : EventManager τ β) (name : Bytes) : List (Subscribe β) :=
  match (publishEvent t m name).calls t with
  | some (.dispatch event _ _) => invoked ((publishEvent t m name).subscribeRoot event)
  | _ => []

end Sequential

/-! ### Moving a list of subscribers -/

theorem migrate_eq (free : List (Subscribe β)) (name : Bytes) :
    migrate free name =
      ((free.filter fun s => s.name = name).filter
          fun s => s.type = subscribeTypeEmergency).reverse ++
        (free.filter fun s => s.name = name).filter fun s => s.type ≠ subscribeTypeEmergency := by
  have hfold (acc l : List (Subscribe β)) : l.foldl addByType acc =
      (l.filter fun s => s.type = subscribeTypeEmergency).reverse ++ acc ++
        l.filter fun s => s.type ≠ subscribeTypeEmergency := by
    induction l generalizing acc with
    | nil => simp
    | cons s l ih =>
      rw [List.foldl_cons, ih, addByType]
      split_ifs with htype
      · simp [htype]
      · simp [htype]
  rw [migrate, hfold, List.append_nil]

theorem name_of_mem_migrate {free : List (Subscribe β)} {name : Bytes} {s : Subscribe β}
    (h : s ∈ migrate free name) : s.name = name := by
  have hmem := (perm_migrate free name).mem_iff.1 h
  exact decide_eq_true_iff.1 (List.mem_filter.1 hmem).2

theorem single_migrate {free : List (Subscribe β)} (h : Single free) (name : Bytes) :
    Single (migrate free name) :=
  (h.sublist List.filter_sublist).perm (perm_migrate free name)

theorem migrate_append_same {free : List (Subscribe β)} {s : Subscribe β} :
    migrate (free ++ [s]) s.name = addByType (migrate free s.name) s := by
  rw [migrate, List.filter_append, List.foldl_append, List.filter_cons_of_pos (by simp),
    List.filter_nil, migrate]
  rfl

theorem migrate_append_other {free : List (Subscribe β)} {s : Subscribe β} {name : Bytes}
    (h : s.name ≠ name) : migrate (free ++ [s]) name = migrate free name := by
  rw [migrate, List.filter_append, List.filter_cons_of_neg (by simpa using h), List.filter_nil,
    List.append_nil, migrate]

theorem migrate_filter (free : List (Subscribe β)) (name : Bytes) (q : Subscribe β → Bool) :
    migrate (free.filter q) name = (migrate free name).filter q := by
  simp only [migrate_eq, List.filter_append, List.filter_reverse, List.filter_filter]
  congr 1
  · congr 1
    exact List.filter_congr fun s _ => by cases q s <;> simp
  · exact List.filter_congr fun s _ => by cases q s <;> simp

section Erase

variable [DecidableEq β]

theorem eraseP_eq_filter {l : List (Subscribe β)} (h : Single l) (x : Ident β)
    {p : Subscribe β → Bool} (hp : ∀ e ∈ l, p e = true ↔ e.ident = x) :
    l.eraseP p = l.filter fun e => e.ident ≠ x := by
  induction l with
  | nil => rfl
  | cons e l ih =>
    obtain ⟨hnew, hl⟩ := List.nodup_cons.1 h
    obtain ⟨he, hp⟩ := List.forall_mem_cons.1 hp
    by_cases hsame : e.ident = x
    · rw [List.eraseP_cons_of_pos (he.2 hsame), List.filter_cons_of_neg (by simpa using hsame)]
      -- no other subscriber is for the subscription
      refine (List.filter_eq_self.2 fun e' he' => ?_).symm
      have hne : e'.ident ≠ x := fun heq =>
        hnew (List.mem_map.2 ⟨e', he', heq.trans hsame.symm⟩)
      exact decide_eq_true hne
    · rw [List.eraseP_cons_of_neg (fun hpe => hsame (he.1 hpe)),
        List.filter_cons_of_pos (by simpa using hsame), ih hl hp]

theorem migrate_eventNodeDelFreeSubscribe {free : List (Subscribe β)} (h : Single free)
    (s : Subscribe β) :
    migrate (eventNodeDelFreeSubscribe free s) s.name =
      eventNodeDelSubscribe (migrate free s.name) s := by
  rw [eventNodeDelFreeSubscribe, eventNodeDelSubscribe,
    eraseP_eq_filter h s.ident fun e _ => sameFree_iff,
    eraseP_eq_filter (single_migrate h s.name) s.ident fun e he =>
      sameSubscribe_iff (name_of_mem_migrate he), migrate_filter]

theorem any_sameSubscribe_migrate (free : List (Subscribe β)) (s : Subscribe β) :
    (migrate free s.name).any (sameSubscribe s) = free.any (sameFree s) := by
  rw [Bool.eq_iff_iff, List.any_eq_true, List.any_eq_true]
  constructor
  · rintro ⟨e, he, hsame⟩
    have hname := name_of_mem_migrate he
    have hmem := (perm_migrate free s.name).mem_iff.1 he
    exact ⟨e, (List.mem_filter.1 hmem).1, sameFree_iff.2 ((sameSubscribe_iff hname).1 hsame)⟩
  · rintro ⟨e, he, hsame⟩
    have hident := sameFree_iff.1 hsame
    have hname : e.name = s.name := congrArg Ident.name hident
    refine ⟨e, (perm_migrate free s.name).mem_iff.2 ?_, (sameSubscribe_iff hname).2 hident⟩
    exact List.mem_filter.2 ⟨he, decide_eq_true hname⟩

theorem migrate_eventNodeAddFreeSubscribe (free : List (Subscribe β)) (s : Subscribe β)
    (malloc : Bool) :
    migrate (eventNodeAddFreeSubscribe free s malloc).2 s.name =
      (eventNodeAddSubscribe (migrate free s.name) s malloc).2 := by
  rw [eventNodeAddFreeSubscribe, eventNodeAddSubscribe, any_sameSubscribe_migrate]
  split_ifs
  · rfl
  · exact migrate_append_same
  · rfl

theorem filter_eventNodeAddFreeSubscribe {free : List (Subscribe β)} {s : Subscribe β}
    {name : Bytes} (h : s.name ≠ name) (malloc : Bool) :
    (eventNodeAddFreeSubscribe (free.filter fun e => e.name ≠ name) s malloc).2 =
        (eventNodeAddFreeSubscribe free s malloc).2.filter (fun e => e.name ≠ name) ∧
      migrate (eventNodeAddFreeSubscribe free s malloc).2 name = migrate free name := by
  have hany : (free.filter fun e => e.name ≠ name).any (sameFree s) = free.any (sameFree s) := by
    rw [Bool.eq_iff_iff, List.any_eq_true, List.any_eq_true]
    refine ⟨fun ⟨e, he, hsame⟩ => ⟨e, (List.mem_filter.1 he).1, hsame⟩, ?_⟩
    rintro ⟨e, he, hsame⟩
    have hname : e.name = s.name := congrArg Ident.name (sameFree_iff.1 hsame)
    exact ⟨e, List.mem_filter.2 ⟨he, decide_eq_true (by rwa [hname])⟩, hsame⟩
  rw [eventNodeAddFreeSubscribe, eventNodeAddFreeSubscribe, hany]
  split_ifs
  · exact ⟨rfl, rfl⟩
  · exact ⟨by simp [h], migrate_append_other h⟩
  · exact ⟨rfl, rfl⟩

theorem filter_eventNodeDelFreeSubscribe {free : List (Subscribe β)} (hsingle : Single free)
    {s : Subscribe β} {name : Bytes} (h : s.name ≠ name) :
    eventNodeDelFreeSubscribe (free.filter fun e => e.name ≠ name) s =
        (eventNodeDelFreeSubscribe free s).filter (fun e => e.name ≠ name) ∧
      migrate (eventNodeDelFreeSubscribe free s) name = migrate free name := by
  rw [eventNodeDelFreeSubscribe, eventNodeDelFreeSubscribe,
    eraseP_eq_filter hsingle s.ident fun e _ => sameFree_iff,
    eraseP_eq_filter (hsingle.sublist List.filter_sublist) s.ident fun e _ => sameFree_iff]
  refine ⟨List.filter_comm _ _ _, ?_⟩
  rw [migrate_filter, List.filter_eq_self]
  intro e he
  have hne : e.ident ≠ s.ident := fun heq =>
    h ((congrArg Ident.name heq).symm.trans (name_of_mem_migrate he))
  exact decide_eq_true hne

end Erase

/-! ### What a call does -/

namespace SequentialCall

variable [DecidableEq β]

def subscriber : SequentialCall β → Subscribe β
  | .subscribe s _ => s
  | .unsubscribe s => s

def onFree (free : List (Subscribe β)) : SequentialCall β → List (Subscribe β)
  | .subscribe s malloc => (eventNodeAddFreeSubscribe free s malloc).2
  | .unsubscribe s => eventNodeDelFreeSubscribe free s

def onEvent (l : List (Subscribe β)) : SequentialCall β → List (Subscribe β)
  | .subscribe s malloc => (eventNodeAddSubscribe l s malloc).2
  | .unsubscribe s => eventNodeDelSubscribe l s

variable {free : List (Subscribe β)} {name : Bytes}

theorem single_onFree (h : Single free) (call : SequentialCall β) :
    Single (call.onFree free) := by
  cases call with
  | subscribe s malloc => exact (added_eventNodeAddFreeSubscribe free s malloc).single h
  | unsubscribe s => exact h.sublist List.eraseP_sublist

theorem migrate_onFree (h : Single free) (call : SequentialCall β) :
    migrate (call.onFree free) call.subscriber.name =
      call.onEvent (migrate free call.subscriber.name) := by
  cases call with
  | subscribe s malloc => exact migrate_eventNodeAddFreeSubscribe free s malloc
  | unsubscribe s => exact migrate_eventNodeDelFreeSubscribe h s

theorem filter_onFree_same (call : SequentialCall β) (h : call.subscriber.name = name) :
    (call.onFree free).filter (fun e => e.name ≠ name) = free.filter fun e => e.name ≠ name := by
  subst h
  cases call with
  | subscribe s malloc =>
    simp only [onFree, subscriber, eventNodeAddFreeSubscribe]
    split_ifs
    · rfl
    · simp
    · rfl
  | unsubscribe s =>
    simp only [onFree, subscriber, eventNodeDelFreeSubscribe]
    induction free with
    | nil => rfl
    | cons e free ih =>
      by_cases hsame : sameFree s e = true
      · have hname : e.name = s.name := congrArg Ident.name (sameFree_iff.1 hsame)
        rw [List.eraseP_cons_of_pos hsame, List.filter_cons_of_neg (by simp [hname])]
      · rw [List.eraseP_cons_of_neg hsame, List.filter_cons, List.filter_cons, ih]

theorem onFree_other (hsingle : Single free) (call : SequentialCall β)
    (h : call.subscriber.name ≠ name) :
    call.onFree (free.filter fun e => e.name ≠ name) =
        (call.onFree free).filter (fun e => e.name ≠ name) ∧
      migrate (call.onFree free) name = migrate free name := by
  cases call with
  | subscribe s malloc => exact filter_eventNodeAddFreeSubscribe h malloc
  | unsubscribe s => exact filter_eventNodeDelFreeSubscribe hsingle h

end SequentialCall

namespace EventManager

variable {t : τ} {m m' k k' : EventManager τ β} {name : Bytes}

/-- What a call does to a manager: it has returned, and the events are the same. -/
structure Called (t : τ) (m m' : EventManager τ β) (subscribeRoot : Nat → List (Subscribe β))
    (freeSubscribeRoot : List (Subscribe β)) : Prop where
  idle : m'.calls t = none
  root : m'.eventRoot = m.eventRoot
  list : m'.subscribeRoot = subscribeRoot
  free : m'.freeSubscribeRoot = freeSubscribeRoot

theorem Called.owe {subscribeRoot : Nat → List (Subscribe β)} {free : List (Subscribe β)}
    (h : Called t m m' subscribeRoot free) (s : Subscribe β) (rt : OperateRet) :
    Called t m (m'.owe s rt) subscribeRoot free := by
  rw [EventManager.owe]
  split_ifs
  · exact ⟨h.idle, h.root, h.list, h.free⟩
  · exact h

section Call

variable [DecidableEq τ] [DecidableEq β]

theorem called_of_invalid (h : m.calls t = none) {call : SequentialCall β}
    (hcheck : subscribeCheck call.subscriber ≠ oprtOk) :
    Called t m ((call.steps t).foldl eventStep m) m.subscribeRoot m.freeSubscribeRoot := by
  have hnone : ¬(m.calls t).isSome = true := by simp [h]
  have hnext (malloc : Bool) : m.next t malloc = m := by rw [EventManager.next, h]
  have hsame : (call.steps t).foldl eventStep m = m := by
    cases call with
    | subscribe s malloc =>
      have hs : subscribeCheck s ≠ oprtOk := hcheck
      rw [SequentialCall.steps, List.foldl_cons, List.foldl_cons, List.foldl_nil, eventStep,
        if_neg hnone, EventManager.subscribeBegin, if_neg hs, eventStep, hnext]
    | unsubscribe s =>
      have hs : subscribeCheck s ≠ oprtOk := hcheck
      rw [SequentialCall.steps, List.foldl_cons, List.foldl_cons, List.foldl_nil, eventStep,
        if_neg hnone, EventManager.unsubscribeBegin, if_neg hs, eventStep, hnext]
  rw [hsame]
  exact ⟨h, rfl, rfl, rfl⟩

theorem called_of_none (h : m.calls t = none) {call : SequentialCall β}
    (hcheck : subscribeCheck call.subscriber = oprtOk)
    (hget : m.eventNodeGet call.subscriber.name = none) :
    Called t m ((call.steps t).foldl eventStep m) m.subscribeRoot
      (call.onFree m.freeSubscribeRoot) := by
  have hnone : ¬(m.calls t).isSome = true := by simp [h]
  cases call with
  | subscribe s malloc =>
    have hs : subscribeCheck s = oprtOk := hcheck
    have hn : m.eventNodeGet s.name = none := hget
    rw [SequentialCall.steps, List.foldl_cons, List.foldl_cons, List.foldl_nil, eventStep,
      if_neg hnone, EventManager.subscribeBegin, if_pos hs, eventStep, hn, EventManager.next]
    simp only [EventManager.setCall, Function.update_self]
    have hcalled : Called t m
        { m with
          calls := Function.update (Function.update m.calls t (some (.subscribe s none))) t none
          freeSubscribeRoot := (eventNodeAddFreeSubscribe m.freeSubscribeRoot s malloc).2 }
        m.subscribeRoot (eventNodeAddFreeSubscribe m.freeSubscribeRoot s malloc).2 :=
      ⟨Function.update_self _ _ _, rfl, rfl, rfl⟩
    exact hcalled.owe s _
  | unsubscribe s =>
    have hs : subscribeCheck s = oprtOk := hcheck
    have hn : m.eventNodeGet s.name = none := hget
    rw [SequentialCall.steps, List.foldl_cons, List.foldl_cons, List.foldl_nil, eventStep,
      if_neg hnone, EventManager.unsubscribeBegin, if_pos hs, eventStep, hn, EventManager.next]
    simp only [EventManager.setCall, Function.update_self]
    exact ⟨Function.update_self _ _ _, rfl, rfl, rfl⟩

theorem called_of_some (h : m.calls t = none) {call : SequentialCall β} {i : Nat}
    (hcheck : subscribeCheck call.subscriber = oprtOk)
    (hget : m.eventNodeGet call.subscriber.name = some i) :
    Called t m ((call.steps t).foldl eventStep m)
      (Function.update m.subscribeRoot i (call.onEvent (m.subscribeRoot i)))
      m.freeSubscribeRoot := by
  have hnone : ¬(m.calls t).isSome = true := by simp [h]
  cases call with
  | subscribe s malloc =>
    have hs : subscribeCheck s = oprtOk := hcheck
    have hn : m.eventNodeGet s.name = some i := hget
    rw [SequentialCall.steps, List.foldl_cons, List.foldl_cons, List.foldl_nil, eventStep,
      if_neg hnone, EventManager.subscribeBegin, if_pos hs, eventStep, hn, EventManager.next]
    simp only [EventManager.setCall, Function.update_self]
    have hcalled : Called t m
        { m with
          calls := Function.update (Function.update m.calls t (some (.subscribe s (some i)))) t none
          subscribeRoot := Function.update m.subscribeRoot i
            (eventNodeAddSubscribe (m.subscribeRoot i) s malloc).2 }
        (Function.update m.subscribeRoot i (eventNodeAddSubscribe (m.subscribeRoot i) s malloc).2)
        m.freeSubscribeRoot := ⟨Function.update_self _ _ _, rfl, rfl, rfl⟩
    exact hcalled.owe s _
  | unsubscribe s =>
    have hs : subscribeCheck s = oprtOk := hcheck
    have hn : m.eventNodeGet s.name = some i := hget
    rw [SequentialCall.steps, List.foldl_cons, List.foldl_cons, List.foldl_nil, eventStep,
      if_neg hnone, EventManager.unsubscribeBegin, if_pos hs, eventStep, hn, EventManager.next]
    simp only [EventManager.setCall, Function.update_self]
    exact ⟨Function.update_self _ _ _, rfl, rfl, rfl⟩

/-! ### What a publish invokes -/

theorem publishOrder_of_invalid (h : m.calls t = none) (hvalid : ¬eventNameIsValid name = true) :
    publishOrder t m name = [] := by
  have hnone : ¬(m.calls t).isSome = true := by simp [h]
  have hsame : publishEvent t m name = m := by
    rw [publishEvent, eventStep, if_neg hnone, EventManager.publishBegin, if_neg hvalid, h]
  rw [publishOrder, hsame, h]

theorem publishOrder_of_some (h : m.calls t = none) (hvalid : eventNameIsValid name = true)
    {i : Nat} (hget : m.eventNodeGet name = some i) :
    publishOrder t m name = invoked (m.subscribeRoot i) := by
  have hnone : ¬(m.calls t).isSome = true := by simp [h]
  simp only [publishOrder, publishEvent, eventStep, if_neg hnone, EventManager.publishBegin, hvalid,
    if_true, hget, EventManager.setCall, Function.update_self]

theorem publishOrder_of_none (h : m.calls t = none) (hvalid : eventNameIsValid name = true)
    (hget : m.eventNodeGet name = none) :
    publishOrder t m name = invoked (migrate m.freeSubscribeRoot name) := by
  have hnone : ¬(m.calls t).isSome = true := by simp [h]
  simp only [publishOrder, publishEvent, eventStep, if_neg hnone, EventManager.publishBegin, hvalid,
    if_true, hget, EventManager.setCall, Function.update_self, EventManager.next]

end Call

/-! ### A manager that has the event -/

/-- The manager `m'` has the event, and the manager `m` does not have it yet. The other lists are the
same. -/
structure Ahead (t : τ) (name : Bytes) (m' m : EventManager τ β) : Prop where
  idle' : m'.calls t = none
  idle : m.calls t = none
  root : m'.eventRoot = m.eventRoot ++ [name]
  new : name ∉ m.eventRoot
  list : m'.subscribeRoot m.eventRoot.length = migrate m.freeSubscribeRoot name
  others : ∀ i < m.eventRoot.length, m'.subscribeRoot i = m.subscribeRoot i
  free : m'.freeSubscribeRoot = m.freeSubscribeRoot.filter fun e => e.name ≠ name
  single : Single m.freeSubscribeRoot

theorem eventNodeGet_of_notMem (h : name ∉ m.eventRoot) : m.eventNodeGet name = none :=
  List.findIdx?_eq_none_iff.2 fun _ hn => decide_eq_false fun heq => h (heq ▸ hn)

theorem lt_of_eventNodeGet {i : Nat} (h : m.eventNodeGet name = some i) :
    i < m.eventRoot.length :=
  (List.findIdx?_eq_some_iff_getElem.1 h).1

namespace Ahead

theorem eventNodeGet_self (h : Ahead t name m' m) :
    m'.eventNodeGet name = some m.eventRoot.length := by
  have hnone := eventNodeGet_of_notMem h.new
  rw [EventManager.eventNodeGet] at hnone
  rw [EventManager.eventNodeGet, h.root, List.findIdx?_append, hnone]
  simp

theorem eventNodeGet_other (h : Ahead t name m' m) {n : Bytes} (hn : n ≠ name) :
    m'.eventNodeGet n = m.eventNodeGet n := by
  rw [EventManager.eventNodeGet, EventManager.eventNodeGet, h.root, List.findIdx?_append]
  have hnone : [name].findIdx? (fun x => x = n) = none := by simp [Ne.symm hn]
  rw [hnone]
  simp

theorem called {list list' : Nat → List (Subscribe β)} {free free' : List (Subscribe β)}
    (h : Ahead t name m' m) (hcalled' : Called t m' k' list' free')
    (hcalled : Called t m k list free)
    (hlist : list' m.eventRoot.length = migrate free name)
    (hothers : ∀ i < m.eventRoot.length, list' i = list i)
    (hfree : free' = free.filter fun e => e.name ≠ name) (hsingle : Single free) :
    Ahead t name k' k where
  idle' := hcalled'.idle
  idle := hcalled.idle
  root := by rw [hcalled'.root, hcalled.root, h.root]
  new := by rw [hcalled.root]; exact h.new
  list := by rw [hcalled'.list, hcalled.root, hcalled.free, hlist]
  others i hi := by
    rw [hcalled.root] at hi
    rw [hcalled'.list, hcalled.list, hothers i hi]
  free := by rw [hcalled'.free, hcalled.free, hfree]
  single := by rw [hcalled.free]; exact hsingle

variable [DecidableEq τ] [DecidableEq β]

/-- **A call keeps the relation.** -/
theorem sequentialCall (h : Ahead t name m' m) (call : SequentialCall β) :
    Ahead t name ((call.steps t).foldl eventStep m') ((call.steps t).foldl eventStep m) := by
  by_cases hcheck : subscribeCheck call.subscriber = oprtOk
  · by_cases hname : call.subscriber.name = name
    · -- the call works on the list of the event, and on the free list
      have hcalled' := called_of_some h.idle' hcheck (hname ▸ h.eventNodeGet_self)
      have hcalled := called_of_none h.idle hcheck (hname ▸ eventNodeGet_of_notMem h.new)
      refine h.called hcalled' hcalled ?_ (fun i hi => ?_) ?_ (call.single_onFree h.single)
      · rw [Function.update_self, h.list, ← hname]
        exact (call.migrate_onFree h.single).symm
      · rw [Function.update_of_ne (Nat.ne_of_lt hi)]
        exact h.others i hi
      · rw [h.free]
        exact (call.filter_onFree_same hname).symm
    · obtain ⟨hfilter, hmigrate⟩ := call.onFree_other h.single hname
      have hget' := h.eventNodeGet_other hname
      cases hget : m.eventNodeGet call.subscriber.name with
      | none =>
        have hcalled' := called_of_none h.idle' hcheck (hget'.trans hget)
        refine h.called hcalled' (called_of_none h.idle hcheck hget) ?_ h.others ?_
          (call.single_onFree h.single)
        · rw [hmigrate, h.list]
        · rw [h.free, hfilter]
      | some j =>
        have hj := lt_of_eventNodeGet hget
        have hcalled' := called_of_some h.idle' hcheck (hget'.trans hget)
        refine h.called hcalled' (called_of_some h.idle hcheck hget) ?_ (fun i hi => ?_) h.free
          h.single
        · rw [Function.update_of_ne (Nat.ne_of_gt hj), h.list]
        · simp only [Function.update_apply, h.others j hj]
          split_ifs
          · rfl
          · exact h.others i hi
  · exact h.called (called_of_invalid h.idle' hcheck) (called_of_invalid h.idle hcheck) h.list
      h.others h.free h.single

theorem sequentially (h : Ahead t name m' m) (calls : List (SequentialCall β)) :
    Ahead t name (sequentially t m' calls) (sequentially t m calls) := by
  induction calls generalizing m m' with
  | nil => exact h
  | cons call calls ih => exact ih (h.sequentialCall call)

theorem same_order (h : Ahead t name m' m) :
    publishOrder t m' name = publishOrder t m name := by
  by_cases hvalid : eventNameIsValid name = true
  · rw [publishOrder_of_some h.idle' hvalid h.eventNodeGet_self,
      publishOrder_of_none h.idle hvalid (eventNodeGet_of_notMem h.new), h.list]
  · rw [publishOrder_of_invalid h.idle' hvalid, publishOrder_of_invalid h.idle hvalid]

end Ahead

end EventManager

section Order

variable [DecidableEq τ] [DecidableEq β]

theorem ahead_talEventPublish (t : τ) {name : Bytes} (hvalid : eventNameIsValid name = true) :
    EventManager.Ahead t name (talEventPublish t talEventInit name)
      (talEventInit : EventManager τ β) := by
  have hpublish : talEventPublish t (talEventInit : EventManager τ β) name =
      ⟨[name], Function.update (Function.update (fun _ => []) 0 []) 0 [], [],
        Function.update (Function.update (Function.update (fun _ => none) t
          (some (.create name []))) t (some (.dispatch 0 name []))) t none, [], []⟩ := by
    simp [talEventPublish, publishEvent, eventStep, talEventInit, EventManager.publishBegin, hvalid,
      EventManager.eventNodeGet, EventManager.setCall, EventManager.next, migrate, remaining,
      EventManager.miss, consumed]
  rw [hpublish]
  exact ⟨Function.update_self _ _ _, rfl, rfl, List.not_mem_nil, rfl,
    fun i hi => absurd hi (Nat.not_lt_zero i), rfl, List.nodup_nil⟩

/-- **The order of delivery.** After any calls of `tal_event_subscribe` and `tal_event_unsubscribe`,
one after the other, a publish invokes the same callbacks in the same order whether the event has
been created before these calls or is created by this publish. -/
theorem publishOrder_eq (t : τ) (name : Bytes) (calls : List (SequentialCall β)) :
    publishOrder t (sequentially t (talEventPublish t talEventInit name) calls) name =
      publishOrder t (sequentially t talEventInit calls) name := by
  by_cases hvalid : eventNameIsValid name = true
  · exact ((ahead_talEventPublish t hvalid).sequentially calls).same_order
  · -- a publish of a name that is not valid does nothing
    have hsame : talEventPublish t (talEventInit : EventManager τ β) name = talEventInit := by
      simp [talEventPublish, publishEvent, eventStep, talEventInit, EventManager.publishBegin,
        hvalid, EventManager.next]
    rw [hsame]

end Order

end TuyaOpen.System
