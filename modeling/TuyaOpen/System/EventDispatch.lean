import TuyaOpen.System.Event

/-!
# Dispatch to callbacks that change the list

`_event_node_dispatch` of `tal_event.c` walks over the subscribers of an event and invokes their
callbacks. It keeps the next subscriber while a callback runs. The mutex is one that a thread may
take again, so that a callback can subscribe, unsubscribe and publish the same event. Then the
dispatches that run form a stack.

The nodes are named, and a name is not used again. A step that reads a node which has been unlinked
has no result. An observer notes for each dispatch whom it has to invoke, whom it has invoked, and
whether one of them has failed.

## Main results

* `walk_cases`: what the loop does up to the next callback.
* `Sound.step`: a step that meets the condition reads only linked nodes and keeps the invariant.
* `truthful_throughout`: no node that has been unlinked is read, and every publish is truthful, in a
  run whose steps meet the condition.
-/

namespace TuyaOpen.System

variable {β : Type}

/-! ### The list and its dispatches -/

structure SubNode (β : Type) where
  id : ℕ
  subscribe : Subscribe β
  deriving DecidableEq

/-- A publish, with the notes of the observer: the subscribers at its start, those that others have
removed since then, those that it has invoked, and whether a callback has failed. -/
structure Publish where
  rt : OperateRet
  started : List ℕ
  gone : List ℕ
  invoked : List ℕ
  failed : Bool
  deriving DecidableEq

/-- A dispatch whose callback runs: `entry` and `n` of the loop. No `n` is the head of the list. -/
structure Dispatch where
  entry : ℕ
  n : Option ℕ
  publish : Publish

/-- The subscribers of an event, the dispatches that run, and the publishes that have returned. -/
structure EventList (β : Type) where
  nodes : List (SubNode β)
  fresh : ℕ
  stack : List Dispatch
  finished : List Publish

def nodesAt (nodes : List (SubNode β)) : Option ℕ → List (SubNode β)
  | none => []
  | some n => nodes.dropWhile fun x => x.id ≠ n

def EventList.unlink (s : EventList β) (ids : List ℕ) : EventList β :=
  { s with
    nodes := s.nodes.filter fun x => x.id ∉ ids
    stack := s.stack.map fun f =>
      { f with publish := { f.publish with gone := f.publish.gone ++ ids } } }

/-- The loop over subscribers without callbacks, from a node on: the nodes that it deletes, and the
next subscriber with the one after it. -/
def walk : List (SubNode β) → List ℕ × Option (SubNode β × Option ℕ)
  | [] => ([], none)
  | x :: rest =>
    if x.subscribe.cb.isSome then ([], some (x, rest.head?.map SubNode.id))
    else
      let r := walk rest
      (if x.subscribe.type = subscribeTypeOnetime then x.id :: r.1 else r.1, r.2)

/-- A dispatch goes on from a node: it invokes the next callback, or the publish returns. -/
def EventList.proceed (s : EventList β) (p : Publish) (rest : List (SubNode β)) : EventList β :=
  let s := s.unlink (walk rest).1
  match (walk rest).2 with
  | none => { s with finished := p :: s.finished }
  | some (x, n) =>
    { s with stack := ⟨x.id, n, { p with invoked := p.invoked ++ [x.id] }⟩ :: s.stack }

/-- What a callback can do, or the user outside callbacks. -/
inductive DispatchEvent (β : Type)
  | publish
  | subscribe (s : Subscribe β) (malloc : Bool)
  | unsubscribe (s : Subscribe β)
  /-- The callback that runs returns a code. -/
  | ret (code : OperateRet)

section Steps

variable [DecidableEq β]

/-- `_event_node_get_subscribe`. -/
def eventNodeGetSubscribe (nodes : List (SubNode β)) (s : Subscribe β) : Option (SubNode β) :=
  nodes.find? fun x => sameSubscribe s x.subscribe

/-- `_event_node_add_subscribe`, with the node that `malloc` gives. -/
def EventList.addSubscribe (l : EventList β) (s : Subscribe β) (malloc : Bool) : EventList β :=
  if (eventNodeGetSubscribe l.nodes s).isSome then l
  else if malloc then
    { l with
      nodes := if s.type = subscribeTypeEmergency then ⟨l.fresh, s⟩ :: l.nodes
        else l.nodes ++ [⟨l.fresh, s⟩]
      fresh := l.fresh + 1 }
  else l

/-- `_event_node_del_subscribe`. -/
def EventList.delSubscribe (l : EventList β) (s : Subscribe β) : EventList β :=
  match eventNodeGetSubscribe l.nodes s with
  | none => l
  | some x => l.unlink [x.id]

def startPublish (nodes : List (SubNode β)) : Publish where
  rt := oprtOk
  started := (nodes.filter fun x => x.subscribe.cb.isSome).map SubNode.id
  gone := []
  invoked := []
  failed := false

def Publish.return (p : Publish) (code : OperateRet) : Publish :=
  { p with rt := code, failed := p.failed || code ≠ oprtOk }

def EventList.endIteration (l : EventList β) (x : SubNode β) : EventList β :=
  if x.subscribe.type = subscribeTypeOnetime then l.unlink [x.id] else l

/-- What happens to the list. The loop reads `entry` after its callback, and then `n`. -/
def dispatchStep (l : EventList β) : DispatchEvent β → Option (EventList β)
  | .publish => some (l.proceed (startPublish l.nodes) l.nodes)
  | .subscribe s malloc => some (l.addSubscribe s malloc)
  | .unsubscribe s => some (l.delSubscribe s)
  | .ret code =>
    match l.stack with
    | [] => some l
    | f :: stack =>
      match l.nodes.find? fun x => x.id = f.entry with
      | none => none
      | some x =>
        let l := EventList.endIteration { l with stack := stack } x
        if f.n.isSome && (nodesAt l.nodes f.n).isEmpty then none
        else some (l.proceed (f.publish.return code) (nodesAt l.nodes f.n))

def EventList.next (l : EventList β) (ev : DispatchEvent β) : EventList β :=
  (dispatchStep l ev).getD l

def EventList.init (subscribes : List (Subscribe β)) : EventList β where
  nodes := subscribes.zipIdx.map fun s => ⟨s.2, s.1⟩
  fresh := subscribes.length
  stack := []
  finished := []

/-! ### What should be true -/

/-- The subscribers that have been there throughout are invoked exactly once, and success is only
reported if no callback has failed. -/
structure Publish.Truthful (p : Publish) : Prop where
  once : ∀ id ∈ p.started, id ∉ p.gone → p.invoked.count id = 1
  truth : p.rt = oprtOk → p.failed = false

instance instDecidableTruthful (p : Publish) : Decidable p.Truthful :=
  decidable_of_iff
    ((∀ id ∈ p.started, id ∉ p.gone → p.invoked.count id = 1) ∧ (p.rt = oprtOk → p.failed = false))
    ⟨fun h => ⟨h.1, h.2⟩, fun h => ⟨h.once, h.truth⟩⟩

def AllTruthful (l : EventList β) : Prop := ∀ p ∈ l.finished, p.Truthful

instance instDecidableAllTruthful (l : EventList β) : Decidable (AllTruthful l) :=
  inferInstanceAs (Decidable (∀ p ∈ l.finished, p.Truthful))

def Unused (stack : List Dispatch) (id : ℕ) : Prop := ∀ f ∈ stack, f.entry ≠ id ∧ f.n ≠ some id

instance instDecidableUnused (stack : List Dispatch) (id : ℕ) : Decidable (Unused stack id) :=
  inferInstanceAs (Decidable (∀ f ∈ stack, f.entry ≠ id ∧ f.n ≠ some id))

/-- The condition on a step: the nodes that it deletes are unused by the other dispatches, and the
last callback does not return success after another one has failed. -/
def Kept (l : EventList β) : DispatchEvent β → Prop
  | .publish => ∀ id ∈ (walk l.nodes).1, Unused l.stack id
  | .subscribe _ _ => True
  | .unsubscribe s => ∀ x ∈ eventNodeGetSubscribe l.nodes s, Unused l.stack x.id
  | .ret code =>
    match l.stack with
    | [] => True
    | f :: stack =>
      (∀ x ∈ l.nodes, x.id = f.entry → x.subscribe.type = subscribeTypeOnetime →
        Unused stack f.entry) ∧
      (∀ id ∈ (walk (nodesAt l.nodes f.n)).1, Unused stack id) ∧
      ((∀ x ∈ nodesAt l.nodes f.n, x.subscribe.cb.isSome = false) → code = oprtOk →
        f.publish.failed = false)

instance instDecidableKept (l : EventList β) (ev : DispatchEvent β) : Decidable (Kept l ev) :=
  match ev with
  | .publish => inferInstanceAs (Decidable (∀ id ∈ (walk l.nodes).1, Unused l.stack id))
  | .subscribe _ _ => isTrue trivial
  | .unsubscribe s =>
    match h : eventNodeGetSubscribe l.nodes s with
    | none => isTrue (by simp [Kept, h])
    | some x => decidable_of_iff (Unused l.stack x.id) (by simp [Kept, h])
  | .ret code =>
    match h : l.stack with
    | [] => isTrue (by simp only [Kept, h])
    | f :: stack =>
      decidable_of_iff
        ((∀ x ∈ l.nodes, x.id = f.entry → x.subscribe.type = subscribeTypeOnetime →
          Unused stack f.entry) ∧
        (∀ id ∈ (walk (nodesAt l.nodes f.n)).1, Unused stack id) ∧
        ((∀ x ∈ nodesAt l.nodes f.n, x.subscribe.cb.isSome = false) → code = oprtOk →
          f.publish.failed = false)) (by simp only [Kept, h])

end Steps

/-! ### Places of the loop -/

section Places

variable {nodes post : List (SubNode β)} {x : SubNode β} {n : ℕ} {k : Option ℕ}

theorem nodesAt_suffix (nodes : List (SubNode β)) (k : Option ℕ) : nodesAt nodes k <:+ nodes := by
  cases k with
  | none => exact List.nil_suffix
  | some n => exact List.dropWhile_suffix _

theorem nodesAt_cons_self (h : x.id = n) : nodesAt (x :: nodes) (some n) = x :: nodes := by
  rw [nodesAt, List.dropWhile_cons_of_neg (by simpa using h)]

theorem nodesAt_cons_of_ne (h : x.id ≠ n) :
    nodesAt (x :: nodes) (some n) = nodesAt nodes (some n) := by
  rw [nodesAt, nodesAt, List.dropWhile_cons_of_pos (by simpa using h)]

theorem exists_nodesAt_eq_cons (h : ∃ x ∈ nodes, x.id = n) :
    ∃ x rest, nodesAt nodes (some n) = x :: rest ∧ x.id = n := by
  induction nodes with
  | nil => simp at h
  | cons y nodes ih =>
    by_cases hy : y.id = n
    · exact ⟨y, nodes, nodesAt_cons_self hy, hy⟩
    · obtain ⟨x, hmem, hx⟩ := h
      have hmem' : x ∈ nodes := by
        rcases List.mem_cons.1 hmem with rfl | hmem
        · exact absurd hx hy
        · exact hmem
      rw [nodesAt_cons_of_ne hy]
      exact ih ⟨x, hmem', hx⟩

theorem nodesAt_append (h : ∃ x ∈ nodes, x.id = n) (post : List (SubNode β)) :
    nodesAt (nodes ++ post) (some n) = nodesAt nodes (some n) ++ post := by
  obtain ⟨x, rest, heq, -⟩ := exists_nodesAt_eq_cons h
  rw [heq]
  rw [nodesAt] at heq ⊢
  rw [List.dropWhile_append, heq]
  rfl

theorem nodesAt_filter {q : SubNode β → Bool} (h : ∀ x ∈ nodes, k = some x.id → q x = true) :
    nodesAt (nodes.filter q) k = (nodesAt nodes k).filter q := by
  cases k with
  | none => rfl
  | some n =>
    induction nodes with
    | nil => rfl
    | cons x nodes ih =>
      have ih' := ih fun y hmem => h y (List.mem_cons_of_mem x hmem)
      by_cases hx : x.id = n
      · have hq : q x = true := h x List.mem_cons_self (by rw [hx])
        rw [nodesAt_cons_self hx, List.filter_cons_of_pos hq, nodesAt_cons_self hx]
      · rw [nodesAt_cons_of_ne hx, ← ih']
        cases hq : q x with
        | true => rw [List.filter_cons_of_pos hq, nodesAt_cons_of_ne hx]
        | false => rw [List.filter_cons_of_neg (by simp [hq])]

theorem nodesAt_of_suffix (hnodup : (nodes.map SubNode.id).Nodup) (h : post <:+ nodes) :
    nodesAt nodes (post.head?.map SubNode.id) = post := by
  cases post with
  | nil => rfl
  | cons x post =>
    obtain ⟨pre, rfl⟩ := h
    rw [List.map_append, List.map_cons, List.nodup_append] at hnodup
    have hpre : ∀ y ∈ pre, y.id ≠ x.id := fun y hmem =>
      hnodup.2.2 y.id (List.mem_map_of_mem hmem) x.id List.mem_cons_self
    change (pre ++ x :: post).dropWhile (fun y => y.id ≠ x.id) = x :: post
    rw [List.dropWhile_append_of_pos (by simpa using hpre),
      List.dropWhile_cons_of_neg (by simp)]

/-- **Inversion.** The loop over subscribers without callbacks stops at the next one with a callback
or at the end, and deletes only nodes before that. -/
theorem walk_cases (rest : List (SubNode β)) :
    (∃ pre x post, rest = pre ++ x :: post ∧ (∀ y ∈ pre, y.subscribe.cb.isSome = false) ∧
      x.subscribe.cb.isSome = true ∧ (walk rest).2 = some (x, post.head?.map SubNode.id) ∧
      ∀ id ∈ (walk rest).1, ∃ y ∈ pre, y.id = id) ∨
    ((∀ y ∈ rest, y.subscribe.cb.isSome = false) ∧ (walk rest).2 = none) := by
  induction rest with
  | nil => exact .inr ⟨by simp, rfl⟩
  | cons x rest ih =>
    rw [walk]
    by_cases hcb : x.subscribe.cb.isSome = true
    · rw [if_pos hcb]
      exact .inl ⟨[], x, rest, rfl, by simp, hcb, rfl, by simp⟩
    · rw [if_neg hcb]
      rw [Bool.not_eq_true] at hcb
      have hdelete : ∀ id ∈ (if x.subscribe.type = subscribeTypeOnetime then x.id :: (walk rest).1
          else (walk rest).1), id = x.id ∨ id ∈ (walk rest).1 := by
        intro id hid
        split_ifs at hid
        · exact List.mem_cons.1 hid
        · exact .inr hid
      rcases ih with ⟨pre, y, post, rfl, hpre, hy, hnext, hdeleted⟩ | ⟨hnone, hend⟩
      · refine .inl ⟨x :: pre, y, post, rfl, List.forall_mem_cons.2 ⟨hcb, hpre⟩, hy, hnext, ?_⟩
        intro id hid
        rcases hdelete id hid with rfl | hid
        · exact ⟨x, List.mem_cons_self, rfl⟩
        · obtain ⟨z, hmem, hz⟩ := hdeleted id hid
          exact ⟨z, List.mem_cons_of_mem x hmem, hz⟩
      · exact .inr ⟨List.forall_mem_cons.2 ⟨hcb, hnone⟩, hend⟩

end Places

/-! ### The invariant -/

/-- A publish that still has the subscribers of `rest` before it. -/
structure Running (fresh : ℕ) (p : Publish) (rest : List (SubNode β)) : Prop where
  pending : ∀ id ∈ p.started, id ∉ p.gone → id ∉ p.invoked → ∃ x ∈ rest, x.id = id
  callback : ∀ x ∈ rest, x.id ∈ p.started → x.subscribe.cb.isSome = true
  ahead : ∀ x ∈ rest, x.id ∉ p.invoked
  nodup : p.invoked.Nodup
  started_lt : ∀ id ∈ p.started, id < fresh
  invoked_lt : ∀ id ∈ p.invoked, id < fresh

def Publish.lose (p : Publish) (ids : List ℕ) : Publish := { p with gone := p.gone ++ ids }

def Publish.invoke (p : Publish) (id : ℕ) : Publish := { p with invoked := p.invoked ++ [id] }

namespace Running

variable {fresh : ℕ} {p : Publish} {rest : List (SubNode β)}

theorem unlink (h : Running fresh p rest) (ids : List ℕ) :
    Running fresh (p.lose ids) (rest.filter fun x => x.id ∉ ids) where
  pending id hid hgone hinvoked := by
    have hnot : id ∉ p.gone ∧ id ∉ ids := by simpa [Publish.lose] using hgone
    obtain ⟨x, hx, rfl⟩ := h.pending id hid hnot.1 hinvoked
    exact ⟨x, List.mem_filter.2 ⟨hx, by simpa using hnot.2⟩, rfl⟩
  callback x hx := h.callback x (List.mem_of_mem_filter hx)
  ahead x hx := h.ahead x (List.mem_of_mem_filter hx)
  nodup := h.nodup
  started_lt := h.started_lt
  invoked_lt := h.invoked_lt

theorem succ (h : Running fresh p rest) : Running (fresh + 1) p rest :=
  { h with
    started_lt := fun id hid => Nat.lt_succ_of_lt (h.started_lt id hid)
    invoked_lt := fun id hid => Nat.lt_succ_of_lt (h.invoked_lt id hid) }

theorem concat (h : Running fresh p rest) (s : Subscribe β) :
    Running (fresh + 1) p (rest ++ [⟨fresh, s⟩]) where
  pending id hid hgone hinvoked := by
    obtain ⟨x, hx, hxid⟩ := h.pending id hid hgone hinvoked
    exact ⟨x, List.mem_append_left _ hx, hxid⟩
  callback x hx hstarted := by
    rcases List.mem_append.1 hx with hx | hx
    · exact h.callback x hx hstarted
    · obtain rfl := List.mem_singleton.1 hx
      exact absurd (h.started_lt _ hstarted) (Nat.lt_irrefl fresh)
  ahead x hx hinvoked := by
    rcases List.mem_append.1 hx with hx | hx
    · exact h.ahead x hx hinvoked
    · obtain rfl := List.mem_singleton.1 hx
      exact Nat.lt_irrefl fresh (h.invoked_lt _ hinvoked)
  nodup := h.nodup
  started_lt := h.succ.started_lt
  invoked_lt := h.succ.invoked_lt

theorem returned (h : Running fresh p rest) (code : OperateRet) :
    Running fresh (p.return code) rest :=
  ⟨h.pending, h.callback, h.ahead, h.nodup, h.started_lt, h.invoked_lt⟩

theorem walk {pre post : List (SubNode β)} {x : SubNode β} (h : Running fresh p (pre ++ x :: post))
    (hnodup : ((pre ++ x :: post).map SubNode.id).Nodup) (hlt : x.id < fresh)
    (hpre : ∀ y ∈ pre, y.subscribe.cb.isSome = false) :
    Running fresh (p.invoke x.id) post where
  pending id hid hgone hinvoked := by
    have hnot : id ∉ p.invoked ∧ id ≠ x.id := by simpa [Publish.invoke] using hinvoked
    obtain ⟨y, hy, rfl⟩ := h.pending id hid hgone hnot.1
    rcases List.mem_append.1 hy with hpos | hpos
    · have hcb := h.callback y hy hid
      rw [hpre y hpos] at hcb
      cases hcb
    · rcases List.mem_cons.1 hpos with rfl | hpos
      · exact absurd rfl hnot.2
      · exact ⟨y, hpos, rfl⟩
  callback y hy := h.callback y (List.mem_append_right pre (List.mem_cons_of_mem x hy))
  ahead y hy hinvoked := by
    rcases List.mem_append.1 hinvoked with hinvoked | hself
    · exact h.ahead y (List.mem_append_right pre (List.mem_cons_of_mem x hy)) hinvoked
    · rw [List.map_append, List.map_cons, List.nodup_append, List.nodup_cons] at hnodup
      refine hnodup.2.1.1 ?_
      rw [← List.mem_singleton.1 hself]
      exact List.mem_map_of_mem hy
  nodup := by
    have hx := h.ahead x (List.mem_append_right pre List.mem_cons_self)
    exact List.nodup_append.2 ⟨h.nodup, List.nodup_singleton _, fun a ha b hb hab => hx (by
      rwa [← List.mem_singleton.1 hb, ← hab])⟩
  started_lt := h.started_lt
  invoked_lt id hid := by
    rcases List.mem_append.1 hid with hid | hid
    · exact h.invoked_lt id hid
    · rwa [List.mem_singleton.1 hid]

theorem truthful (h : Running fresh p rest) (hnone : ∀ y ∈ rest, y.subscribe.cb.isSome = false)
    (htruth : p.rt = oprtOk → p.failed = false) : p.Truthful where
  once id hid hgone := by
    refine List.count_eq_one_of_mem h.nodup ?_
    by_contra hinvoked
    obtain ⟨x, hx, rfl⟩ := h.pending id hid hgone hinvoked
    have hcb := h.callback x hx hid
    rw [hnone x hx] at hcb
    cases hcb
  truth := htruth

end Running

theorem running_startPublish {fresh : ℕ} {nodes : List (SubNode β)}
    (hnodup : (nodes.map SubNode.id).Nodup) (hlt : ∀ x ∈ nodes, x.id < fresh) :
    Running fresh (startPublish nodes) nodes where
  pending id hid _ _ := by
    obtain ⟨x, hx, rfl⟩ := List.mem_map.1 hid
    exact ⟨x, List.mem_of_mem_filter hx, rfl⟩
  callback x hx hid := by
    obtain ⟨y, hy, hyx⟩ := List.mem_map.1 hid
    obtain ⟨hy, hcb⟩ := List.mem_filter.1 hy
    rwa [List.inj_on_of_nodup_map hnodup hy hx hyx] at hcb
  ahead _ _ := List.not_mem_nil
  nodup := List.nodup_nil
  started_lt id hid := by
    obtain ⟨x, hx, rfl⟩ := List.mem_map.1 hid
    exact hlt x (List.mem_of_mem_filter hx)
  invoked_lt id hid := absurd hid List.not_mem_nil

/-- A dispatch whose callback runs: what it will read is linked. -/
structure Active (nodes : List (SubNode β)) (fresh : ℕ) (f : Dispatch) : Prop where
  entry : ∃ x ∈ nodes, x.id = f.entry
  next : ∀ n, f.n = some n → ∃ x ∈ nodes, x.id = n
  invoked : f.entry ∈ f.publish.invoked
  running : Running fresh f.publish (nodesAt nodes f.n)

structure Sound (l : EventList β) : Prop where
  nodup : (l.nodes.map SubNode.id).Nodup
  lt : ∀ x ∈ l.nodes, x.id < l.fresh
  active : ∀ f ∈ l.stack, Active l.nodes l.fresh f
  truthful : AllTruthful l

namespace Active

variable {nodes : List (SubNode β)} {fresh : ℕ} {f : Dispatch}

theorem entry_not_mem (h : Active nodes fresh f) : ∀ x ∈ nodesAt nodes f.n, x.id ≠ f.entry :=
  fun x hx heq => h.running.ahead x hx (heq ▸ h.invoked)

theorem next_ne_entry (h : Active nodes fresh f) : f.n ≠ some f.entry := by
  intro hn
  obtain ⟨x, rest, heq, hx⟩ := exists_nodesAt_eq_cons (h.next f.entry hn)
  refine h.entry_not_mem x ?_ hx
  rw [hn, heq]
  exact List.mem_cons_self

theorem nodesAt_unlink_entry (h : Active nodes fresh f) :
    nodesAt (nodes.filter fun x => x.id ∉ [f.entry]) f.n = nodesAt nodes f.n := by
  have hplace : ∀ x ∈ nodes, f.n = some x.id → decide (x.id ∉ [f.entry]) = true := by
    intro x _ hn
    have hne : x.id ≠ f.entry := fun heq => h.next_ne_entry (heq ▸ hn)
    simpa using hne
  rw [nodesAt_filter hplace]
  exact List.filter_eq_self.2 fun x hx => by simpa using h.entry_not_mem x hx

theorem next_unlink_entry (h : Active nodes fresh f) :
    ∀ n, f.n = some n → ∃ x ∈ nodes.filter (fun x => x.id ∉ [f.entry]), x.id = n := by
  intro n hn
  obtain ⟨x, hx, rfl⟩ := h.next n hn
  have hne : x.id ≠ f.entry := fun heq => h.next_ne_entry (heq ▸ hn)
  exact ⟨x, List.mem_filter.2 ⟨hx, by simpa using hne⟩, rfl⟩

theorem unlink (h : Active nodes fresh f) {ids : List ℕ} (hentry : f.entry ∉ ids)
    (hnext : ∀ n, f.n = some n → n ∉ ids) :
    Active (nodes.filter fun x => x.id ∉ ids) fresh { f with publish := f.publish.lose ids } where
  entry := by
    obtain ⟨x, hx, hxid⟩ := h.entry
    exact ⟨x, List.mem_filter.2 ⟨hx, by simpa [hxid] using hentry⟩, hxid⟩
  next n hn := by
    obtain ⟨x, hx, hxid⟩ := h.next n hn
    exact ⟨x, List.mem_filter.2 ⟨hx, by simpa [hxid] using hnext n hn⟩, hxid⟩
  invoked := h.invoked
  running := by
    change Running fresh (f.publish.lose ids) (nodesAt (nodes.filter fun x => x.id ∉ ids) f.n)
    rw [nodesAt_filter fun x _ hx => by simpa using hnext x.id hx]
    exact h.running.unlink ids

theorem cons (h : Active nodes fresh f) (hlt : ∀ x ∈ nodes, x.id < fresh) (s : Subscribe β) :
    Active (⟨fresh, s⟩ :: nodes) (fresh + 1) f where
  entry := by
    obtain ⟨x, hx, hxid⟩ := h.entry
    exact ⟨x, List.mem_cons_of_mem _ hx, hxid⟩
  next n hn := by
    obtain ⟨x, hx, hxid⟩ := h.next n hn
    exact ⟨x, List.mem_cons_of_mem _ hx, hxid⟩
  invoked := h.invoked
  running := by
    have hplace : nodesAt (⟨fresh, s⟩ :: nodes) f.n = nodesAt nodes f.n := by
      cases hn : f.n with
      | none => rfl
      | some n =>
        obtain ⟨x, hx, rfl⟩ := h.next n hn
        exact nodesAt_cons_of_ne (hlt x hx).ne'
    rw [hplace]
    exact h.running.succ

theorem concat (h : Active nodes fresh f) (s : Subscribe β) :
    Active (nodes ++ [⟨fresh, s⟩]) (fresh + 1) f where
  entry := by
    obtain ⟨x, hx, hxid⟩ := h.entry
    exact ⟨x, List.mem_append_left _ hx, hxid⟩
  next n hn := by
    obtain ⟨x, hx, hxid⟩ := h.next n hn
    exact ⟨x, List.mem_append_left _ hx, hxid⟩
  invoked := h.invoked
  running := by
    have hrunning := h.running
    cases hn : f.n with
    | none =>
      rw [hn] at hrunning
      exact hrunning.succ
    | some n =>
      rw [nodesAt_append (h.next n hn)]
      rw [hn] at hrunning
      exact hrunning.concat s

end Active

namespace Sound

variable {l : EventList β}

theorem unlink (h : Sound l) {ids : List ℕ} (hunused : ∀ id ∈ ids, Unused l.stack id) :
    Sound (l.unlink ids) where
  nodup := h.nodup.sublist (List.filter_sublist.map SubNode.id)
  lt x hx := h.lt x (List.mem_of_mem_filter hx)
  active := by
    refine List.forall_mem_map.2 fun f hf => (h.active f hf).unlink ?_ ?_
    · exact fun hid => (hunused f.entry hid f hf).1 rfl
    · exact fun n hn hid => (hunused n hid f hf).2 hn
  truthful := h.truthful

theorem proceed (h : Sound l) {p : Publish} {rest : List (SubNode β)} (hrest : rest <:+ l.nodes)
    (hrunning : Running l.fresh p rest) (hunused : ∀ id ∈ (walk rest).1, Unused l.stack id)
    (htruth : (∀ x ∈ rest, x.subscribe.cb.isSome = false) → p.rt = oprtOk → p.failed = false) :
    Sound (l.proceed p rest) := by
  have hunlink := h.unlink hunused
  rw [EventList.proceed]
  rcases walk_cases rest with ⟨pre, x, post, rfl, hpre, -, hnext, hdeleted⟩ | ⟨hnone, hend⟩
  · rw [hnext]
    have hnodup : ((pre ++ x :: post).map SubNode.id).Nodup :=
      h.nodup.sublist (hrest.sublist.map SubNode.id)
    -- What is deleted comes before `x`, so that `x` and what follows stay.
    have hstay : ∀ y ∈ x :: post, y.id ∉ (walk (pre ++ x :: post)).1 := by
      intro y hy hid
      obtain ⟨z, hz, hzid⟩ := hdeleted y.id hid
      rw [List.map_append, List.nodup_append] at hnodup
      exact hnodup.2.2 z.id (List.mem_map_of_mem hz) y.id (List.mem_map_of_mem hy) hzid
    have hsuffix : x :: post <:+ (l.unlink (walk (pre ++ x :: post)).1).nodes := by
      have hfilter := (List.suffix_append pre (x :: post)).trans hrest |>.filter
        fun y => y.id ∉ (walk (pre ++ x :: post)).1
      rwa [List.filter_eq_self.2 fun y hy => by simpa using hstay y hy] at hfilter
    have hpost : post <:+ (l.unlink (walk (pre ++ x :: post)).1).nodes :=
      (List.suffix_cons x post).trans hsuffix
    refine ⟨hunlink.nodup, hunlink.lt, List.forall_mem_cons.2 ⟨?_, hunlink.active⟩,
      hunlink.truthful⟩
    refine ⟨⟨x, hsuffix.subset List.mem_cons_self, rfl⟩, ?_, by simp, ?_⟩
    · intro n hn
      obtain ⟨y, hy, hyn⟩ := Option.map_eq_some_iff.1 hn
      exact ⟨y, hpost.subset (List.mem_of_mem_head? hy), hyn⟩
    · change Running _ (p.invoke x.id) (nodesAt _ (post.head?.map SubNode.id))
      rw [nodesAt_of_suffix hunlink.nodup hpost]
      exact hrunning.walk hnodup
        (h.lt x (hrest.subset (List.mem_append_right pre List.mem_cons_self))) hpre
  · rw [hend]
    refine ⟨hunlink.nodup, hunlink.lt, hunlink.active, List.forall_mem_cons.2 ⟨?_, h.truthful⟩⟩
    exact hrunning.truthful hnone (htruth hnone)

theorem endIteration (h : Sound l) {f : Dispatch} (hf : Active l.nodes l.fresh f) {x : SubNode β}
    (hx : x.id = f.entry)
    (hself : x.subscribe.type = subscribeTypeOnetime → Unused l.stack x.id) :
    Sound (l.endIteration x) ∧ (l.endIteration x).fresh = l.fresh ∧
      (∀ n, f.n = some n → ∃ y ∈ (l.endIteration x).nodes, y.id = n) ∧
      nodesAt (l.endIteration x).nodes f.n = nodesAt l.nodes f.n ∧
      ∀ id, Unused l.stack id → Unused (l.endIteration x).stack id := by
  rw [EventList.endIteration]
  split_ifs with htype
  · refine ⟨h.unlink (List.forall_mem_singleton.2 (hself htype)), rfl, ?_, ?_,
      fun id hid => List.forall_mem_map.2 hid⟩
    · rw [hx]
      exact hf.next_unlink_entry
    · rw [hx]
      exact hf.nodesAt_unlink_entry
  · exact ⟨h, rfl, hf.next, rfl, fun _ hid => hid⟩

variable [DecidableEq β]

theorem addSubscribe (h : Sound l) (s : Subscribe β) (malloc : Bool) :
    Sound (l.addSubscribe s malloc) := by
  have hnew : l.fresh ∉ l.nodes.map SubNode.id := by
    intro hmem
    obtain ⟨x, hx, hxid⟩ := List.mem_map.1 hmem
    exact absurd (h.lt x hx) (by omega)
  have hlt : ∀ x ∈ l.nodes, x.id < l.fresh + 1 := fun x hx => Nat.lt_succ_of_lt (h.lt x hx)
  rw [EventList.addSubscribe]
  split_ifs
  · exact h
  · exact ⟨List.nodup_cons.2 ⟨hnew, h.nodup⟩,
      List.forall_mem_cons.2 ⟨Nat.lt_succ_self _, hlt⟩,
      fun f hf => (h.active f hf).cons h.lt s, h.truthful⟩
  · refine ⟨?_, ?_, fun f hf => (h.active f hf).concat s, h.truthful⟩
    · rw [List.map_append]
      refine List.nodup_append.2 ⟨h.nodup, List.nodup_singleton _, ?_⟩
      rintro a ha b hb rfl
      have ha' : a = l.fresh := List.mem_singleton.1 hb
      exact hnew (ha' ▸ ha)
    · exact List.forall_mem_append.2 ⟨hlt, List.forall_mem_singleton.2 (Nat.lt_succ_self _)⟩
  · exact h

theorem delSubscribe (h : Sound l) {s : Subscribe β}
    (hunused : ∀ x ∈ eventNodeGetSubscribe l.nodes s, Unused l.stack x.id) :
    Sound (l.delSubscribe s) := by
  rw [EventList.delSubscribe]
  cases hget : eventNodeGetSubscribe l.nodes s with
  | none => exact h
  | some x =>
    refine h.unlink (List.forall_mem_singleton.2 (hunused x ?_))
    rw [hget]
    rfl

theorem ret (h : Sound l) {f : Dispatch} {stack : List Dispatch} (hstack : l.stack = f :: stack)
    {code : OperateRet} (hkept : Kept l (.ret code)) :
    ∃ l', dispatchStep l (.ret code) = some l' ∧ Sound l' := by
  simp only [Kept, hstack] at hkept
  obtain ⟨hself, hunused, htruth⟩ := hkept
  have hf : Active l.nodes l.fresh f := h.active f (by rw [hstack]; exact List.mem_cons_self)
  have hpopped : Sound { l with stack := stack } :=
    ⟨h.nodup, h.lt, fun g hg => h.active g (by rw [hstack]; exact List.mem_cons_of_mem f hg),
      h.truthful⟩
  obtain ⟨x, hx⟩ : ∃ x, l.nodes.find? (fun x => x.id = f.entry) = some x := by
    rw [← Option.isSome_iff_exists, List.find?_isSome]
    obtain ⟨x, hx, hxid⟩ := hf.entry
    exact ⟨x, hx, by simpa using hxid⟩
  have hxid : x.id = f.entry := by simpa using List.find?_some hx
  obtain ⟨hsound, hfresh, hnext, hplace, hkeep⟩ := hpopped.endIteration hf hxid fun htype => by
    rw [hxid]
    exact hself x (List.mem_of_find?_eq_some hx) hxid htype
  simp only [dispatchStep, hstack, hx]
  generalize EventList.endIteration { l with stack := stack } x = l₁ at *
  have hread : ¬((f.n.isSome && (nodesAt l₁.nodes f.n).isEmpty) = true) := by
    cases hn : f.n with
    | none => simp
    | some n =>
      obtain ⟨y, rest, heq, -⟩ := exists_nodesAt_eq_cons (hnext n hn)
      rw [heq]
      simp
  rw [if_neg hread]
  refine ⟨_, rfl, ?_⟩
  change nodesAt l₁.nodes f.n = nodesAt l.nodes f.n at hplace
  refine hsound.proceed (nodesAt_suffix _ _) ?_ ?_ ?_
  · rw [hplace, hfresh]
    exact hf.running.returned code
  · rw [hplace]
    exact fun id hid => hkeep id (hunused id hid)
  · rw [hplace]
    intro hnone hok
    have hcode : code = oprtOk := hok
    simpa [Publish.return, hcode] using htruth hnone hcode

/-- **Step.** -/
theorem step (h : Sound l) {ev : DispatchEvent β} (hkept : Kept l ev) :
    ∃ l', dispatchStep l ev = some l' ∧ Sound l' := by
  cases ev with
  | publish =>
    exact ⟨_, rfl, h.proceed List.suffix_rfl (running_startPublish h.nodup h.lt) hkept
      fun _ _ => rfl⟩
  | subscribe s malloc => exact ⟨_, rfl, h.addSubscribe s malloc⟩
  | unsubscribe s => exact ⟨_, rfl, h.delSubscribe hkept⟩
  | ret code =>
    cases hstack : l.stack with
    | nil => exact ⟨l, by simp only [dispatchStep, hstack], h⟩
    | cons f stack => exact h.ret hstack hkept

theorem next (h : Sound l) {ev : DispatchEvent β} (hkept : Kept l ev) :
    dispatchStep l ev = some (l.next ev) ∧ Sound (l.next ev) := by
  obtain ⟨l', hstep, hsound⟩ := h.step hkept
  rw [EventList.next, hstep]
  exact ⟨rfl, hsound⟩

end Sound

theorem sound_init (subscribes : List (Subscribe β)) : Sound (.init subscribes) where
  nodup := by
    have hids : (EventList.init subscribes).nodes.map SubNode.id =
        List.range' 0 subscribes.length := by
      rw [EventList.init, List.map_map]
      exact List.zipIdx_map_snd 0 subscribes
    rw [hids]
    exact List.nodup_range'
  lt x hx := by
    obtain ⟨⟨s, i⟩, hmem, rfl⟩ := List.mem_map.1 hx
    exact List.snd_lt_of_mem_zipIdx hmem
  active _ hf := absurd hf List.not_mem_nil
  truthful _ hp := absurd hp List.not_mem_nil

/-- **Dispatch.** In a run whose steps meet the condition, the loop reads only linked nodes.
A publish invokes the subscribers that are there throughout exactly once, and only reports success
if no callback has failed. -/
theorem truthful_throughout [DecidableEq β] (subscribes : List (Subscribe β))
    (evs : List (DispatchEvent β)) (h : Guarded EventList.next Kept (.init subscribes) evs) :
    Throughout dispatchStep AllTruthful (.init subscribes) evs :=
  Throughout.of_guarded (fun _ h => h.truthful) (fun _ _ h hkept => h.next hkept)
    (sound_init subscribes) h

def threeSubscribes : List (Subscribe ℕ) :=
  [⟨[1], [1], 0, some 1⟩, ⟨[1], [2], subscribeTypeOnetime, some 2⟩, ⟨[1], [3], 0, some 3⟩]

/-- The first callback adds a subscriber and removes the third one. The second one fails. The one
that has been added publishes the event again and fails. -/
theorem truthful_throughout_threeSubscribes :
    Throughout dispatchStep AllTruthful (.init threeSubscribes)
      [.publish, .subscribe ⟨[1], [4], 0, some 4⟩ true, .unsubscribe ⟨[1], [3], 0, some 3⟩,
        .ret oprtOk, .ret oprtComError, .publish, .ret oprtOk, .ret oprtComError,
        .ret oprtComError] :=
  truthful_throughout threeSubscribes _ (by decide +kernel)

/-- It does not hold of every run: a callback fails and the next one does not, the subscriber whose
callback runs is removed, and so is the next one. -/
theorem not_truthful_throughout_threeSubscribes :
    ¬Throughout dispatchStep AllTruthful (.init threeSubscribes)
        [.publish, .ret oprtComError, .ret oprtComError, .ret oprtOk] ∧
      ¬Throughout dispatchStep AllTruthful (.init threeSubscribes)
        [.publish, .unsubscribe ⟨[1], [1], 0, some 1⟩, .ret oprtOk] ∧
      ¬Throughout dispatchStep AllTruthful (.init threeSubscribes)
        [.publish, .unsubscribe ⟨[1], [2], 0, some 2⟩, .ret oprtOk] := by
  refine ⟨?_, ?_, ?_⟩ <;> decide +kernel

end TuyaOpen.System
