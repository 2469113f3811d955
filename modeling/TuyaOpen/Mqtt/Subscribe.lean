import TuyaOpen.Basic.Bytes
import TuyaOpen.Basic.Transition
import TuyaOpen.Common.OperateRet
import Mathlib.Data.List.Count
import Mathlib.Data.Set.Insert

/-!
# The subscriptions of the MQTT service

The handles of the topics that have been registered, in a list to which a new one is added at the
head. A registration is dropped when a handle has the same handler and a topic with which the new
topic begins: the comparison is over the length of the topic of the handle only. A handler `NULL`
stands for the default handler, but it is compared as it is, and no handle has it.

## Main results

* `distribute_of_ne`: a call makes no difference to the messages of another topic.
* `delivers_subscribeNext_iff`: when a call keeps the deliveries right.
* `guarded_delivers_iff`: the runs whose deliveries are right.
-/

namespace TuyaOpen.Mqtt

/-! ### The functions -/

/-- `mqtt_subscribe_handle_t`. A topic is the bytes before its terminating zero, and the handlers
are any type `H`. -/
structure SubscribeHandle (H : Type) where
  topic : Bytes
  cb : H
  userdata : Nat

/-- The arguments of a registration, and what happens in it: the message id that
`mqtt_client_subscribe` returns, and whether memory is allocated. -/
structure RegisterCall (H : Type) where
  topic : Option Bytes
  cb : Option H
  userdata : Nat
  msgid : UInt16
  calloc : Bool
  callocTopic : Bool

variable {H : Type} [DecidableEq H]

/-- The comparison of the repetition filter: `memcmp` goes over the length of the topic of the
handle. A topic that is shorter differs from it at its terminating zero. -/
def Repeats (topic : Bytes) (cb : Option H) (target : SubscribeHandle H) : Prop :=
  target.topic <+: topic ∧ some target.cb = cb

instance (topic : Bytes) (cb : Option H) (target : SubscribeHandle H) :
    Decidable (Repeats topic cb target) :=
  inferInstanceAs (Decidable (_ ∧ _))

/-- `tuya_mqtt_subscribe_message_callback_register`. There is a fault when there is no memory for
the copy of the topic. -/
def tuyaMqttSubscribeMessageCallbackRegister (onSubscribeMessageDefault : H)
    (l : List (SubscribeHandle H)) (call : RegisterCall H) :
    Option (OperateRet × List (SubscribeHandle H)) :=
  match call.topic with
  | none => some (oprtInvalidParm, l)
  | some topic =>
    if call.msgid = 0 then some (oprtComError, l)
    else if ∃ target ∈ l, Repeats topic call.cb target then some (oprtOk, l)
    else if call.calloc = false then some (oprtMallocFailed, l)
    else if call.callocTopic = false then none
    else some (oprtOk, ⟨topic, call.cb.getD onSubscribeMessageDefault, call.userdata⟩ :: l)

/-- `tuya_mqtt_subscribe_message_callback_unregister`: `msgid` is what `mqtt_client_unsubscribe`
returns. -/
def tuyaMqttSubscribeMessageCallbackUnregister (l : List (SubscribeHandle H))
    (topic : Option Bytes) (msgid : UInt16) : OperateRet × List (SubscribeHandle H) :=
  match topic with
  | none => (oprtInvalidParm, l)
  | some topic =>
    (if msgid = 0 then oprtComError else oprtOk, l.filter fun entry => entry.topic ≠ topic)

/-- `mqtt_subscribe_message_distribute`: the calls of the handlers, with their data. -/
def mqttSubscribeMessageDistribute (l : List (SubscribeHandle H)) (topic : Bytes) :
    List (H × Nat) :=
  (l.filter fun target => target.topic = topic).map fun target => (target.cb, target.userdata)

/-! ### The calls -/

inductive SubscribeEvent (H : Type)
  | register (call : RegisterCall H)
  | unregister (topic : Option Bytes) (msgid : UInt16)

def subscribeStep (onSubscribeMessageDefault : H) (l : List (SubscribeHandle H)) :
    SubscribeEvent H → Option (OperateRet × List (SubscribeHandle H))
  | .register call => tuyaMqttSubscribeMessageCallbackRegister onSubscribeMessageDefault l call
  | .unregister topic msgid => some (tuyaMqttSubscribeMessageCallbackUnregister l topic msgid)

/-- What is registered after a call that returns `ret`: a topic and a handler after a registration
that returns `OPRT_OK`, and nothing for a topic that has been unregistered. -/
def observe (onSubscribeMessageDefault : H) (registered : Set (Bytes × H)) (ret : OperateRet) :
    SubscribeEvent H → Set (Bytes × H)
  | .register call =>
    match call.topic with
    | none => registered
    | some topic =>
      if ret = oprtOk then insert (topic, call.cb.getD onSubscribeMessageDefault) registered
      else registered
  | .unregister none _ => registered
  | .unregister (some topic) _ => {p ∈ registered | p.1 ≠ topic}

/-- The list, and what has been registered. -/
structure Subscriptions (H : Type) where
  subscribeList : List (SubscribeHandle H)
  registered : Set (Bytes × H)

def Subscriptions.init : Subscriptions H := ⟨[], ∅⟩

/-- The list and what has been registered after a call. A fault leaves both as they are. -/
def subscribeNext (onSubscribeMessageDefault : H) (s : Subscriptions H) (ev : SubscribeEvent H) :
    Subscriptions H :=
  match subscribeStep onSubscribeMessageDefault s.subscribeList ev with
  | none => s
  | some (ret, l) => ⟨l, observe onSubscribeMessageDefault s.registered ret ev⟩

def deliveries (l : List (SubscribeHandle H)) (topic : Bytes) (cb : H) : Nat :=
  ((mqttSubscribeMessageDistribute l topic).map Prod.fst).count cb

/-- A message is delivered once to each handler that is registered for its topic, and to no other
one. -/
def Delivers (s : Subscriptions H) : Prop :=
  ∀ topic cb, ((topic, cb) ∈ s.registered → deliveries s.subscribeList topic cb = 1) ∧
    ((topic, cb) ∉ s.registered → deliveries s.subscribeList topic cb = 0)

def SubscribeEvent.topic : SubscribeEvent H → Option Bytes
  | .register call => call.topic
  | .unregister topic _ => topic

/-- After a call the deliveries are right, and those of the other topics are what they were. -/
def RightSubscribe (onSubscribeMessageDefault : H) (s : Subscriptions H) (ev : SubscribeEvent H) :
    Prop :=
  Delivers (subscribeNext onSubscribeMessageDefault s ev) ∧
    ∀ topic, ev.topic ≠ some topic →
      mqttSubscribeMessageDistribute
          (subscribeNext onSubscribeMessageDefault s ev).subscribeList topic =
        mqttSubscribeMessageDistribute s.subscribeList topic

/-- The condition on a call. A handler is registered for a topic only when either it is so already,
or it is for no topic with which this one begins; the default handler is registered as `NULL` only
when it is not so already. -/
def SubscribeCond (onSubscribeMessageDefault : H) (s : Subscriptions H) : SubscribeEvent H → Prop
  | .register call => ∀ topic, call.topic = some topic → call.msgid ≠ 0 →
    (∀ cb, call.cb = some cb → (∃ p, p <+: topic ∧ (p, cb) ∈ s.registered) →
      (topic, cb) ∈ s.registered) ∧
    (call.cb = none → call.calloc = true → call.callocTopic = true →
      (topic, onSubscribeMessageDefault) ∉ s.registered)
  | .unregister _ _ => True

/-! ### The deliveries -/

def SubscribeHandle.key (target : SubscribeHandle H) : Bytes × H := (target.topic, target.cb)

theorem deliveries_eq_count (l : List (SubscribeHandle H)) (topic : Bytes) (cb : H) :
    deliveries l topic cb = (l.map SubscribeHandle.key).count (topic, cb) := by
  induction l with
  | nil => rfl
  | cons target l ih =>
    rw [deliveries, mqttSubscribeMessageDistribute] at ih ⊢
    rw [List.map_cons, List.count_cons, ← ih, SubscribeHandle.key]
    by_cases htopic : target.topic = topic
    · simp [htopic, List.count_cons]
    · simp [htopic]

theorem deliveries_eq_zero_iff {l : List (SubscribeHandle H)} {topic : Bytes} {cb : H} :
    deliveries l topic cb = 0 ↔ (topic, cb) ∉ l.map SubscribeHandle.key := by
  rw [deliveries_eq_count, List.count_eq_zero]

variable {s : Subscriptions H} {onSubscribeMessageDefault : H}

theorem delivers_init : Delivers (Subscriptions.init : Subscriptions H) :=
  fun _ _ => ⟨fun h => absurd h (Set.notMem_empty _), fun _ => rfl⟩

theorem Delivers.mem_iff (h : Delivers s) (p : Bytes × H) :
    p ∈ s.registered ↔ ∃ target ∈ s.subscribeList, target.key = p := by
  rw [← List.mem_map]
  constructor
  · intro hmem
    by_contra hnone
    have hone := (h p.1 p.2).1 hmem
    rw [deliveries_eq_zero_iff.2 hnone] at hone
    cases hone
  · intro hmem
    by_contra hnone
    exact deliveries_eq_zero_iff.1 ((h p.1 p.2).2 hnone) hmem

theorem deliveries_cons (target : SubscribeHandle H) (l : List (SubscribeHandle H)) (topic : Bytes)
    (cb : H) :
    deliveries (target :: l) topic cb =
      deliveries l topic cb + if target.key = (topic, cb) then 1 else 0 := by
  rw [deliveries_eq_count, deliveries_eq_count, List.map_cons, List.count_cons]
  simp only [beq_iff_eq]

omit [DecidableEq H] in
theorem distribute_filter_ne (l : List (SubscribeHandle H)) {topic topic' : Bytes}
    (hne : topic' ≠ topic) :
    mqttSubscribeMessageDistribute (l.filter fun entry => entry.topic ≠ topic) topic' =
      mqttSubscribeMessageDistribute l topic' := by
  rw [mqttSubscribeMessageDistribute, mqttSubscribeMessageDistribute, List.filter_filter]
  congr 1
  refine List.filter_congr fun target _ => ?_
  by_cases h : target.topic = topic'
  · simp [h, hne]
  · simp [h]

omit [DecidableEq H] in
theorem distribute_filter_self (l : List (SubscribeHandle H)) (topic : Bytes) :
    mqttSubscribeMessageDistribute (l.filter fun entry => entry.topic ≠ topic) topic = [] := by
  rw [mqttSubscribeMessageDistribute, List.filter_filter, List.map_eq_nil_iff,
    List.filter_eq_nil_iff]
  intro target _
  by_cases h : target.topic = topic
  · simp [h]
  · simp [h]

/-! ### The calls one by one -/

theorem Delivers.insert_iff (h : Delivers s) (p : Bytes × H) :
    Delivers (⟨s.subscribeList, insert p s.registered⟩ : Subscriptions H) ↔ p ∈ s.registered := by
  constructor
  · intro hinsert
    by_contra hnone
    have hone := (hinsert p.1 p.2).1 (Set.mem_insert p _)
    rw [(h p.1 p.2).2 hnone] at hone
    cases hone
  · intro hmem
    rw [Set.insert_eq_of_mem hmem]
    exact h

theorem Delivers.cons_iff (h : Delivers s) (target : SubscribeHandle H) :
    Delivers ⟨target :: s.subscribeList, insert target.key s.registered⟩ ↔
      target.key ∉ s.registered := by
  constructor
  · intro hcons hmem
    have hone := (hcons target.topic target.cb).1 (Set.mem_insert _ _)
    have hkey : target.key = (target.topic, target.cb) := rfl
    rw [deliveries_cons, (h target.topic target.cb).1 hmem, if_pos hkey] at hone
    omega
  · intro hnone topic cb
    rw [deliveries_cons, Set.mem_insert_iff]
    by_cases hkey : target.key = (topic, cb)
    · rw [hkey] at hnone
      rw [if_pos hkey, (h topic cb).2 hnone]
      exact ⟨fun _ => rfl, fun hnot => absurd (Or.inl hkey.symm) hnot⟩
    · rw [if_neg hkey]
      refine ⟨fun hmem => ?_, fun hnot => (h topic cb).2 fun hmem => hnot (Or.inr hmem)⟩
      exact (h topic cb).1 (hmem.resolve_left fun heq => hkey heq.symm)

theorem Delivers.filter (h : Delivers s) (topic : Bytes) :
    Delivers ⟨s.subscribeList.filter fun entry => entry.topic ≠ topic,
      {p ∈ s.registered | p.1 ≠ topic}⟩ := by
  intro topic' cb
  by_cases htopic : topic' = topic
  · subst htopic
    rw [deliveries, distribute_filter_self]
    exact ⟨fun hmem => absurd rfl hmem.2, fun _ => rfl⟩
  · rw [deliveries, distribute_filter_ne _ htopic, ← deliveries]
    exact ⟨fun hmem => (h topic' cb).1 hmem.1,
      fun hnot => (h topic' cb).2 fun hmem => hnot ⟨hmem, htopic⟩⟩

theorem Delivers.exists_repeats_iff (h : Delivers s) (topic : Bytes) (cb : Option H) :
    (∃ target ∈ s.subscribeList, Repeats topic cb target) ↔
      ∃ cb', cb = some cb' ∧ ∃ p, p <+: topic ∧ (p, cb') ∈ s.registered := by
  constructor
  · rintro ⟨target, hmem, hpre, hcb⟩
    exact ⟨target.cb, hcb.symm, target.topic, hpre, (h.mem_iff _).2 ⟨target, hmem, rfl⟩⟩
  · rintro ⟨cb', rfl, p, hpre, hmem⟩
    obtain ⟨target, htarget, hkey⟩ := (h.mem_iff _).1 hmem
    obtain ⟨rfl, rfl⟩ := Prod.mk.inj hkey
    exact ⟨target, htarget, hpre, rfl⟩

section Register

variable {call : RegisterCall H} {topic : Bytes}

theorem subscribeNext_register_of_repeats (htopic : call.topic = some topic)
    (hmsgid : call.msgid ≠ 0)
    (hrepeats : ∃ target ∈ s.subscribeList, Repeats topic call.cb target) :
    subscribeNext onSubscribeMessageDefault s (.register call) =
      ⟨s.subscribeList,
        insert (topic, call.cb.getD onSubscribeMessageDefault) s.registered⟩ := by
  simp [subscribeNext, subscribeStep, tuyaMqttSubscribeMessageCallbackRegister, observe, htopic,
    hmsgid, hrepeats]

theorem subscribeNext_register_of_new (htopic : call.topic = some topic) (hmsgid : call.msgid ≠ 0)
    (hnew : ¬∃ target ∈ s.subscribeList, Repeats topic call.cb target)
    (hcalloc : call.calloc = true) (hcallocTopic : call.callocTopic = true) :
    subscribeNext onSubscribeMessageDefault s (.register call) =
      ⟨⟨topic, call.cb.getD onSubscribeMessageDefault, call.userdata⟩ :: s.subscribeList,
        insert (topic, call.cb.getD onSubscribeMessageDefault) s.registered⟩ := by
  simp [subscribeNext, subscribeStep, tuyaMqttSubscribeMessageCallbackRegister, observe, htopic,
    hmsgid, hnew, hcalloc, hcallocTopic]

/-- A registration without a topic, one that the client does not send, or a new one for which there
is no memory. -/
def RegisterFails (s : Subscriptions H) (call : RegisterCall H) : Prop :=
  ∀ topic, call.topic = some topic → call.msgid ≠ 0 →
    (¬∃ target ∈ s.subscribeList, Repeats topic call.cb target) ∧
      ¬(call.calloc = true ∧ call.callocTopic = true)

theorem subscribeNext_register_of_fails (hfail : RegisterFails s call) :
    subscribeNext onSubscribeMessageDefault s (.register call) = s := by
  rw [subscribeNext, subscribeStep, tuyaMqttSubscribeMessageCallbackRegister]
  cases htopic : call.topic with
  | none => simp [observe, htopic]
  | some topic =>
    by_cases hmsgid : call.msgid = 0
    · simp [observe, htopic, hmsgid, oprtComError, oprtOk]
    · obtain ⟨hnew, hmemory⟩ := hfail topic htopic hmsgid
      dsimp only
      rw [if_neg hmsgid, if_neg hnew]
      by_cases hcalloc : call.calloc = false
      · simp [observe, htopic, hcalloc, oprtMallocFailed, oprtOk]
      · have hcallocTopic : call.callocTopic = false := by simpa [hcalloc] using hmemory
        rw [if_neg hcalloc, if_pos hcallocTopic]

theorem exists_subscribeNext_register (onSubscribeMessageDefault : H)
    (hfail : ¬RegisterFails s call) :
    ∃ topic, call.topic = some topic ∧ call.msgid ≠ 0 ∧
      ((∃ target ∈ s.subscribeList, Repeats topic call.cb target) ∧
          subscribeNext onSubscribeMessageDefault s (.register call) =
            ⟨s.subscribeList,
              insert (topic, call.cb.getD onSubscribeMessageDefault) s.registered⟩ ∨
        (¬∃ target ∈ s.subscribeList, Repeats topic call.cb target) ∧
          call.calloc = true ∧ call.callocTopic = true ∧
          subscribeNext onSubscribeMessageDefault s (.register call) =
            ⟨⟨topic, call.cb.getD onSubscribeMessageDefault, call.userdata⟩ :: s.subscribeList,
              insert (topic, call.cb.getD onSubscribeMessageDefault) s.registered⟩) := by
  by_contra hnone
  refine hfail fun topic htopic hmsgid => ⟨fun hrepeats => hnone ?_, fun hmemory => hnone ?_⟩
  · exact ⟨topic, htopic, hmsgid,
      Or.inl ⟨hrepeats, subscribeNext_register_of_repeats htopic hmsgid hrepeats⟩⟩
  · refine ⟨topic, htopic, hmsgid, ?_⟩
    by_cases hrepeats : ∃ target ∈ s.subscribeList, Repeats topic call.cb target
    · exact Or.inl ⟨hrepeats, subscribeNext_register_of_repeats htopic hmsgid hrepeats⟩
    · exact Or.inr ⟨hrepeats, hmemory.1, hmemory.2,
        subscribeNext_register_of_new htopic hmsgid hrepeats hmemory.1 hmemory.2⟩

theorem delivers_register_iff (h : Delivers s) (call : RegisterCall H) :
    Delivers (subscribeNext onSubscribeMessageDefault s (.register call)) ↔
      SubscribeCond onSubscribeMessageDefault s (.register call) := by
  by_cases hfail : RegisterFails s call
  · rw [subscribeNext_register_of_fails hfail]
    refine iff_of_true h fun topic htopic hmsgid => ?_
    obtain ⟨hnew, hmemory⟩ := hfail topic htopic hmsgid
    rw [h.exists_repeats_iff] at hnew
    exact ⟨fun cb hcb hpre => absurd ⟨cb, hcb, hpre⟩ hnew,
      fun _ hcalloc hcallocTopic => absurd ⟨hcalloc, hcallocTopic⟩ hmemory⟩
  obtain ⟨topic, htopic, hmsgid, hnext⟩ :=
    exists_subscribeNext_register onSubscribeMessageDefault hfail
  -- the condition speaks of this topic
  have hcond : SubscribeCond onSubscribeMessageDefault s (.register call) ↔
      (∀ cb, call.cb = some cb → (∃ p, p <+: topic ∧ (p, cb) ∈ s.registered) →
        (topic, cb) ∈ s.registered) ∧
      (call.cb = none → call.calloc = true → call.callocTopic = true →
        (topic, onSubscribeMessageDefault) ∉ s.registered) := by
    constructor
    · intro hall
      exact hall topic htopic hmsgid
    · intro hone topic' htopic' _
      obtain rfl : topic = topic' := Option.some.inj (htopic.symm.trans htopic')
      exact hone
  rw [hcond]
  rcases hnext with ⟨hrepeats, hnext⟩ | ⟨hrepeats, hcalloc, hcallocTopic, hnext⟩
  · rw [hnext, h.insert_iff]
    obtain ⟨cb, hcb, hpre⟩ := (h.exists_repeats_iff _ _).1 hrepeats
    rw [hcb, Option.getD_some]
    constructor
    · intro hmem
      refine ⟨fun cb' hcb' _ => ?_, fun hnone => absurd hnone (Option.some_ne_none cb)⟩
      rwa [← Option.some.inj hcb']
    · intro hone
      exact hone.1 cb rfl hpre
  · rw [hnext]
    refine (h.cons_iff ⟨topic, call.cb.getD onSubscribeMessageDefault, call.userdata⟩).trans ?_
    rw [SubscribeHandle.key]
    rw [h.exists_repeats_iff] at hrepeats
    cases hcb : call.cb with
    | none => simp [hcalloc, hcallocTopic]
    | some cb =>
      have hpre : ¬∃ p, p <+: topic ∧ (p, cb) ∈ s.registered :=
        fun hpre => hrepeats ⟨cb, hcb, hpre⟩
      refine iff_of_true ?_ ⟨fun cb' hcb' hpre' => ?_, fun hnone => absurd hnone (by simp)⟩
      · exact fun hmem => hpre ⟨topic, List.prefix_refl topic, hmem⟩
      · rw [← Option.some.inj hcb'] at hpre'
        exact absurd hpre' hpre

end Register

theorem delivers_subscribeNext_iff (h : Delivers s) (ev : SubscribeEvent H) :
    Delivers (subscribeNext onSubscribeMessageDefault s ev) ↔
      SubscribeCond onSubscribeMessageDefault s ev := by
  cases ev with
  | register call => exact delivers_register_iff h call
  | unregister topic msgid =>
    refine iff_of_true ?_ trivial
    cases topic with
    | none => exact h
    | some topic => exact h.filter topic

theorem distribute_of_ne (s : Subscriptions H) {ev : SubscribeEvent H} {topic : Bytes}
    (hne : ev.topic ≠ some topic) :
    mqttSubscribeMessageDistribute
        (subscribeNext onSubscribeMessageDefault s ev).subscribeList topic =
      mqttSubscribeMessageDistribute s.subscribeList topic := by
  cases ev with
  | register call =>
    by_cases hfail : RegisterFails s call
    · rw [subscribeNext_register_of_fails hfail]
    obtain ⟨topic', htopic', -, hnext⟩ :=
      exists_subscribeNext_register onSubscribeMessageDefault hfail
    have htopic : topic' ≠ topic := fun heq => hne (by rw [SubscribeEvent.topic, htopic', heq])
    rcases hnext with ⟨-, hnext⟩ | ⟨-, -, -, hnext⟩
    · rw [hnext]
    · rw [hnext, mqttSubscribeMessageDistribute, List.filter_cons_of_neg (by simpa using htopic),
        mqttSubscribeMessageDistribute]
  | unregister topic' msgid =>
    cases topic' with
    | none => rfl
    | some topic' =>
      exact distribute_filter_ne _ fun heq => hne (congrArg some heq.symm)

/-- The deliveries are right after every call of a run if and only if every call meets the
condition. -/
theorem guarded_delivers_iff (onSubscribeMessageDefault : H) (evs : List (SubscribeEvent H)) :
    Guarded (subscribeNext onSubscribeMessageDefault) (RightSubscribe onSubscribeMessageDefault)
        Subscriptions.init evs ↔
      Guarded (subscribeNext onSubscribeMessageDefault) (SubscribeCond onSubscribeMessageDefault)
        Subscriptions.init evs := by
  have hiff : ∀ (s : Subscriptions H) (ev : SubscribeEvent H), Delivers s →
      (RightSubscribe onSubscribeMessageDefault s ev ↔
        SubscribeCond onSubscribeMessageDefault s ev) := by
    intro s ev h
    rw [RightSubscribe, delivers_subscribeNext_iff h]
    exact and_iff_left fun topic hne => distribute_of_ne s hne
  have hstep : ∀ (s : Subscriptions H) (ev : SubscribeEvent H), Delivers s →
      SubscribeCond onSubscribeMessageDefault s ev →
        Delivers (subscribeNext onSubscribeMessageDefault s ev) :=
    fun s ev h hcond => (delivers_subscribeNext_iff h ev).2 hcond
  exact guarded_iff_of_invariant hiff hstep delivers_init

/-- The handler of the topic "a" is not registered for the topic "ab". -/
theorem not_guarded_delivers_prefix :
    ¬Guarded (subscribeNext 0) (RightSubscribe 0) Subscriptions.init
      [.register ⟨some [97], some 1, 0, 1, true, true⟩,
        .register ⟨some [97, 98], some 1, 0, 2, true, true⟩] := by
  rintro ⟨-, hright, -⟩
  have hnone := (hright.1 [97, 98] 1).1 (Or.inl rfl)
  exact absurd hnone (by decide)

end TuyaOpen.Mqtt
