import TuyaOpen.Basic.Bytes
import TuyaOpen.Basic.Transition
import TuyaOpen.Common.OperateRet
import Mathlib.Data.List.Nodup

/-!
# Notification of publishes

`tuya_mqtt_client_publish_common`, `tuya_mqtt_loop` and `mqtt_client_puback_cb` of
`mqtt_service.c`: a publish with a callback waits in a list. A PUBACK removes the first entry that
has its message id, and a pass of the loop removes the entries whose time is over.

The publishes are numbered in the order in which they are accepted. The time of an event is in
milliseconds, and `tal_time_get_posix` gives the seconds of it. What the client library does (the
message id of a publish, the outcome of a connection) is part of the event, and so is the message
that the broker acknowledges with a PUBACK.

What the callbacks should be is a second system, which knows the messages and the times at which
their timeouts are over.
-/

namespace TuyaOpen.Mqtt

/-! ### The functions -/

/-- `mqtt_publish_handle_t`. The callback and its data are the number of the publish, and
`deadline` is the time at which its timeout is over. -/
structure PublishHandle where
  msgid : UInt16
  /-- The 32 bits of the time. -/
  timeout : Nat
  topic : Bytes
  payload : Bytes
  no : Nat
  deadline : Int
  deriving DecidableEq

/-- The fields of `tuya_mqtt_context_t`, and the number of publishes that have been accepted. -/
structure MqttContext where
  isInited : Bool
  manualDisconnect : Bool
  isConnected : Bool
  publishList : List PublishHandle
  accepted : Nat
  deriving DecidableEq

/-- The context after `tuya_mqtt_init`. -/
def tuyaMqttInit : MqttContext := ⟨true, true, false, [], 0⟩

abbrev Note := Nat × OperateRet

/-- `tal_time_get_posix` after `now` milliseconds, when it was `boot` at the start. -/
def posixAt (boot now : Nat) : Nat := u32 (boot + now / 1000)

/-- The arguments of a publish with a callback, and what happens in it: whether memory is allocated,
and the message id that `mqtt_client_publish` returns. -/
structure PublishCall where
  topic : Bytes
  payload : Bytes
  timeoutMs : Int32
  async : Bool
  malloc : Bool
  mallocPayload : Bool
  msgid : UInt16

/-- `tuya_mqtt_client_publish_common` with a callback. -/
def tuyaMqttClientPublishCommon (context : MqttContext) (boot now : Nat) (call : PublishCall) :
    OperateRet × MqttContext :=
  if call.malloc && call.mallocPayload then
    let handle : PublishHandle :=
      { msgid := if call.async then 0 else call.msgid
        timeout := ((posixAt boot now + call.timeoutMs.toInt) % 4294967296).toNat
        topic := call.topic
        payload := call.payload
        no := context.accepted
        deadline := now + call.timeoutMs.toInt }
    (oprtOk,
      { context with
        publishList := context.publishList ++ [handle]
        accepted := context.accepted + 1 })
  else (oprtMallocFailed, context)

/-- `mqtt_client_puback_cb`. -/
def mqttClientPubackCb (context : MqttContext) (msgid : UInt16) : List Note × MqttContext :=
  match context.publishList.find? fun entry => entry.msgid = msgid with
  | none => ([], context)
  | some entry =>
    ([(entry.no, oprtOk)],
      { context with
        publishList := context.publishList.eraseP fun entry => entry.msgid = msgid })

def Expired (posix : Nat) (entry : PublishHandle) : Prop := entry.timeout ≤ posix

instance (posix : Nat) (entry : PublishHandle) : Decidable (Expired posix entry) :=
  inferInstanceAs (Decidable (_ ≤ _))

/-- The entry after `mqtt_client_publish`, when it has no message id: `send` is the id that is given
to a message. -/
def resend (send : Nat → UInt16) (entry : PublishHandle) : PublishHandle :=
  if entry.msgid = 0 then { entry with msgid := send entry.no } else entry

/-- The loop of `tuya_mqtt_loop` over the list: the callbacks, and the list. An entry whose time is
over is removed, and the step of the loop then goes to the entry after the one that has taken its
place. There is a fault when there is none. -/
def passList (posix : Nat) (send : Nat → UInt16) :
    List PublishHandle → Option (List Note × List PublishHandle)
  | [] => some ([], [])
  | [entry] => if Expired posix entry then none else some ([], [resend send entry])
  | entry :: after :: rest =>
    if Expired posix entry then
      match passList posix send rest with
      | none => none
      | some (notes, l) => some ((entry.no, oprtTimeout) :: notes, after :: l)
    else
      match passList posix send (after :: rest) with
      | none => none
      | some (notes, l) => some (notes, resend send entry :: l)

/-- `tuya_mqtt_loop`: `connects` says whether a connection succeeds. The PUBACKs that
`mqtt_client_yield` receives are events of their own. -/
def tuyaMqttLoop (context : MqttContext) (boot now : Nat) (connects : Bool)
    (send : Nat → UInt16) : Option (List Note × MqttContext) :=
  if context.isInited = false ∨ context.manualDisconnect = true then some ([], context)
  else if context.isConnected = false then some ([], { context with isConnected := connects })
  else
    match passList (posixAt boot now) send context.publishList with
    | none => none
    | some (notes, l) => some (notes, { context with publishList := l })

/-! ### The events -/

/-- The calls, and what comes from the client library. -/
inductive MqttEvent
  | publish (now : Nat) (call : PublishCall)
  | loop (now : Nat) (connects : Bool) (send : Nat → UInt16)
  /-- The broker has acknowledged the message `no`, and the message id of the PUBACK is `msgid`. -/
  | puback (msgid : UInt16) (no : Nat)
  | connected
  | disconnected
  /-- `tuya_mqtt_start` and `tuya_mqtt_stop`. -/
  | manual (disconnect : Bool)

def mqttStep (boot : Nat) (context : MqttContext) :
    MqttEvent → Option (List Note × MqttContext)
  | .publish now call => some ([], (tuyaMqttClientPublishCommon context boot now call).2)
  | .loop now connects send => tuyaMqttLoop context boot now connects send
  | .puback msgid _ => some (mqttClientPubackCb context msgid)
  | .connected => some ([], { context with isConnected := true })
  | .disconnected => some ([], { context with isConnected := false })
  | .manual disconnect => some ([], { context with manualDisconnect := disconnect })

def mqttNext (boot : Nat) (context : MqttContext) (ev : MqttEvent) : MqttContext :=
  match mqttStep boot context ev with
  | none => context
  | some (_, context) => context

/-! ### The notifications that are due -/

/-- The publishes that have not been notified, with their deadlines, and the number of publishes. -/
structure Waiting where
  pending : List (Nat × Int)
  accepted : Nat

/-- The notifications that are due: a message that the broker acknowledges is notified at once, and
in a pass of the loop every message whose deadline is over. -/
def noticeStep (w : Waiting) : MqttEvent → List Note × Waiting
  | .publish now call =>
    if call.malloc && call.mallocPayload then
      ([], ⟨w.pending ++ [(w.accepted, now + call.timeoutMs.toInt)], w.accepted + 1⟩)
    else ([], w)
  | .loop now _ _ =>
    ((w.pending.filter fun p => p.2 ≤ (now : Int)).map fun p => (p.1, oprtTimeout),
      { w with pending := w.pending.filter fun p => ¬p.2 ≤ (now : Int) })
  | .puback _ no =>
    if no ∈ w.pending.map Prod.fst then
      ([(no, oprtOk)], { w with pending := w.pending.filter fun p => p.1 ≠ no })
    else ([], w)
  | _ => ([], w)

/-! ### The condition -/

def Overdue (now : Nat) (entry : PublishHandle) : Prop := entry.deadline ≤ now

instance (now : Nat) (entry : PublishHandle) : Decidable (Overdue now entry) :=
  inferInstanceAs (Decidable (_ ≤ _))

/-- The condition on the list in a pass of the loop: going through it, the comparison finds exactly
the entries that are overdue, and after such an entry comes one that is not overdue. -/
def PassCond (posix now : Nat) : List PublishHandle → Prop
  | [] => True
  | [entry] => ¬Expired posix entry ∧ ¬Overdue now entry
  | entry :: after :: rest =>
    if Expired posix entry then
      Overdue now entry ∧ ¬Overdue now after ∧ PassCond posix now rest
    else ¬Overdue now entry ∧ PassCond posix now (after :: rest)

def Active (context : MqttContext) : Prop :=
  context.isInited = true ∧ context.manualDisconnect = false ∧ context.isConnected = true

instance (context : MqttContext) : Decidable (Active context) :=
  inferInstanceAs (Decidable (_ ∧ _))

def NoticeCond (boot : Nat) (context : MqttContext) : MqttEvent → Prop
  | .loop now _ _ =>
    if Active context then PassCond (posixAt boot now) now context.publishList
    else ∀ entry ∈ context.publishList, ¬Overdue now entry
  | .puback msgid no =>
    match context.publishList.find? fun entry => entry.msgid = msgid with
    | some entry => entry.no = no
    | none => ∀ entry ∈ context.publishList, entry.no ≠ no
  | _ => True

/-! ### A pass of the loop -/

def PublishHandle.key (entry : PublishHandle) : Nat × Int := (entry.no, entry.deadline)

theorem key_resend (send : Nat → UInt16) (entry : PublishHandle) :
    (resend send entry).key = entry.key := by
  rw [resend]
  split_ifs with hmsgid
  · rfl
  · rfl

def overdueNotes (now : Nat) (l : List PublishHandle) : List Note :=
  (l.filter fun entry => Overdue now entry).map fun entry => (entry.no, oprtTimeout)

section Pass

variable {posix now : Nat} {send : Nat → UInt16}

theorem overdueNotes_cons (entry : PublishHandle) (l : List PublishHandle) :
    overdueNotes now (entry :: l) =
      if Overdue now entry then (entry.no, oprtTimeout) :: overdueNotes now l
      else overdueNotes now l := by
  rw [overdueNotes, List.filter_cons]
  by_cases h : Overdue now entry
  · rw [if_pos h, if_pos (decide_eq_true h), List.map_cons, overdueNotes]
  · rw [if_neg h, if_neg (by rw [decide_eq_true_iff]; exact h), overdueNotes]

/-- The entries that wait on after a pass of the loop, as they should be. -/
def stillWaiting (now : Nat) (l : List PublishHandle) : List (Nat × Int) :=
  (l.filter fun entry => ¬Overdue now entry).map PublishHandle.key

theorem stillWaiting_cons (entry : PublishHandle) (l : List PublishHandle) :
    stillWaiting now (entry :: l) =
      if Overdue now entry then stillWaiting now l else entry.key :: stillWaiting now l := by
  rw [stillWaiting, List.filter_cons]
  by_cases h : Overdue now entry
  · rw [if_pos h, if_neg (by rw [decide_eq_true_iff]; exact not_not.2 h), stillWaiting]
  · rw [if_neg h, if_pos (decide_eq_true h), List.map_cons, stillWaiting]

theorem passList_of_cond (send : Nat → UInt16) {l : List PublishHandle}
    (h : PassCond posix now l) :
    ∃ l', passList posix send l = some (overdueNotes now l, l') ∧
      l'.map PublishHandle.key = stillWaiting now l := by
  induction l using PassCond.induct posix with
  | case1 => exact ⟨[], rfl, rfl⟩
  | case2 entry =>
    refine ⟨[resend send entry], ?_, ?_⟩
    · rw [passList, if_neg h.1, overdueNotes_cons, if_neg h.2]
      rfl
    · rw [stillWaiting_cons, if_neg h.2, List.map_singleton, key_resend]
      rfl
  | case3 entry after rest hexpired ih =>
    rw [PassCond, if_pos hexpired] at h
    obtain ⟨hover, hafter, hrest⟩ := h
    obtain ⟨l', hl', hkeys⟩ := ih hrest
    refine ⟨after :: l', ?_, ?_⟩
    · rw [passList, if_pos hexpired, hl', overdueNotes_cons, if_pos hover, overdueNotes_cons,
        if_neg hafter]
    · rw [stillWaiting_cons, if_pos hover, stillWaiting_cons, if_neg hafter, List.map_cons, hkeys]
  | case4 entry after rest hexpired ih =>
    rw [PassCond, if_neg hexpired] at h
    obtain ⟨l', hl', hkeys⟩ := ih h.2
    refine ⟨resend send entry :: l', ?_, ?_⟩
    · rw [passList, if_neg hexpired, hl', overdueNotes_cons entry, if_neg h.1]
    · rw [stillWaiting_cons, if_neg h.1, List.map_cons, hkeys, key_resend]

theorem exists_passList_of_expired {entry after : PublishHandle} {rest l' : List PublishHandle}
    {notes : List Note} (hexpired : Expired posix entry)
    (h : passList posix send (entry :: after :: rest) = some (notes, l')) :
    ∃ notes' l₂, passList posix send rest = some (notes', l₂) ∧
      notes = (entry.no, oprtTimeout) :: notes' := by
  rw [passList, if_pos hexpired] at h
  cases hrest : passList posix send rest with
  | none =>
    rw [hrest] at h
    cases h
  | some r =>
    rw [hrest] at h
    cases h
    exact ⟨r.1, r.2, rfl, rfl⟩

theorem exists_passList_of_not_expired {entry after : PublishHandle}
    {rest l' : List PublishHandle} {notes : List Note} (hexpired : ¬Expired posix entry)
    (h : passList posix send (entry :: after :: rest) = some (notes, l')) :
    ∃ l₂, passList posix send (after :: rest) = some (notes, l₂) := by
  rw [passList, if_neg hexpired] at h
  cases hrest : passList posix send (after :: rest) with
  | none =>
    rw [hrest] at h
    cases h
  | some r =>
    rw [hrest] at h
    cases h
    exact ⟨r.2, rfl⟩

theorem mem_of_mem_passList {l l' : List PublishHandle} {notes : List Note}
    (h : passList posix send l = some (notes, l')) :
    ∀ note ∈ notes, note.1 ∈ l.map PublishHandle.no := by
  induction l using PassCond.induct posix generalizing notes l' with
  | case1 =>
    cases h
    exact fun _ hnote => by cases hnote
  | case2 entry =>
    rw [passList] at h
    split_ifs at h with hexpired
    cases h
    exact fun _ hnote => by cases hnote
  | case3 entry after rest hexpired ih =>
    obtain ⟨notes', l₂, hrest, rfl⟩ := exists_passList_of_expired hexpired h
    intro note hnote
    rcases List.mem_cons.1 hnote with rfl | hnote
    · exact List.mem_cons_self
    · exact List.mem_cons_of_mem _ (List.mem_cons_of_mem _ (ih hrest note hnote))
  | case4 entry after rest hexpired ih =>
    obtain ⟨l₂, hrest⟩ := exists_passList_of_not_expired hexpired h
    exact fun note hnote => List.mem_cons_of_mem _ (ih hrest note hnote)

theorem mem_of_mem_overdueNotes {l : List PublishHandle} :
    ∀ note ∈ overdueNotes now l, note.1 ∈ l.map PublishHandle.no := by
  intro note hnote
  obtain ⟨entry, hentry, rfl⟩ := List.mem_map.1 hnote
  exact List.mem_map_of_mem (List.mem_filter.1 hentry).1

theorem passCond_of_passList {l l' : List PublishHandle}
    (hnodup : (l.map PublishHandle.no).Nodup)
    (h : passList posix send l = some (overdueNotes now l, l')) : PassCond posix now l := by
  induction l using PassCond.induct posix generalizing l' with
  | case1 => trivial
  | case2 entry =>
    rw [passList, overdueNotes_cons] at h
    split_ifs at h with hexpired hover
    · cases h
    · exact ⟨hexpired, hover⟩
  | case3 entry after rest hexpired ih =>
    obtain ⟨notes', l₂, hrest, hnotes⟩ := exists_passList_of_expired hexpired h
    rw [List.map_cons, List.map_cons, List.nodup_cons, List.nodup_cons] at hnodup
    obtain ⟨hentry, hafter, hrest'⟩ := hnodup
    rw [overdueNotes_cons] at hnotes
    rw [PassCond, if_pos hexpired]
    split_ifs at hnotes with hover
    · refine ⟨hover, ?_⟩
      rw [overdueNotes_cons] at hnotes
      split_ifs at hnotes with hover'
      · -- the entry that has taken the place is overdue, and it is not visited
        exfalso
        obtain ⟨-, htail⟩ := List.cons.inj hnotes
        refine hafter (mem_of_mem_passList hrest (after.no, oprtTimeout) ?_)
        rw [← htail]
        exact List.mem_cons_self
      · obtain ⟨-, htail⟩ := List.cons.inj hnotes
        rw [← htail] at hrest
        exact ⟨hover', ih hrest' hrest⟩
    · exfalso
      have hmem : (entry.no, oprtTimeout) ∈ overdueNotes now (after :: rest) := by
        rw [hnotes]
        exact List.mem_cons_self
      exact hentry (mem_of_mem_overdueNotes _ hmem)
  | case4 entry after rest hexpired ih =>
    obtain ⟨l₂, hrest⟩ := exists_passList_of_not_expired hexpired h
    rw [List.map_cons, List.nodup_cons] at hnodup
    rw [overdueNotes_cons] at hrest
    rw [PassCond, if_neg hexpired]
    split_ifs at hrest with hover
    · exact absurd (mem_of_mem_passList hrest (entry.no, oprtTimeout) List.mem_cons_self) hnodup.1
    · exact ⟨hover, ih hnodup.2 hrest⟩

end Pass

/-! ### Steps -/

structure InStep (context : MqttContext) (w : Waiting) : Prop where
  pending : w.pending = context.publishList.map PublishHandle.key
  accepted : w.accepted = context.accepted
  nodup : (context.publishList.map PublishHandle.no).Nodup
  lt : ∀ entry ∈ context.publishList, entry.no < context.accepted

theorem map_fst_key (l : List PublishHandle) :
    (l.map PublishHandle.key).map Prod.fst = l.map PublishHandle.no := by
  rw [List.map_map]
  rfl

theorem InStep.of_keys {context : MqttContext} {w w' : Waiting} (h : InStep context w)
    {l : List PublishHandle} (hkeys : w'.pending = l.map PublishHandle.key)
    (hsub : w'.pending.Sublist w.pending) (haccepted : w'.accepted = w.accepted)
    (isConnected : Bool) :
    InStep { context with publishList := l, isConnected := isConnected } w' := by
  have hnos : (l.map PublishHandle.no).Sublist (context.publishList.map PublishHandle.no) := by
    rw [← map_fst_key, ← map_fst_key, ← hkeys, ← h.pending]
    exact hsub.map Prod.fst
  refine ⟨hkeys, haccepted.trans h.accepted, List.Nodup.sublist hnos h.nodup, ?_⟩
  intro entry hentry
  obtain ⟨old, hold, heq⟩ := List.mem_map.1 (hnos.subset (List.mem_map_of_mem hentry))
  rw [← heq]
  exact h.lt old hold

section Notices

variable {boot : Nat} {context : MqttContext} {w : Waiting}

theorem InStep.noticeStep_loop (h : InStep context w) (now : Nat) (connects : Bool)
    (send : Nat → UInt16) :
    noticeStep w (.loop now connects send) =
      (overdueNotes now context.publishList,
        ⟨stillWaiting now context.publishList, w.accepted⟩) := by
  rw [noticeStep, h.pending, List.filter_map, List.filter_map, List.map_map]
  rfl

theorem InStep.publish (h : InStep context w) (boot now : Nat) (call : PublishCall) :
    (noticeStep w (.publish now call)).1 = [] ∧
      InStep (tuyaMqttClientPublishCommon context boot now call).2
        (noticeStep w (.publish now call)).2 := by
  rw [noticeStep, tuyaMqttClientPublishCommon]
  by_cases hmalloc : (call.malloc && call.mallocPayload) = true
  · rw [if_pos hmalloc, if_pos hmalloc]
    refine ⟨rfl, ⟨?_, ?_, ?_, ?_⟩⟩
    · dsimp only
      rw [h.pending, h.accepted, List.map_append]
      rfl
    · dsimp only
      rw [h.accepted]
    · dsimp only
      rw [List.map_append, List.map_singleton]
      refine (List.perm_append_singleton _ _).nodup_iff.2 (List.nodup_cons.2 ⟨?_, h.nodup⟩)
      intro hmem
      obtain ⟨entry, hentry, heq⟩ := List.mem_map.1 hmem
      exact absurd heq (h.lt entry hentry).ne
    · intro entry hentry
      rcases List.mem_append.1 hentry with hold | hnew
      · exact (h.lt entry hold).trans (Nat.lt_succ_self _)
      · rw [List.mem_singleton.1 hnew]
        exact Nat.lt_succ_self _
  · rw [if_neg hmalloc, if_neg hmalloc]
    exact ⟨rfl, h⟩

theorem tuyaMqttLoop_of_active (hactive : Active context) (now : Nat) (connects : Bool)
    (send : Nat → UInt16) :
    tuyaMqttLoop context boot now connects send =
      (passList (posixAt boot now) send context.publishList).map fun r =>
        (r.1, { context with publishList := r.2 }) := by
  obtain ⟨hinited, hmanual, hconnected⟩ := hactive
  rw [tuyaMqttLoop, hinited, hmanual, hconnected, if_neg (by decide), if_neg (by decide)]
  cases passList (posixAt boot now) send context.publishList with
  | none => rfl
  | some r => rfl

theorem tuyaMqttLoop_of_not_active (hactive : ¬Active context) (boot now : Nat) (connects : Bool)
    (send : Nat → UInt16) :
    ∃ isConnected, tuyaMqttLoop context boot now connects send =
      some ([], { context with isConnected := isConnected }) := by
  rw [tuyaMqttLoop]
  split_ifs with hstopped hconnected
  · exact ⟨context.isConnected, rfl⟩
  · exact ⟨connects, rfl⟩
  · rw [not_or, Bool.not_eq_false, Bool.not_eq_true] at hstopped
    rw [Bool.not_eq_false] at hconnected
    exact absurd ⟨hstopped.1, hstopped.2, hconnected⟩ hactive

theorem overdueNotes_eq_nil_iff {now : Nat} {l : List PublishHandle} :
    overdueNotes now l = [] ↔ ∀ entry ∈ l, ¬Overdue now entry := by
  rw [overdueNotes, List.map_eq_nil_iff, List.filter_eq_nil_iff]
  simp only [decide_eq_true_eq]

theorem stillWaiting_of_not_overdue {now : Nat} {l : List PublishHandle}
    (h : ∀ entry ∈ l, ¬Overdue now entry) : stillWaiting now l = l.map PublishHandle.key := by
  rw [stillWaiting, List.filter_eq_self.2 fun entry hentry => decide_eq_true (h entry hentry)]

theorem stillWaiting_sublist (now : Nat) (l : List PublishHandle) :
    (stillWaiting now l).Sublist (l.map PublishHandle.key) :=
  List.filter_sublist.map PublishHandle.key

theorem InStep.loop (h : InStep context w) {now : Nat} {connects : Bool} {send : Nat → UInt16}
    (hcond : NoticeCond boot context (.loop now connects send)) :
    ∃ context', tuyaMqttLoop context boot now connects send =
        some ((noticeStep w (.loop now connects send)).1, context') ∧
      InStep context' (noticeStep w (.loop now connects send)).2 := by
  have hsub := stillWaiting_sublist now context.publishList
  rw [← h.pending] at hsub
  rw [h.noticeStep_loop]
  rw [NoticeCond] at hcond
  split_ifs at hcond with hactive
  · obtain ⟨l, hl, hkeys⟩ := passList_of_cond send hcond
    rw [tuyaMqttLoop_of_active hactive, hl]
    refine ⟨_, rfl, h.of_keys ?_ ?_ ?_ context.isConnected⟩
    · exact hkeys.symm
    · exact hsub
    · rfl
  · obtain ⟨isConnected, hloop⟩ := tuyaMqttLoop_of_not_active hactive boot now connects send
    rw [hloop, overdueNotes_eq_nil_iff.2 hcond]
    refine ⟨_, rfl, h.of_keys ?_ ?_ ?_ isConnected⟩
    · exact stillWaiting_of_not_overdue hcond
    · exact hsub
    · rfl

theorem InStep.noticeCond_loop (h : InStep context w) {now : Nat} {connects : Bool}
    {send : Nat → UInt16} {context' : MqttContext}
    (hloop : tuyaMqttLoop context boot now connects send =
      some ((noticeStep w (.loop now connects send)).1, context')) :
    NoticeCond boot context (.loop now connects send) := by
  rw [h.noticeStep_loop] at hloop
  rw [NoticeCond]
  split_ifs with hactive
  · rw [tuyaMqttLoop_of_active hactive, Option.map_eq_some_iff] at hloop
    obtain ⟨r, hr, heq⟩ := hloop
    have hnotes : r.1 = overdueNotes now context.publishList := (Prod.mk.inj heq).1
    have hpass : passList (posixAt boot now) send context.publishList =
        some (overdueNotes now context.publishList, r.2) := by
      rw [hr, ← hnotes]
    exact passCond_of_passList h.nodup hpass
  · obtain ⟨isConnected, hnone⟩ := tuyaMqttLoop_of_not_active hactive boot now connects send
    rw [hnone] at hloop
    exact overdueNotes_eq_nil_iff.1 (Prod.mk.inj (Option.some.inj hloop)).1.symm

theorem map_key_eraseP_eq_filter {msgid : UInt16} {entry : PublishHandle} {l : List PublishHandle}
    (hnodup : (l.map PublishHandle.no).Nodup)
    (hfind : (l.find? fun entry => entry.msgid = msgid) = some entry) :
    (l.eraseP fun entry => entry.msgid = msgid).map PublishHandle.key =
      (l.map PublishHandle.key).filter fun p => p.1 ≠ entry.no := by
  induction l with
  | nil => cases hfind
  | cons head tail ih =>
    rw [List.map_cons, List.nodup_cons] at hnodup
    rw [List.map_cons, List.filter_cons]
    by_cases hhead : head.msgid = msgid
    · -- the numbers of the others differ, so that the filter keeps them
      rw [List.find?_cons, decide_eq_true hhead] at hfind
      obtain rfl : head = entry := Option.some.inj hfind
      have hothers : ∀ p ∈ tail.map PublishHandle.key, decide (p.1 ≠ head.no) = true := by
        intro p hp
        obtain ⟨other, hother, rfl⟩ := List.mem_map.1 hp
        refine decide_eq_true fun heq => hnodup.1 ?_
        rw [← heq]
        exact List.mem_map_of_mem hother
      have hself : ¬decide (head.key.1 ≠ head.no) = true := by
        rw [decide_eq_true_iff, not_not]
        rfl
      rw [List.eraseP_cons, decide_eq_true hhead, cond_true, if_neg hself,
        List.filter_eq_self.2 hothers]
    · rw [List.find?_cons, decide_eq_false hhead] at hfind
      have hmem := List.mem_map_of_mem (f := PublishHandle.no) (List.mem_of_find?_eq_some hfind)
      have hother : head.no ≠ entry.no := fun heq => hnodup.1 (heq ▸ hmem)
      have hother' : head.key.1 ≠ entry.no := hother
      rw [List.eraseP_cons, decide_eq_false hhead, cond_false,
        if_pos (decide_eq_true_iff.2 hother'), List.map_cons, ih hnodup.2 hfind]

theorem InStep.puback (h : InStep context w) {msgid : UInt16} {no : Nat}
    (hcond : NoticeCond boot context (.puback msgid no)) :
    (mqttClientPubackCb context msgid).1 = (noticeStep w (.puback msgid no)).1 ∧
      InStep (mqttClientPubackCb context msgid).2 (noticeStep w (.puback msgid no)).2 := by
  have hpending : no ∈ w.pending.map Prod.fst ↔
      no ∈ context.publishList.map PublishHandle.no := by
    rw [h.pending, map_fst_key]
  rw [NoticeCond] at hcond
  rw [mqttClientPubackCb, noticeStep]
  cases hfind : context.publishList.find? fun entry => entry.msgid = msgid with
  | none =>
    rw [hfind] at hcond
    have hnot : ¬no ∈ w.pending.map Prod.fst := by
      rw [hpending]
      intro hmem
      obtain ⟨entry, hentry, heq⟩ := List.mem_map.1 hmem
      exact hcond entry hentry heq
    rw [if_neg hnot]
    exact ⟨rfl, h⟩
  | some entry =>
    rw [hfind] at hcond
    obtain rfl : entry.no = no := hcond
    have hmem := List.mem_of_find?_eq_some hfind
    rw [if_pos (hpending.2 (List.mem_map_of_mem hmem))]
    refine ⟨rfl, h.of_keys ?_ ?_ ?_ context.isConnected⟩
    · dsimp only
      rw [h.pending, map_key_eraseP_eq_filter h.nodup hfind]
    · exact List.filter_sublist
    · rfl

theorem InStep.noticeCond_puback (h : InStep context w) {msgid : UInt16} {no : Nat}
    (hnotes : (mqttClientPubackCb context msgid).1 = (noticeStep w (.puback msgid no)).1) :
    NoticeCond boot context (.puback msgid no) := by
  rw [mqttClientPubackCb, noticeStep] at hnotes
  rw [NoticeCond]
  cases hfind : context.publishList.find? fun entry => entry.msgid = msgid with
  | none =>
    rw [hfind] at hnotes
    intro entry hentry heq
    have hmem : no ∈ w.pending.map Prod.fst := by
      rw [h.pending, map_fst_key, ← heq]
      exact List.mem_map_of_mem hentry
    rw [if_pos hmem] at hnotes
    cases hnotes
  | some entry =>
    rw [hfind] at hnotes
    split_ifs at hnotes with hmem
    exact congrArg Prod.fst (List.cons.inj hnotes).1

/-! ### Runs -/

theorem InStep.step (h : InStep context w) (ev : MqttEvent) (hcond : NoticeCond boot context ev) :
    mqttStep boot context ev = some ((noticeStep w ev).1, mqttNext boot context ev) ∧
      InStep (mqttNext boot context ev) (noticeStep w ev).2 := by
  cases ev with
  | publish now call =>
    obtain ⟨hnil, hnext⟩ := h.publish boot now call
    rw [hnil]
    exact ⟨rfl, hnext⟩
  | loop now connects send =>
    obtain ⟨context', hloop, hnext⟩ := h.loop hcond
    have hstep : mqttStep boot context (.loop now connects send) =
        some ((noticeStep w (.loop now connects send)).1, context') := hloop
    rw [mqttNext, hstep]
    exact ⟨rfl, hnext⟩
  | puback msgid no =>
    obtain ⟨hnotes, hnext⟩ := h.puback hcond
    rw [← hnotes]
    exact ⟨rfl, hnext⟩
  | connected => exact ⟨rfl, h.pending, h.accepted, h.nodup, h.lt⟩
  | disconnected => exact ⟨rfl, h.pending, h.accepted, h.nodup, h.lt⟩
  | manual disconnect => exact ⟨rfl, h.pending, h.accepted, h.nodup, h.lt⟩

theorem InStep.noticeCond (h : InStep context w) {ev : MqttEvent} {context' : MqttContext}
    (hstep : mqttStep boot context ev = some ((noticeStep w ev).1, context')) :
    NoticeCond boot context ev := by
  cases ev with
  | loop now connects send => exact h.noticeCond_loop hstep
  | puback msgid no =>
    exact h.noticeCond_puback (congrArg Prod.fst (Option.some.inj hstep))
  | publish now call => trivial
  | connected => trivial
  | disconnected => trivial
  | manual disconnect => trivial

end Notices

def noneWaiting : Waiting := ⟨[], 0⟩

theorem inStep_init : InStep tuyaMqttInit noneWaiting :=
  ⟨rfl, rfl, List.nodup_nil, fun _ h => by cases h⟩

/-- In every run, the callbacks are the ones that are due, event by event, exactly when every pass
of the loop and every PUBACK meets the condition. -/
theorem exists_notices_iff (boot : Nat) (evs : List MqttEvent) :
    (∃ context, outputs? (mqttStep boot) tuyaMqttInit evs =
        some ((outputs noticeStep noneWaiting evs).1, context)) ↔
      Guarded (mqttNext boot) (NoticeCond boot) tuyaMqttInit evs :=
  exists_outputs?_eq_iff (fun _ _ ev h hcond => h.step ev hcond)
    (fun _ _ _ _ h hstep => h.noticeCond hstep) inStep_init evs

/-- A publish with a timeout of one second, and a pass of the loop two seconds later: the timeout is
over, but the milliseconds have been added to seconds. -/
theorem notices_ne_of_seconds :
    let call : PublishCall :=
      { topic := [0x74], payload := [0x70], timeoutMs := 1000, async := false
        malloc := true, mallocPayload := true, msgid := 1 }
    let evs : List MqttEvent :=
      [.manual false, .connected, .publish 0 call, .loop 2000 true fun _ => 1]
    (outputs noticeStep noneWaiting evs).1 = [[], [], [], [(0, oprtTimeout)]] ∧
      (outputs? (mqttStep 1700000000) tuyaMqttInit evs).map Prod.fst = some [[], [], [], []] := by
  refine ⟨?_, ?_⟩
  · decide
  · decide +kernel

end TuyaOpen.Mqtt
