import TuyaOpen.Basic.Bytes
import TuyaOpen.Basic.Transition
import TuyaOpen.Common.OperateRet

/-!
# MATOP requests

`matop_service_request_async` of `matop_service.c` sends a request and keeps a node for it in a
list. A response, or file data, is given to the callback of the first node with its id, and a pass
of `matop_serice_yield` gives a failure to the first node whose time is over. The node is then
taken from the list and freed. A callback may make further requests, whose nodes go to the end of
the list.

A disconnect frees all nodes and calls no callback, and a connect forgets the list. The id of a
response is cut to 16 bits, and deadlines are sums of 32 bits.

The nodes are numbered in the order in which the requests are accepted. The time is in milliseconds,
and `tal_system_get_millisecond` gives 32 bits of it.
-/

namespace TuyaOpen.Matop

/-! ### The functions -/

/-- `mqtt_atop_message_t`, with the number of the request, the time at which it was made and its
timeout. -/
structure Message where
  id : Nat
  timeout : Nat
  /-- There is a `notify_cb`. -/
  notifyCb : Bool
  no : Nat
  issued : Nat
  duration : Nat
  deriving DecidableEq

/-- What a callback is called with: the response with an id, file data with an id, or a failure at
some time. -/
inductive Reply
  | response (id : ℤ)
  | file (id : Nat)
  | failure (time : Nat)
  deriving DecidableEq

/-- `matop_context_t`, with the time, the nodes of all accepted requests, the calls of callbacks
and the numbers of the nodes that have been freed. -/
structure MatopContext where
  idCnt : Nat
  messageList : List Message
  time : Nat
  accepted : List Message
  replies : List (Nat × Reply)
  freed : List Nat

/-- `MATOP_TIMEOUT_MS_DEFAULT`. -/
def matopTimeoutMsDefault : Nat := 8000

/-- The arguments of a request, and what happens in it: the time that has passed before it, whether
memory is allocated, and whether the message is sent. -/
structure RequestCall where
  timeout : UInt32
  notifyCb : Bool
  elapsed : Nat
  malloc : Bool
  mallocBuffer : Bool
  sent : Bool

def RequestCall.duration (call : RequestCall) : Nat :=
  if call.timeout = 0 then matopTimeoutMsDefault else call.timeout.toNat

def RequestCall.message (call : RequestCall) (idCnt no time : Nat) : Message where
  id := u16 idCnt
  timeout := u32 (u32 time + call.duration)
  notifyCb := call.notifyCb
  no := no
  issued := time
  duration := call.duration

/-- `matop_service_request_async`. -/
def matopServiceRequestAsync (context : MatopContext) (call : RequestCall) :
    OperateRet × MatopContext :=
  let time := context.time + call.elapsed
  if !call.malloc then (oprtMallocFailed, { context with time := time })
  else
    let idCnt := u32 (context.idCnt + 1)
    if !call.mallocBuffer then (oprtMallocFailed, { context with time := time, idCnt := idCnt })
    else if !call.sent then (oprtComError, { context with time := time, idCnt := idCnt })
    else
      let message := call.message idCnt context.accepted.length time
      (oprtOk,
        { context with
          time := time
          idCnt := idCnt
          messageList := context.messageList ++ [message]
          accepted := context.accepted ++ [message] })

def requests (context : MatopContext) (calls : List RequestCall) : MatopContext :=
  calls.foldl (fun context call => (matopServiceRequestAsync context call).2) context

def notify (context : MatopContext) (message : Message) (reply : Reply)
    (calls : List RequestCall) : MatopContext :=
  if message.notifyCb then
    requests { context with replies := context.replies ++ [(message.no, reply)] } calls
  else context

def remove (context : MatopContext) (no : Nat) : MatopContext :=
  { context with
    messageList := context.messageList.filter fun message => message.no ≠ no
    freed := context.freed ++
      (context.messageList.filter fun message => message.no = no).map Message.no }

/-- `valueint` of a number in cJSON. -/
def valueint (n : ℤ) : ℤ := max (-2147483648) (min n 2147483647)

/-- `matop_service_data_receive_cb` for a message with an id and data. -/
def matopServiceDataReceiveCb (context : MatopContext) (id : ℤ) (calls : List RequestCall) :
    MatopContext :=
  match context.messageList.find? fun message => (message.id : ℤ) = valueint id % 65536 with
  | none => context
  | some message => remove (notify context message (.response id) calls) message.no

/-- `matop_service_file_rawdata_receive_cb`. -/
def matopServiceFileRawdataReceiveCb (context : MatopContext) (input : Bytes)
    (calls : List RequestCall) : MatopContext :=
  if input.length < 4 then context
  else
    match context.messageList.find? fun message => message.id = beNat (input.take 4) with
    | none => context
    | some message =>
      remove (notify context message (.file (beNat (input.take 4))) calls) message.no

/-- The loop of `matop_serice_yield` over the list: the first node whose time is over, and the time
of the last comparison. `elapsed` are the times that pass before the comparisons. -/
def firstExpired : List Nat → Nat → List Message → Option Message × Nat
  | _, time, [] => (none, time)
  | elapsed, time, message :: rest =>
    let now := time + elapsed.headD 0
    if message.timeout < u32 now then (some message, now)
    else firstExpired elapsed.tail now rest

/-- `matop_serice_yield`. -/
def matopSericeYield (context : MatopContext) (elapsed : List Nat) (calls : List RequestCall) :
    OperateRet × MatopContext :=
  match firstExpired elapsed context.time context.messageList with
  | (none, time) => (oprtOk, { context with time := time })
  | (some message, time) =>
    (oprtTimeout,
      remove (notify { context with time := time } message (.failure time) calls) message.no)

/-- `matop_serice_destory`. -/
def matopSericeDestory (context : MatopContext) : MatopContext :=
  { context with
    messageList := []
    freed := context.freed ++ context.messageList.map Message.no }

/-- `matop_serice_init`. The structure is set to zero. -/
def matopSericeInit (context : MatopContext) : MatopContext :=
  { context with idCnt := 0, messageList := [] }

/-! ### The events -/

/-- The calls, and the messages that come in. -/
inductive MatopEvent
  | request (call : RequestCall)
  | response (id : ℤ) (calls : List RequestCall)
  | file (input : Bytes) (calls : List RequestCall)
  | yield (elapsed : List Nat) (calls : List RequestCall)
  | destory
  | init

def matopStep (context : MatopContext) : MatopEvent → MatopContext
  | .request call => (matopServiceRequestAsync context call).2
  | .response id calls => matopServiceDataReceiveCb context id calls
  | .file input calls => matopServiceFileRawdataReceiveCb context input calls
  | .yield elapsed calls => (matopSericeYield context elapsed calls).2
  | .destory => matopSericeDestory context
  | .init => matopSericeInit context

def MatopContext.waiting (context : MatopContext) : List Nat := context.messageList.map Message.no

def MatopContext.replied (context : MatopContext) (no : Nat) : Nat :=
  (context.replies.map Prod.fst).count no

/-- A reply is right for a request: it carries the id that was sent, or it comes when the timeout
is over. -/
def Reply.Right (message : Message) : Reply → Prop
  | .response id => id = message.id
  | .file id => id = message.id
  | .failure time => message.issued + message.duration ≤ time

/-- A request waits and has not been answered, or it has been answered once. Its node has been freed
once in the second case. -/
def Once (context : MatopContext) (message : Message) : Prop :=
  (message.no ∈ context.waiting ∧ context.replied message.no = 0 ∧
      context.freed.count message.no = 0) ∨
    (message.no ∉ context.waiting ∧ context.freed.count message.no = 1 ∧
      (message.notifyCb = true → context.replied message.no = 1))

/-- Every accepted request is answered once, and every answer is right. -/
structure Answered (context : MatopContext) : Prop where
  once : ∀ message ∈ context.accepted, Once context message
  right : ∀ reply ∈ context.replies, ∃ message ∈ context.accepted,
    message.no = reply.1 ∧ reply.2.Right message

def Message.Overdue (time : Nat) (message : Message) : Prop :=
  message.issued + message.duration < time

/-- The deadlines of requests that are made one after another fit 32 bits. -/
def Fit : Nat → List RequestCall → Prop
  | _, [] => True
  | time, call :: calls =>
    u32 (time + call.elapsed) + call.duration < 4294967296 ∧ Fit (time + call.elapsed) calls

def Regular (context : MatopContext) : MatopEvent → Prop
  | .request call => Fit context.time [call]
  -- No waiting request has the id only after it has been cut to 16 bits.
  | .response id calls =>
    (∀ message ∈ context.messageList,
      (message.id : ℤ) = valueint id % 65536 → id = message.id) ∧ Fit context.time calls
  | .file _ calls => Fit context.time calls
  -- The clock has not wrapped since a request that waits.
  | .yield elapsed calls =>
    (∀ message ∈ context.messageList,
      (context.time + elapsed.sum) / 4294967296 = message.issued / 4294967296) ∧
      Fit (firstExpired elapsed context.time context.messageList).2 calls
  | .destory => ∀ message ∈ context.messageList, message.notifyCb = false
  | .init => context.messageList = []

instance instDecidableFit : (time : Nat) → (calls : List RequestCall) → Decidable (Fit time calls)
  | _, [] => isTrue trivial
  | time, call :: calls =>
    have : Decidable (Fit (time + call.elapsed) calls) := instDecidableFit _ calls
    inferInstanceAs (Decidable
      (u32 (time + call.elapsed) + call.duration < 4294967296 ∧ Fit (time + call.elapsed) calls))

instance (context : MatopContext) : (ev : MatopEvent) → Decidable (Regular context ev)
  | .request call => inferInstanceAs (Decidable (Fit context.time [call]))
  | .response id calls => inferInstanceAs (Decidable ((∀ message ∈ context.messageList,
      (message.id : ℤ) = valueint id % 65536 → id = message.id) ∧ Fit context.time calls))
  | .file _ calls => inferInstanceAs (Decidable (Fit context.time calls))
  | .yield elapsed calls => inferInstanceAs (Decidable ((∀ message ∈ context.messageList,
      (context.time + elapsed.sum) / 4294967296 = message.issued / 4294967296) ∧
      Fit (firstExpired elapsed context.time context.messageList).2 calls))
  | .destory =>
    inferInstanceAs (Decidable (∀ message ∈ context.messageList, message.notifyCb = false))
  | .init => inferInstanceAs (Decidable (context.messageList = []))

instance (context : MatopContext) (message : Message) : Decidable (Once context message) :=
  inferInstanceAs (Decidable ((message.no ∈ context.waiting ∧ context.replied message.no = 0 ∧
      context.freed.count message.no = 0) ∨
    (message.no ∉ context.waiting ∧ context.freed.count message.no = 1 ∧
      (message.notifyCb = true → context.replied message.no = 1))))

instance (message : Message) : (reply : Reply) → Decidable (reply.Right message)
  | .response id => inferInstanceAs (Decidable (id = message.id))
  | .file id => inferInstanceAs (Decidable (id = message.id))
  | .failure time => inferInstanceAs (Decidable (message.issued + message.duration ≤ time))

/-! ### The invariant -/

/-- What holds in every state of a regular run. -/
structure MatopContext.Inv (context : MatopContext) : Prop extends Answered context where
  numbered : context.accepted.map Message.no = List.range context.accepted.length
  listed : ∀ message ∈ context.messageList, message ∈ context.accepted
  nodup : context.waiting.Nodup
  issued_le : ∀ message ∈ context.accepted, message.issued ≤ context.time
  deadline : ∀ message ∈ context.accepted,
    message.timeout = u32 message.issued + message.duration
  fresh : ∀ no, context.accepted.length ≤ no →
    context.replied no = 0 ∧ context.freed.count no = 0

section Steps

variable {context : MatopContext} {message : Message} {call : RequestCall}
  {calls : List RequestCall} {reply : Reply}

theorem MatopContext.Inv.no_lt (h : context.Inv) (hmem : message ∈ context.accepted) :
    message.no < context.accepted.length := by
  have hno : message.no ∈ context.accepted.map Message.no := List.mem_map_of_mem hmem
  rw [h.numbered] at hno
  exact List.mem_range.1 hno

theorem MatopContext.Inv.eq_of_no (h : context.Inv) {other : Message}
    (hother : other ∈ context.accepted) (hmem : message ∈ context.accepted)
    (heq : other.no = message.no) : other = message := by
  have hnodup : (context.accepted.map Message.no).Nodup := by
    rw [h.numbered]
    exact List.nodup_range
  exact List.inj_on_of_nodup_map hnodup hother hmem heq

theorem Once.of_eq {context' : MatopContext} (h : Once context message)
    (hwaiting : message.no ∈ context'.waiting ↔ message.no ∈ context.waiting)
    (hreplied : context'.replied message.no = context.replied message.no)
    (hfreed : context'.freed.count message.no = context.freed.count message.no) :
    Once context' message := by
  rwa [Once, hwaiting, hreplied, hfreed]

theorem MatopContext.Inv.of_time (h : context.Inv) {time idCnt : Nat} (hle : context.time ≤ time) :
    MatopContext.Inv { context with time := time, idCnt := idCnt } where
  once := h.once
  right := h.right
  numbered := h.numbered
  listed := h.listed
  nodup := h.nodup
  issued_le message hmem := (h.issued_le message hmem).trans hle
  deadline := h.deadline
  fresh := h.fresh

theorem MatopContext.Inv.accept (h : context.Inv) (hno : message.no = context.accepted.length)
    (hissued : message.issued ≤ context.time)
    (hdeadline : message.timeout = u32 message.issued + message.duration) :
    MatopContext.Inv { context with
      messageList := context.messageList ++ [message]
      accepted := context.accepted ++ [message] } := by
  have hwaiting : MatopContext.waiting { context with
      messageList := context.messageList ++ [message]
      accepted := context.accepted ++ [message] } = context.waiting ++ [message.no] :=
    List.map_append
  have hnot : message.no ∉ context.waiting := by
    intro hmem
    obtain ⟨other, hother, heq⟩ := List.mem_map.1 hmem
    have hlt := h.no_lt (h.listed other hother)
    omega
  have hfresh := h.fresh message.no hno.ge
  refine ⟨⟨?_, ?_⟩, ?_, ?_, ?_, ?_, ?_, ?_⟩
  · intro other hother
    rcases List.mem_append.1 hother with hold | hnew
    · have hlt := h.no_lt hold
      refine (h.once other hold).of_eq ?_ rfl rfl
      rw [hwaiting, List.mem_append, List.mem_singleton]
      exact or_iff_left (by omega)
    · rw [List.mem_singleton.1 hnew]
      refine .inl ⟨?_, hfresh⟩
      rw [hwaiting]
      exact List.mem_append_right _ (List.mem_singleton_self _)
  · intro reply hreply
    obtain ⟨other, hother, hright⟩ := h.right reply hreply
    exact ⟨other, List.mem_append_left _ hother, hright⟩
  · rw [List.map_append, h.numbered, List.length_append, List.map_singleton, hno]
    exact List.range_succ.symm
  · intro other hother
    rcases List.mem_append.1 hother with hold | hnew
    · exact List.mem_append_left _ (h.listed other hold)
    · exact List.mem_append_right _ hnew
  · rw [hwaiting]
    exact h.nodup.append (List.nodup_singleton _) (List.disjoint_singleton.2 hnot)
  · intro other hother
    rcases List.mem_append.1 hother with hold | hnew
    · exact h.issued_le other hold
    · rw [List.mem_singleton.1 hnew]
      exact hissued
  · intro other hother
    rcases List.mem_append.1 hother with hold | hnew
    · exact h.deadline other hold
    · rw [List.mem_singleton.1 hnew]
      exact hdeadline
  · intro no hle
    rw [List.length_append] at hle
    exact h.fresh no (by omega)

/-- **Step lemma.** A request. -/
theorem MatopContext.Inv.request (h : context.Inv)
    (hfit : u32 (context.time + call.elapsed) + call.duration < 4294967296) :
    (matopServiceRequestAsync context call).2.Inv := by
  have htime : context.time ≤ context.time + call.elapsed := Nat.le_add_right _ _
  rw [matopServiceRequestAsync]
  dsimp only
  split_ifs
  · exact h.of_time htime
  · exact h.of_time htime
  · exact h.of_time htime
  · have hlater := @MatopContext.Inv.of_time context h _ (u32 (context.idCnt + 1)) htime
    exact hlater.accept rfl le_rfl (u32_of_lt hfit)

theorem time_matopServiceRequestAsync (context : MatopContext) (call : RequestCall) :
    (matopServiceRequestAsync context call).2.time = context.time + call.elapsed := by
  rw [matopServiceRequestAsync]
  dsimp only
  split_ifs <;> rfl

/-- **Run lemma.** The requests of a callback. -/
theorem MatopContext.Inv.requests (h : context.Inv) (hfit : Fit context.time calls) :
    (Matop.requests context calls).Inv := by
  induction calls generalizing context with
  | nil => exact h
  | cons call calls ih =>
    refine ih (h.request hfit.1) ?_
    rw [time_matopServiceRequestAsync]
    exact hfit.2

/-! ### Removal -/

theorem waiting_remove (context : MatopContext) (no : Nat) :
    (remove context no).waiting = context.waiting.filter (· ≠ no) := by
  rw [MatopContext.waiting, MatopContext.waiting, List.filter_map]
  rfl

theorem freed_remove (context : MatopContext) (no : Nat) :
    (remove context no).freed = context.freed ++ context.waiting.filter (· = no) := by
  rw [MatopContext.waiting, List.filter_map]
  rfl

theorem remove_matopServiceRequestAsync {no : Nat} (hlt : no < context.accepted.length) :
    remove (matopServiceRequestAsync context call).2 no =
      (matopServiceRequestAsync (remove context no) call).2 := by
  have hne : context.accepted.length ≠ no := hlt.ne'
  rw [matopServiceRequestAsync, matopServiceRequestAsync]
  dsimp only
  split_ifs
  · rfl
  · rfl
  · rfl
  · simp only [remove, List.filter_append, RequestCall.message, List.filter_singleton, hne,
      decide_false, decide_true, ne_eq, not_false_eq_true, cond_true, cond_false, List.append_nil]

theorem length_accepted_le (context : MatopContext) (call : RequestCall) :
    context.accepted.length ≤ (matopServiceRequestAsync context call).2.accepted.length := by
  rw [matopServiceRequestAsync]
  dsimp only
  split_ifs
  · exact le_rfl
  · exact le_rfl
  · exact le_rfl
  · dsimp only
    rw [List.length_append]
    exact Nat.le_add_right _ _

theorem remove_requests {no : Nat} (hlt : no < context.accepted.length) :
    remove (requests context calls) no = requests (remove context no) calls := by
  induction calls generalizing context with
  | nil => rfl
  | cons call calls ih =>
    refine (ih (hlt.trans_le (length_accepted_le context call))).trans ?_
    rw [remove_matopServiceRequestAsync hlt]
    rfl

/-- The state after an answer, with the node removed before the callback makes its requests. -/
def answer (context : MatopContext) (message : Message) (reply : Reply) : MatopContext :=
  remove { context with
    replies := context.replies ++ if message.notifyCb then [(message.no, reply)] else [] }
    message.no

theorem remove_notify (hlt : message.no < context.accepted.length) :
    remove (notify context message reply calls) message.no =
      if message.notifyCb then requests (answer context message reply) calls
      else answer context message reply := by
  rw [notify, answer]
  split_ifs
  · exact remove_requests hlt
  · rw [List.append_nil]

theorem count_freed_remove (hnodup : context.waiting.Nodup) {no : Nat}
    (hmem : no ∈ context.waiting) (no' : Nat) :
    (remove context no).freed.count no' = context.freed.count no' + if no' = no then 1 else 0 := by
  rw [freed_remove, List.count_append]
  congr 1
  split_ifs with heq
  · subst heq
    have hfilter : (context.waiting.filter (· = no')).count no' = context.waiting.count no' :=
      List.count_filter (by exact decide_eq_true rfl)
    rw [hfilter]
    exact List.count_eq_one_of_mem hnodup hmem
  · refine List.count_eq_zero_of_not_mem fun h => heq ?_
    exact of_decide_eq_true (List.mem_filter.1 h).2

theorem replied_answer (no : Nat) :
    (answer context message reply).replied no =
      context.replied no + if message.notifyCb = true ∧ no = message.no then 1 else 0 := by
  have hsplit : (answer context message reply).replied no = context.replied no +
      ((if message.notifyCb then [(message.no, reply)] else []).map Prod.fst).count no := by
    rw [MatopContext.replied, MatopContext.replied, ← List.count_append, ← List.map_append]
    rfl
  rw [hsplit]
  congr 1
  by_cases hcb : message.notifyCb = true
  · simp [hcb, List.count_singleton, @eq_comm _ no]
  · simp [hcb]

/-- **Step lemma.** An answer that is right. -/
theorem MatopContext.Inv.answer (h : context.Inv) (hmem : message ∈ context.messageList)
    (hright : reply.Right message) : (Matop.answer context message reply).Inv := by
  have hno : message.no ∈ context.waiting := List.mem_map_of_mem hmem
  have haccepted : message ∈ context.accepted := h.listed message hmem
  have hwaiting : (Matop.answer context message reply).waiting =
      context.waiting.filter (· ≠ message.no) := waiting_remove _ _
  have hfreed (no : Nat) : (Matop.answer context message reply).freed.count no =
      context.freed.count no + if no = message.no then 1 else 0 :=
    count_freed_remove h.nodup hno no
  refine ⟨⟨?_, ?_⟩, h.numbered, ?_, ?_, h.issued_le, h.deadline, ?_⟩
  · intro other hother
    by_cases heq : other.no = message.no
    · rw [h.eq_of_no hother haccepted heq]
      obtain ⟨-, hreplied, hcount⟩ := (h.once message haccepted).resolve_right fun hr => hr.1 hno
      refine .inr ⟨?_, ?_, fun hcb => ?_⟩
      · rw [hwaiting]
        exact fun hmem' => of_decide_eq_true (List.mem_filter.1 hmem').2 rfl
      · rw [hfreed, if_pos rfl, hcount]
      · rw [replied_answer, if_pos ⟨hcb, rfl⟩, hreplied]
    · refine (h.once other hother).of_eq ?_ ?_ ?_
      · rw [hwaiting, List.mem_filter]
        exact and_iff_left (decide_eq_true heq)
      · rw [replied_answer, if_neg fun h => heq h.2, Nat.add_zero]
      · rw [hfreed, if_neg heq, Nat.add_zero]
  · intro reply' hreply
    rcases List.mem_append.1 hreply with hold | hnew
    · exact h.right reply' hold
    · split_ifs at hnew with hcb
      · rw [List.mem_singleton.1 hnew]
        exact ⟨message, haccepted, rfl, hright⟩
      · exact absurd hnew List.not_mem_nil
  · intro other hother
    exact h.listed other (List.mem_of_mem_filter hother)
  · rw [hwaiting]
    exact h.nodup.filter _
  · intro no hle
    have hne : no ≠ message.no := ((h.no_lt haccepted).trans_le hle).ne'
    rw [replied_answer, if_neg fun h => hne h.2, hfreed, if_neg hne]
    exact h.fresh no hle

/-- **Step lemma.** An answer that is right, with the requests of the callback. -/
theorem MatopContext.Inv.remove_notify (h : context.Inv) (hmem : message ∈ context.messageList)
    (hright : reply.Right message) (hfit : Fit context.time calls) :
    (remove (notify context message reply calls) message.no).Inv := by
  rw [Matop.remove_notify (h.no_lt (h.listed message hmem))]
  have hanswer := h.answer hmem hright
  split_ifs
  · exact hanswer.requests hfit
  · exact hanswer

/-- **Step lemma.** A disconnect while only requests without a callback wait. -/
theorem MatopContext.Inv.destory (h : context.Inv)
    (hcond : ∀ message ∈ context.messageList, message.notifyCb = false) :
    (matopSericeDestory context).Inv := by
  have hfreed (no : Nat) : (matopSericeDestory context).freed.count no =
      context.freed.count no + context.waiting.count no := List.count_append
  refine ⟨⟨?_, h.right⟩, h.numbered, ?_, List.nodup_nil, h.issued_le, h.deadline, ?_⟩
  · intro message hmem
    refine .inr ⟨List.not_mem_nil, ?_, fun hcb => ?_⟩
    · rcases h.once message hmem with ⟨hwaiting, -, hcount⟩ | ⟨hwaiting, hcount, -⟩
      · rw [hfreed, hcount, List.count_eq_one_of_mem h.nodup hwaiting]
      · rw [hfreed, hcount, List.count_eq_zero_of_not_mem hwaiting]
    · refine ((h.once message hmem).resolve_left fun hl => ?_).2.2 hcb
      obtain ⟨other, hother, heq⟩ := List.mem_map.1 hl.1
      rw [← h.eq_of_no (h.listed other hother) hmem heq, hcond other hother] at hcb
      exact Bool.false_ne_true hcb
  · intro message hmem
    exact absurd hmem List.not_mem_nil
  · intro no hle
    have hwaiting : no ∉ context.waiting := by
      intro hmem
      obtain ⟨other, hother, heq⟩ := List.mem_map.1 hmem
      exact absurd hle (heq ▸ h.no_lt (h.listed other hother)).not_ge
    rw [hfreed, List.count_eq_zero_of_not_mem hwaiting]
    exact h.fresh no hle

/-- **Step lemma.** A connect while no request waits. -/
theorem MatopContext.Inv.init (h : context.Inv) (hcond : context.messageList = []) :
    (matopSericeInit context).Inv := by
  have hsame : matopSericeInit context = { context with time := context.time, idCnt := 0 } := by
    rw [matopSericeInit]
    congr 1
    exact hcond.symm
  rw [hsame]
  exact h.of_time le_rfl

/-! ### Passes -/

theorem MatopContext.Inv.right_failure (h : context.Inv) (hmem : message ∈ context.accepted)
    {time : Nat} (hle : context.time ≤ time) (hexpired : message.timeout < u32 time) :
    (Reply.failure time).Right message := by
  have hissued := h.issued_le message hmem
  rw [h.deadline message hmem, u32, u32] at hexpired
  rw [Reply.Right]
  omega

theorem firstExpired_spec (elapsed : List Nat) (time : Nat) (messages : List Message) :
    time ≤ (firstExpired elapsed time messages).2 ∧
      ∀ message, (firstExpired elapsed time messages).1 = some message →
        message ∈ messages ∧ message.timeout < u32 (firstExpired elapsed time messages).2 := by
  induction messages generalizing elapsed time with
  | nil => exact ⟨le_rfl, fun message h => absurd h (Option.some_ne_none message).symm⟩
  | cons message messages ih =>
    rw [firstExpired]
    split_ifs with hexpired
    · refine ⟨Nat.le_add_right _ _, fun other h => ?_⟩
      rw [← Option.some.inj h]
      exact ⟨List.mem_cons_self, hexpired⟩
    · obtain ⟨hle, hsome⟩ := ih elapsed.tail (time + elapsed.headD 0)
      refine ⟨(Nat.le_add_right _ _).trans hle, fun other h => ?_⟩
      obtain ⟨hmem, hexpired'⟩ := hsome other h
      exact ⟨List.mem_cons_of_mem _ hmem, hexpired'⟩

/-- **Step lemma.** A pass. -/
theorem MatopContext.Inv.yield (h : context.Inv) {elapsed : List Nat}
    (hfit : Fit (firstExpired elapsed context.time context.messageList).2 calls) :
    (matopSericeYield context elapsed calls).2.Inv := by
  obtain ⟨hle, hsome⟩ := firstExpired_spec elapsed context.time context.messageList
  rw [matopSericeYield]
  generalize firstExpired elapsed context.time context.messageList = r at hle hsome hfit
  obtain ⟨found, time⟩ := r
  cases found with
  | none => exact h.of_time hle
  | some message =>
    obtain ⟨hmem, hexpired⟩ := hsome message rfl
    have hright := h.right_failure (h.listed message hmem) hle hexpired
    exact (h.of_time hle).remove_notify hmem hright hfit

/-- **Step lemma.** A response. -/
theorem MatopContext.Inv.response (h : context.Inv) {id : ℤ}
    (hid : ∀ message ∈ context.messageList,
      (message.id : ℤ) = valueint id % 65536 → id = message.id)
    (hfit : Fit context.time calls) : (matopServiceDataReceiveCb context id calls).Inv := by
  rw [matopServiceDataReceiveCb]
  cases hfound : context.messageList.find? fun message =>
      (message.id : ℤ) = valueint id % 65536 with
  | none => exact h
  | some message =>
    have hmem := List.mem_of_find?_eq_some hfound
    have hmatch : (message.id : ℤ) = valueint id % 65536 := by
      simpa using List.find?_some hfound
    exact h.remove_notify hmem (hid message hmem hmatch) hfit

/-- **Step lemma.** File data. -/
theorem MatopContext.Inv.file (h : context.Inv) {input : Bytes} (hfit : Fit context.time calls) :
    (matopServiceFileRawdataReceiveCb context input calls).Inv := by
  rw [matopServiceFileRawdataReceiveCb]
  split_ifs
  · exact h
  · cases hfound : context.messageList.find? fun message =>
        message.id = beNat (input.take 4) with
    | none => exact h
    | some message =>
      have hmem := List.mem_of_find?_eq_some hfound
      have hmatch : message.id = beNat (input.take 4) := by
        simpa using List.find?_some hfound
      exact h.remove_notify hmem hmatch.symm hfit

/-- **Step lemma.** -/
theorem MatopContext.Inv.step (h : context.Inv) {ev : MatopEvent} (hcond : Regular context ev) :
    (matopStep context ev).Inv := by
  cases ev with
  | request call => exact h.request hcond.1
  | response id calls => exact h.response hcond.1 hcond.2
  | file input calls => exact h.file hcond
  | yield elapsed calls => exact h.yield hcond.2
  | destory => exact h.destory hcond
  | init => exact h.init hcond

end Steps

end TuyaOpen.Matop
