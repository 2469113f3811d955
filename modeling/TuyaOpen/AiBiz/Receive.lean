import TuyaOpen.AiBiz.Attrs

/-!
# Received AI packets

`__ai_biz_recv_handle` gets the payload of a packet, whole or in fragments. A payload that is whole
or starts a group has

  flag and type + attributes + their length + header + data,

where the header is that of a stream, of an event, or missing. A stream goes to the callback that a
session has for its channel, and so do the fragments behind it. The lengths in the payload are not
compared with the length that the function gets.

The memory of a fragment is what may be read from the pointer on; the fragment itself is its front
part.
-/

namespace TuyaOpen.AiBiz

open AiProtocol

/-! ### Headers -/

/-- `__ai_is_biz_pkt_vaild`. -/
def aiIsBizPktVaild (type : Nat) : Bool :=
  type ∈ [aiPtAudio, aiPtVideo, aiPtImage, aiPtFile, aiPtText, aiPtEvent, aiPtSessionClose]

def bizHeadSize (type : Nat) : Nat :=
  if type = aiPtVideo ∨ type = aiPtAudio then 23
  else if type = aiPtImage then 15
  else 7

/-- `AI_BIZ_HEAD_INFO_T`; the members of the union that a type does not have are 0. -/
structure AiBizHeadInfo where
  streamFlag : Nat
  timestamp : Nat
  pts : Nat
  len : Nat
  deriving DecidableEq

/-- `AI_STREAM_ING`. -/
def aiStreamIng : Nat := 2

/-- `__ai_parse_biz_head`, for the bytes of the header. Its integers are in network order. -/
def aiParseBizHead (type : Nat) (head : Bytes) : AiBizHeadInfo :=
  let streamFlag := (head.getD 2 0).toNat / 64
  if type = aiPtVideo ∨ type = aiPtAudio then
    ⟨streamFlag, beNat (slice head 3 8), beNat (slice head 11 8), beNat (slice head 19 4)⟩
  else if type = aiPtImage then
    ⟨streamFlag, beNat (slice head 3 8), 0, beNat (slice head 11 4)⟩
  else ⟨streamFlag, 0, 0, beNat (slice head 3 4)⟩

/-! ### Callbacks -/

/-- `AI_BIZ_ATTR_INFO_T`. -/
structure AiBizAttrInfo where
  flag : Nat
  type : Nat
  value : AiBizAttrValue
  deriving DecidableEq

/-- A call of a receiving callback. The data is given by its offset in the fragment. -/
structure BizDelivery (κ υ : Type*) where
  cb : κ
  attr : Option AiBizAttrInfo
  head : AiBizHeadInfo
  data : Nat
  usrData : Option υ
  deriving DecidableEq

structure BizEventCall (κ : Type*) where
  cb : κ
  type : Nat
  attr : AiEventAttr
  deriving DecidableEq

structure BizCallbacks (κ υ : Type*) where
  recv : BizDelivery κ υ → OperateRet
  event : BizEventCall κ → OperateRet

/-- What can be seen of a call: the return value, where the header of a stream has been read by
offset and size, and the calls of callbacks. -/
structure BizRecvOut (κ υ : Type*) where
  rt : OperateRet
  headSpan : Option (Nat × Nat)
  delivered : Option (BizDelivery κ υ)
  event : Option (BizEventCall κ)
  deriving DecidableEq

/-- Memory that is read and must not be: the first byte, the length of the attributes, an attribute,
an identifier, or a header. -/
inductive BizFault
  | payloadHead
  | attrLen
  | attr (f : AttrFault)
  | sessionId
  | eventHead
  | bizHead
  deriving DecidableEq

section Model

variable {κ υ : Type*}

/-- The loop over `recv` of a session: the callback, and `usr_data` so far. -/
def findRecv (recvId : Nat) : List (AiBizRecvData κ υ) → Option υ → Option κ × Option υ
  | [], usrData => (none, usrData)
  | r :: rs, usrData =>
    if r.id.toNat = recvId then
      match r.cb with
      | some cb => (some cb, r.usrData)
      | none => findRecv recvId rs r.usrData
    else findRecv recvId rs usrData

/-- The loop over the sessions in `__ai_biz_recv_handle`. -/
def findReceiver (recvId : Nat) : List (AiSession κ υ) → Option υ → Option κ × Option υ
  | [], usrData => (none, usrData)
  | x :: xs, usrData =>
    if x.id = [] then findReceiver recvId xs usrData
    else
      match findRecv recvId x.cfg.recv usrData with
      | (some cb, usrData) => (some cb, usrData)
      | (none, usrData) => findReceiver recvId xs usrData

/-- The loop over the sessions in `__ai_biz_recv_event`. There is no result if the identifier is
read behind its memory. -/
def findEventCb (sessionId : Bytes) : List (AiSession κ υ) → Option (Option κ)
  | [] => some none
  | x :: xs =>
    if x.id = [] then findEventCb sessionId xs
    else
      match strcmpEq x.id sessionId with
      | none => none
      | some true =>
        match x.cfg.eventCb with
        | some cb => some (some cb)
        | none => findEventCb sessionId xs
      | some false => findEventCb sessionId xs

/-- `__ai_biz_recv_event`. A `NULL` identifier is memory that may not be read. -/
def aiBizRecvEvent (calls : BizCallbacks κ υ) (biz : AiBasicBiz κ υ) (mem : Bytes) (offset : Nat)
    (event : AiEventAttr) : Except BizFault (BizRecvOut κ υ) :=
  match readSpan mem offset 2 with
  | none => .error .eventHead
  | some type =>
    match findEventCb (event.sessionId.getD []) biz.session with
    | none => .error .sessionId
    | some none => .ok ⟨oprtComError, none, none, none⟩
    | some (some cb) =>
      let call : BizEventCall κ := ⟨cb, beNat type, event⟩
      .ok ⟨calls.event call, none, none, some call⟩

/-- The part of `__ai_biz_recv_handle` behind the attributes of a stream: the header at `offset`,
and the callback of the channel. -/
def recvStream (calls : BizCallbacks κ υ) (biz : AiBasicBiz κ υ) (mem : Bytes) (offset : Nat)
    (info : AiBizAttrInfo) : Except BizFault (BizRecvOut κ υ × AiBasicBiz κ υ) :=
  let size := bizHeadSize info.type
  match readSpan mem offset size with
  | none => .error .bizHead
  | some head =>
    match findReceiver (beNat (slice head 0 2)) biz.session none with
    | (none, _) => .ok (⟨oprtComError, some (offset, size), none, none⟩, biz)
    | (some cb, usrData) =>
      let d : BizDelivery κ υ :=
        ⟨cb, some info, aiParseBizHead info.type head, offset + size, usrData⟩
      .ok (⟨calls.recv d, some (offset, size), some d, none⟩, { biz with cb := some cb })

/-- The part of `__ai_biz_recv_handle` behind the attributes, which end at `offset`. -/
def recvBehindAttrs (calls : BizCallbacks κ υ) (biz : AiBasicBiz κ υ) (mem : Bytes) (offset : Nat)
    (info : AiBizAttrInfo) : Except BizFault (BizRecvOut κ υ × AiBasicBiz κ υ) :=
  if info.type = aiPtSessionClose then
    let close : AiSessionCloseAttr :=
      match info.value with
      | .close v => v
      | _ => ⟨none, 0⟩
    match aiBizSessionDestory close.id none (some biz) with
    | none => .error .sessionId
    | some (rt, biz') => .ok (⟨rt, none, none, none⟩, biz'.getD biz)
  else
    let offset := u32 (offset + 4)
    if info.type = aiPtEvent then
      let event : AiEventAttr :=
        match info.value with
        | .event v => v
        | _ => ⟨none, none, 0, 0, none⟩
      (aiBizRecvEvent calls biz mem offset event).map fun out => (out, biz)
    else recvStream calls biz mem offset info

/-- `__ai_biz_recv_handle` for a whole payload or the start of a group, where the loop over the
attributes has at most `fuel` rounds. -/
def recvStart (fuel : Nat) (calls : BizCallbacks κ υ) (biz : AiBasicBiz κ υ) (mem : Bytes) :
    Option (Except BizFault (BizRecvOut κ υ × AiBasicBiz κ υ)) :=
  match mem with
  | [] => some (.error .payloadHead)
  | b :: _ =>
    let flag := b.toNat % 2
    let type := b.toNat / 2
    let biz := { biz with cb := none }
    if aiIsBizPktVaild type then
      if flag = 1 then
        match readSpan mem 1 4 with
        | none => some (.error .attrLen)
        | some attrLen =>
          match aiParseBizAttr fuel type (mem.drop 5) (beNat attrLen) with
          | none => none
          | some (.error (.fault f)) => some (.error (.attr f))
          | some (.error (.err rt)) => some (.ok (⟨rt, none, none, none⟩, biz))
          | some (.ok value) =>
            some (recvBehindAttrs calls biz mem (u32 (5 + beNat attrLen)) ⟨flag, type, value⟩)
      else some (recvBehindAttrs calls biz mem 1 ⟨flag, type, .zero⟩)
    else some (.ok (⟨oprtInvalidParm, none, none, none⟩, biz))

/-- `__ai_biz_recv_handle` for the other fragments of a group. `usr_data` is a local variable. -/
def recvLater (calls : BizCallbacks κ υ) (biz : AiBasicBiz κ υ) (len : Nat) :
    BizRecvOut κ υ × AiBasicBiz κ υ :=
  match biz.cb with
  | none => (⟨oprtOk, none, none, none⟩, biz)
  | some cb =>
    let d : BizDelivery κ υ := ⟨cb, none, ⟨aiStreamIng, 0, 0, len⟩, 0, none⟩
    (⟨calls.recv d, none, some d, none⟩, biz)

/-- `__ai_biz_recv_handle`. -/
def aiBizRecvHandle (fuel : Nat) (calls : BizCallbacks κ υ) (biz : AiBasicBiz κ υ) (mem : Bytes)
    (len : Nat) (frag : AiFragFlag) :
    Option (Except BizFault (BizRecvOut κ υ × AiBasicBiz κ υ)) :=
  if frag = .noFrag ∨ frag = .fragStart then recvStart fuel calls biz mem
  else some (.ok (recvLater calls biz len))

end Model

end TuyaOpen.AiBiz
