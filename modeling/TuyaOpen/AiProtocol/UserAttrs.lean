import TuyaOpen.Common.ByteOrder
import TuyaOpen.AiProtocol.Send

/-!
# Attributes of the user

`tuya_pack_user_attrs` and `tuya_parse_user_attrs`. An attribute is its type, its payload type and
its length, seven bytes in all, and then its value. The parser goes through the bytes twice: first
it counts the attributes, then it fills an array of that many. It follows the lengths it finds with
an offset of 32 bits.

A string or byte array is a pointer into the bytes that are parsed.

## Main results

* `packUserAttrs_eq`: the loop does what that of `__ai_pack_payload` does.
* `getAttrNumLoop_of_walk`, `getAttrValue_wire`.
* `parse_pack_userAttrs`: the round trip.
-/

namespace TuyaOpen.AiProtocol

/-! ### Attributes -/

/-- `__ai_check_attr_vaild`. The payload types 1 to 6 are `ATTR_PT_U8`, `ATTR_PT_U16`,
`ATTR_PT_U32`, `ATTR_PT_U64`, `ATTR_PT_BYTES` and `ATTR_PT_STR`; 24 is
`AI_ATTR_CONNECT_STATUS_CODE` and 31 is `AI_ATTR_CONNECT_CLOSE_ERR_CODE`. -/
def aiCheckAttrVaild (a : AiAttribute) : Bool :=
  if (a.type = 24 ∨ a.type = 31) ∧ a.payloadType ≠ 2 then false
  else if a.payloadType = 1 then a.length = 1
  else if a.payloadType = 2 then a.length = 2
  else if a.payloadType = 3 then a.length = 4
  else if a.payloadType = 4 then a.length = 8
  else if a.payloadType = 6 ∨ a.payloadType = 5 then a.length ≠ 0
  else true

/-- The value of an attribute: an integer, or the bytes of a string or byte array. -/
inductive AiAttrValue
  | integer (n : Nat)
  | bytes (bs : Bytes)
  deriving DecidableEq

def AiAttribute.value (a : AiAttribute) : AiAttrValue :=
  if a.payloadType = 1 then .integer (a.scalar.toNat % 256)
  else if a.payloadType = 2 then .integer (a.scalar.toNat % 65536)
  else if a.payloadType = 3 then .integer (a.scalar.toNat % 4294967296)
  else if a.payloadType = 4 then .integer a.scalar.toNat
  else .bytes (a.mem.take a.length.toNat)

def AiAttribute.fields (a : AiAttribute) : UInt16 × UInt8 × UInt32 × AiAttrValue :=
  (a.type, a.payloadType, a.length, a.value)

/-! ### Packing -/

/-- The value bytes of an attribute in `tuya_pack_user_attrs`, from the union, from a swapped copy
or from the memory that the value points to. -/
def userValueBytes (a : AiAttribute) : Except AiStop Bytes :=
  if a.payloadType = 1 then readValue (leBytes 8 a.scalar.toNat) a.length
  else if a.payloadType = 2 then
    readValue (leBytes 2 (wordSwap (a.scalar.toNat % 65536))) a.length
  else if a.payloadType = 3 then
    readValue (leBytes 4 (dwordSwap (a.scalar.toNat % 4294967296))) a.length
  else if a.payloadType = 4 then readValue (leBytes 8 (ddwordSwap a.scalar.toNat)) a.length
  else if a.payloadType = 5 then readValue a.mem a.length
  else if a.payloadType = 6 then readValue a.mem a.length
  else .error (.err ⟨oprtComError, oprtComError_ne_ok⟩)

/-- One round of the loop of `tuya_pack_user_attrs`. -/
def packUserAttr (size : Nat) (usrBuf : Bytes) (a : AiAttribute) : Except AiStop Bytes := do
  let usrBuf ← putBytes size usrBuf (leBytes 2 (wordSwap a.type.toNat))
  let usrBuf ← putBytes size usrBuf [a.payloadType]
  let usrBuf ← putBytes size usrBuf (leBytes 4 (dwordSwap a.length.toNat))
  let value ← userValueBytes a
  putBytes size usrBuf value

/-- The loop of `tuya_pack_user_attrs`, with the bytes that it has written to `usr_buf`. -/
def packUserAttrs (size : Nat) : Bytes → List AiAttribute → Except AiStop Bytes
  | usrBuf, [] => .ok usrBuf
  | usrBuf, a :: attrs => do
    let usrBuf ← packUserAttr size usrBuf a
    packUserAttrs size usrBuf attrs

def userAttrsLen (attrs : List AiAttribute) : Nat :=
  (attrs.map fun a => attributeHeadSize + a.length.toNat).sum

/-- `tuya_pack_user_attrs`: `out` and `out_len`, or what has been returned instead. -/
def tuyaPackUserAttrs (malloc : Nat → Bool) (attrs : List AiAttribute) : Except AiStop Bytes :=
  let attrLen := u32 (userAttrsLen attrs)
  if malloc attrLen then do
    let usrBuf ← packUserAttrs attrLen [] attrs
    .ok (usrBuf ++ List.replicate (attrLen - usrBuf.length) 0)
  else .error (.err ⟨oprtMallocFailed, oprtMallocFailed_ne_ok⟩)

/-! ### Parsing -/

/-- What the parser must not do: read at or behind `attr_len`, copy more than an integer of its
value holds, write behind the array. -/
inductive AttrFault
  | read
  | value
  | index
  deriving DecidableEq

/-- Why a part of the parser gives no result. -/
inductive AttrStop
  | fault (f : AttrFault)
  | err (rt : FailCode)
  deriving DecidableEq

/-- The loop of `tuya_ai_get_attr_num`, in at most `fuel` rounds. The memory of `deBuf` ends where it
may be read no further. -/
def getAttrNumLoop (deBuf : Bytes) (attrLen : Nat) :
    Nat → Nat → Nat → Option (Except AttrFault Nat)
  | 0, _, _ => none
  | fuel + 1, offset, idx =>
    if offset < attrLen then
      let offset := u32 (offset + 2)
      let offset := u32 (offset + 1)
      match readSpan deBuf offset 4 with
      | none => some (.error .read)
      | some length =>
        let offset := u32 (offset + 4)
        let offset := u32 (offset + dwordSwap (leNat length))
        getAttrNumLoop deBuf attrLen fuel offset (u32 (idx + 1))
    else some (.ok idx)

/-- `tuya_ai_get_attr_num`. -/
def tuyaAiGetAttrNum (fuel : Nat) (deBuf : Bytes) (attrLen : Nat) : Option (Except AttrFault Nat) :=
  getAttrNumLoop deBuf attrLen fuel 0 0

/-- A copy of `length` bytes into an integer of `size` bytes that is 0. -/
def copyInteger (deBuf : Bytes) (size offset length : Nat) : Except AttrStop Nat :=
  if size < length then .error (.fault .value)
  else
    match readSpan deBuf offset length with
    | none => .error (.fault .read)
    | some src => .ok (leNat (src ++ List.replicate (size - length) 0))

/-- The value of an attribute in `tuya_ai_get_attr_value`, as the 64 bits of the union and the
memory behind a pointer. -/
def readAttrValue (deBuf : Bytes) (offset : Nat) (payloadType : UInt8) (length : Nat) :
    Except AttrStop (Nat × Bytes) :=
  if payloadType = 1 then do
    let value ← copyInteger deBuf 1 offset length
    .ok (value, [])
  else if payloadType = 2 then do
    let value ← copyInteger deBuf 2 offset length
    .ok (wordSwap value, [])
  else if payloadType = 3 then do
    let value ← copyInteger deBuf 4 offset length
    .ok (dwordSwap value, [])
  else if payloadType = 4 then do
    let value ← copyInteger deBuf 8 offset length
    .ok (ddwordSwap value, [])
  else if payloadType = 5 then .ok (0, deBuf.drop offset)
  else if payloadType = 6 then .ok (0, deBuf.drop offset)
  else .error (.err ⟨oprtComError, oprtComError_ne_ok⟩)

/-- `tuya_ai_get_attr_value`: the attribute, and `*offset` behind it. -/
def tuyaAiGetAttrValue (deBuf : Bytes) (offset : Nat) : Except AttrStop (AiAttribute × Nat) :=
  match readSpan deBuf offset 2 with
  | none => .error (.fault .read)
  | some type =>
    let offset := u32 (offset + 2)
    match readSpan deBuf offset 1 with
    | none => .error (.fault .read)
    | some payloadType =>
      let offset := u32 (offset + 1)
      match readSpan deBuf offset 4 with
      | none => .error (.fault .read)
      | some length =>
        let offset := u32 (offset + 4)
        let length := dwordSwap (leNat length)
        match readAttrValue deBuf offset (payloadType.getD 0 0) length with
        | .error stop => .error stop
        | .ok (scalar, mem) =>
          let attr : AiAttribute :=
            { type := UInt16.ofNat (wordSwap (leNat type))
              payloadType := payloadType.getD 0 0
              length := UInt32.ofNat length
              scalar := UInt64.ofNat scalar
              mem := mem }
          if aiCheckAttrVaild attr then .ok (attr, u32 (offset + length))
          else .error (.err ⟨oprtComError, oprtComError_ne_ok⟩)

/-- What `tuya_parse_user_attrs` returns: `*attr_out` and `*attr_num` only with `OPRT_OK`. -/
structure AiParseResult where
  rt : OperateRet
  attrOut : List AiAttribute
  attrNum : Nat

/-- The loop of `tuya_parse_user_attrs`, in at most `fuel` rounds. The array has room for `num`
attributes, `attrs` are those in it. -/
def parseUserAttrsLoop (deBuf : Bytes) (attrLen num : Nat) :
    Nat → Nat → List AiAttribute → Option (Except AttrFault AiParseResult)
  | 0, _, _ => none
  | fuel + 1, offset, attrs =>
    if offset < attrLen then
      if attrs.length < num then
        match tuyaAiGetAttrValue deBuf offset with
        | .error (.fault f) => some (.error f)
        | .error (.err rt) => some (.ok ⟨rt, [], 0⟩)
        | .ok (attr, offset) => parseUserAttrsLoop deBuf attrLen num fuel offset (attrs ++ [attr])
      else some (.error .index)
    else some (.ok ⟨oprtOk, attrs, num⟩)

/-- `sizeof(AI_ATTRIBUTE_T)`. -/
def attributeSize : Nat := attributeHeadSize + 8

/-- `tuya_parse_user_attrs`, each of its loops in at most `fuel` rounds. -/
def tuyaParseUserAttrs (malloc : Nat → Bool) (fuel : Nat) (deBuf : Bytes) (attrLen : Nat) :
    Option (Except AttrFault AiParseResult) :=
  match tuyaAiGetAttrNum fuel deBuf attrLen with
  | none => none
  | some (.error f) => some (.error f)
  | some (.ok num) =>
    if malloc (num * attributeSize) then parseUserAttrsLoop deBuf attrLen num fuel 0 []
    else some (.ok ⟨oprtMallocFailed, [], 0⟩)

/-! ### The two encoders -/

section Pack

variable {size : Nat} {acc : Bytes} {a : AiAttribute} {attrs : List AiAttribute}

theorem putBytes_of_le {xs : Bytes} (h : acc.length + xs.length ≤ size) :
    putBytes size acc xs = .ok (acc ++ xs) := if_pos h

theorem putBytes_bind_putBytes (size : Nat) (acc xs ys : Bytes) :
    (putBytes size acc xs >>= fun acc => putBytes size acc ys) =
      putBytes size acc (xs ++ ys) := by
  by_cases hxs : acc.length + xs.length ≤ size
  · rw [putBytes_of_le hxs]
    show putBytes size (acc ++ xs) ys = _
    rw [putBytes, putBytes, List.length_append, List.length_append, Nat.add_assoc,
      List.append_assoc]
  · have hfirst : putBytes size acc xs = .error (.fault .payloadBuffer) := if_neg hxs
    have hboth : putBytes size acc (xs ++ ys) = .error (.fault .payloadBuffer) := by
      refine if_neg fun h => hxs ?_
      rw [List.length_append] at h
      omega
    rw [hfirst, hboth]
    rfl

theorem beBytes_mod (k n : Nat) : beBytes k (n % 256 ^ k) = beBytes k n := by
  have hback := beBytes_beNat (beBytes k n)
  rwa [length_beBytes, beNat_beBytes] at hback

theorem userValueBytes_eq (a : AiAttribute) : userValueBytes a = a.valueBytes := by
  have hword : a.scalar.toNat % 65536 < 65536 := Nat.mod_lt _ (by decide)
  have hdword : a.scalar.toNat % 4294967296 < 4294967296 := Nat.mod_lt _ (by decide)
  have h2 : beBytes 2 (a.scalar.toNat % 65536) = _ := beBytes_mod 2 a.scalar.toNat
  have h4 : beBytes 4 (a.scalar.toNat % 4294967296) = _ := beBytes_mod 4 a.scalar.toNat
  rw [userValueBytes, AiAttribute.valueBytes, leBytes_wordSwap hword, leBytes_dwordSwap hdword,
    leBytes_ddwordSwap a.scalar.toNat_lt, h2, h4, ite_or]
  rfl

theorem packUserAttr_eq (size : Nat) (acc : Bytes) (a : AiAttribute) :
    packUserAttr size acc a = packAttr size acc a := by
  have hhead : a.headBytes = leBytes 2 (wordSwap a.type.toNat) ++ ([a.payloadType] ++
      leBytes 4 (dwordSwap a.length.toNat)) := by
    rw [leBytes_wordSwap a.type.toNat_lt, leBytes_dwordSwap a.length.toNat_lt]
    rfl
  rw [packUserAttr, packAttr, hhead, ← putBytes_bind_putBytes, userValueBytes_eq]
  simp only [bind_assoc, ← putBytes_bind_putBytes]

theorem packUserAttrs_eq (size : Nat) (acc : Bytes) (attrs : List AiAttribute) :
    packUserAttrs size acc attrs = packAttrs size acc attrs := by
  induction attrs generalizing acc with
  | nil => rfl
  | cons a attrs ih =>
    rw [packUserAttrs, packAttrs, packUserAttr_eq]
    exact congrArg _ (funext ih)

/-- An attribute of one of the payload types, with the memory that its value points to. -/
structure AiAttribute.Packable (a : AiAttribute) : Prop where
  vaild : aiCheckAttrVaild a = true
  known : a.payloadType ∈ [1, 2, 3, 4, 5, 6]
  readable : a.payloadType = 5 ∨ a.payloadType = 6 → a.length.toNat ≤ a.mem.length

def integerSize (payloadType : UInt8) : Option Nat :=
  if payloadType = 1 then some 1
  else if payloadType = 2 then some 2
  else if payloadType = 3 then some 4
  else if payloadType = 4 then some 8
  else none

theorem readValue_of_le {src : Bytes} {n : UInt32} (h : n.toNat ≤ src.length) :
    readValue src n = .ok (src.take n.toNat) := by
  rw [readValue, readSpan_of_le (by omega), slice_zero]

theorem AiAttribute.value_of_integerSize {k : Nat} (hk : integerSize a.payloadType = some k) :
    a.value = .integer (a.scalar.toNat % 256 ^ k) := by
  have hlt : a.scalar.toNat < 256 ^ 8 := a.scalar.toNat_lt
  rw [integerSize] at hk
  rw [AiAttribute.value]
  split_ifs at hk ⊢ with h1 h2 h3 h4
  all_goals obtain rfl := Option.some.inj hk
  · rfl
  · rfl
  · rfl
  · rw [Nat.mod_eq_of_lt hlt]

theorem AiAttribute.Packable.integer (h : a.Packable) {k : Nat}
    (hk : integerSize a.payloadType = some k) :
    a.length.toNat = k ∧ a.valueBytes = .ok (beBytes k a.scalar.toNat) := by
  have hwhole (n : UInt32) (src : Bytes) (hn : a.length = n) (hsrc : src.length = n.toNat) :
      a.length.toNat = n.toNat ∧ readValue src a.length = .ok src := by
    rw [readValue_of_le (by rw [hn, hsrc]), hn, ← hsrc, List.take_length]
    exact ⟨rfl, rfl⟩
  have hcheck := h.vaild
  rw [aiCheckAttrVaild] at hcheck
  rw [integerSize] at hk
  rw [AiAttribute.valueBytes]
  split_ifs at hcheck hk ⊢
  all_goals obtain rfl := Option.some.inj hk
  · have hone : a.length = 1 := of_decide_eq_true hcheck
    have hfirst : (beBytes 8 a.scalar.toNat).reverse.take 1 = beBytes 1 a.scalar.toNat := by
      rw [beBytes, List.reverse_append]
      rfl
    rw [hone, readValue_of_le (by simp)]
    exact ⟨rfl, congrArg _ hfirst⟩
  · exact hwhole 2 _ (of_decide_eq_true hcheck) (length_beBytes 2 _)
  · exact hwhole 4 _ (of_decide_eq_true hcheck) (length_beBytes 4 _)
  · exact hwhole 8 _ (of_decide_eq_true hcheck) (length_beBytes 8 _)

theorem integerSize_eq_none (hk : integerSize a.payloadType = none) :
    a.payloadType ≠ 1 ∧ a.payloadType ≠ 2 ∧ a.payloadType ≠ 3 ∧ a.payloadType ≠ 4 := by
  rw [integerSize] at hk
  split_ifs at hk with h1 h2 h3 h4
  exact ⟨h1, h2, h3, h4⟩

theorem AiAttribute.Packable.pointer (h : a.Packable) (hk : integerSize a.payloadType = none) :
    (a.payloadType = 5 ∨ a.payloadType = 6) ∧ a.length.toNat ≤ a.mem.length ∧
      a.valueBytes = .ok (a.mem.take a.length.toNat) ∧
        a.value = .bytes (a.mem.take a.length.toNat) := by
  obtain ⟨h1, h2, h3, h4⟩ := integerSize_eq_none hk
  have h56 : a.payloadType = 5 ∨ a.payloadType = 6 := by
    have hknown := h.known
    simpa [h1, h2, h3, h4] using hknown
  refine ⟨h56, h.readable h56, ?_, ?_⟩
  · rw [AiAttribute.valueBytes, if_neg h1, if_neg h2, if_neg h3, if_neg h4, if_pos h56,
      readValue_of_le (h.readable h56)]
  · rw [AiAttribute.value, if_neg h1, if_neg h2, if_neg h3, if_neg h4]

theorem AiAttribute.Packable.exists_valueBytes (h : a.Packable) :
    ∃ v, a.valueBytes = .ok v ∧ a.wire = a.headBytes ++ v ∧ v.length = a.length.toNat := by
  have hv : ∃ v, a.valueBytes = .ok v := by
    cases hk : integerSize a.payloadType with
    | some k => exact ⟨_, (h.integer hk).2⟩
    | none => exact ⟨_, (h.pointer hk).2.2.1⟩
  obtain ⟨v, hv⟩ := hv
  exact ⟨v, hv, by rw [AiAttribute.wire, hv], AiAttribute.length_valueBytes hv⟩

theorem AiAttribute.Packable.length_wire (h : a.Packable) :
    a.wire.length = attributeHeadSize + a.length.toNat := by
  obtain ⟨v, -, hwire, hlen⟩ := h.exists_valueBytes
  rw [hwire, List.length_append, a.length_headBytes, hlen]

theorem packAttrs_of_packable (h : ∀ a ∈ attrs, a.Packable)
    (hfit : acc.length + userAttrsLen attrs ≤ size) :
    packAttrs size acc attrs = .ok (acc ++ attrs.flatMap AiAttribute.wire) := by
  induction attrs generalizing acc with
  | nil => exact congrArg _ (List.append_nil acc).symm
  | cons a attrs ih =>
    have ha := h a List.mem_cons_self
    obtain ⟨v, hv, hwire, hlen⟩ := ha.exists_valueBytes
    have hsum : userAttrsLen (a :: attrs) = attributeHeadSize + a.length.toNat +
        userAttrsLen attrs := List.sum_cons
    have hround : packAttr size acc a = .ok (acc ++ a.wire) := by
      have hwirelen := ha.length_wire
      rw [packAttr, hv]
      show (putBytes size acc a.headBytes >>= fun acc => putBytes size acc v) = _
      rw [putBytes_bind_putBytes, ← hwire, putBytes_of_le (by omega)]
    have hwirelen := ha.length_wire
    rw [packAttrs, hround]
    show packAttrs size (acc ++ a.wire) attrs = _
    rw [ih (fun b hb => h b (List.mem_cons_of_mem _ hb))
      (by rw [List.length_append]; omega), List.flatMap_cons, List.append_assoc]

theorem length_le_userAttrsLen (attrs : List AiAttribute) : attrs.length ≤ userAttrsLen attrs := by
  induction attrs with
  | nil => exact Nat.le_refl 0
  | cons a attrs ih =>
    have hsum : userAttrsLen (a :: attrs) = attributeHeadSize + a.length.toNat +
        userAttrsLen attrs := List.sum_cons
    rw [attributeHeadSize] at hsum
    rw [List.length_cons]
    omega

theorem length_flatMap_wire (h : ∀ a ∈ attrs, a.Packable) :
    (attrs.flatMap AiAttribute.wire).length = userAttrsLen attrs := by
  rw [List.length_flatMap, userAttrsLen]
  exact congrArg List.sum (List.map_congr_left fun a ha => (h a ha).length_wire)

theorem tuyaPackUserAttrs_eq {malloc : Nat → Bool} (h : ∀ a ∈ attrs, a.Packable)
    (hlen : userAttrsLen attrs < 4294967296) (hmalloc : malloc (userAttrsLen attrs) = true) :
    tuyaPackUserAttrs malloc attrs = .ok (attrs.flatMap AiAttribute.wire) := by
  have hloop := @packAttrs_of_packable (userAttrsLen attrs) [] attrs h (Nat.zero_add _).le
  rw [tuyaPackUserAttrs, u32_of_lt hlen, if_pos hmalloc, packUserAttrs_eq, hloop]
  show Except.ok (([] ++ attrs.flatMap AiAttribute.wire) ++ _) = _
  rw [List.nil_append, length_flatMap_wire h, Nat.sub_self, List.replicate_zero, List.append_nil]

end Pack

/-! ### The two loops of the parser -/

section Parse

variable {deBuf : Bytes} {offset fuel num idx : Nat} {offsets : List Nat} {a : AiAttribute}
  {attrs : List AiAttribute}

def attrLength (deBuf : Bytes) (offset : Nat) : Nat := beNat (slice deBuf (u32 (offset + 3)) 4)

def nextOffset (deBuf : Bytes) (offset : Nat) : Nat :=
  u32 (offset + attributeHeadSize + attrLength deBuf offset)

theorem u32_u32_add (m n : Nat) : u32 (u32 m + n) = u32 (m + n) := by
  rw [u32, u32, u32, Nat.mod_add_mod]

theorem u32_head (offset : Nat) :
    u32 (u32 (offset + 2) + 1) = u32 (offset + 3) ∧
      u32 (u32 (u32 (offset + 2) + 1) + 4) = u32 (offset + attributeHeadSize) := by
  rw [u32_u32_add, u32_u32_add]
  exact ⟨rfl, rfl⟩

theorem u32_next (offset : Nat) (deBuf : Bytes) :
    u32 (u32 (offset + attributeHeadSize) + attrLength deBuf offset) = nextOffset deBuf offset :=
  u32_u32_add _ _

theorem readSpan_attrLength (hhead : u32 (offset + 3) + 4 ≤ deBuf.length) :
    ∃ length, readSpan deBuf (u32 (offset + 3)) 4 = some length ∧
      dwordSwap (leNat length) = attrLength deBuf offset :=
  ⟨_, readSpan_of_le hhead, dwordSwap_leNat (length_slice hhead)⟩

/-- The offsets of the attributes from a given one on, with the lengths of all of them inside the
buffer. -/
inductive Walk (deBuf : Bytes) : Nat → List Nat → Prop
  | done {offset : Nat} (hend : deBuf.length ≤ offset) : Walk deBuf offset []
  | step {offset : Nat} {offsets : List Nat} (hlt : offset < deBuf.length)
      (hhead : u32 (offset + 3) + 4 ≤ deBuf.length)
      (hrest : Walk deBuf (nextOffset deBuf offset) offsets) : Walk deBuf offset (offset :: offsets)

theorem getAttrNumLoop_succ (hlt : offset < deBuf.length)
    (hhead : u32 (offset + 3) + 4 ≤ deBuf.length) :
    getAttrNumLoop deBuf deBuf.length (fuel + 1) offset idx =
      getAttrNumLoop deBuf deBuf.length fuel (nextOffset deBuf offset) (u32 (idx + 1)) := by
  obtain ⟨length, hread, hlength⟩ := readSpan_attrLength hhead
  obtain ⟨h3, h7⟩ := u32_head offset
  rw [getAttrNumLoop, if_pos hlt]
  dsimp only
  rw [h7, h3, hread]
  dsimp only
  rw [hlength, u32_next]

theorem getAttrNumLoop_of_walk (h : Walk deBuf offset offsets) (hfuel : offsets.length < fuel)
    (hidx : idx + offsets.length < 4294967296) :
    getAttrNumLoop deBuf deBuf.length fuel offset idx = some (.ok (idx + offsets.length)) := by
  induction h generalizing fuel idx with
  | done hend =>
    obtain ⟨fuel, rfl⟩ := Nat.exists_eq_succ_of_ne_zero (Nat.ne_of_gt hfuel)
    rw [Nat.succ_eq_add_one, getAttrNumLoop, if_neg (Nat.not_lt.mpr hend)]
    rfl
  | step hlt hhead hrest ih =>
    rw [List.length_cons] at hfuel hidx
    obtain ⟨fuel, rfl⟩ := Nat.exists_eq_add_of_lt (Nat.lt_of_le_of_lt (Nat.zero_le _) hfuel)
    rw [Nat.zero_add, getAttrNumLoop_succ hlt hhead, u32_of_lt (by omega),
      ih (by omega) (by omega), List.length_cons, Nat.add_assoc, Nat.add_comm 1]

/-! ### Parsing what has been packed -/

theorem copyInteger_of_slice {v : Bytes} {k : Nat} (hslice : slice deBuf offset k = v)
    (hle : offset + k ≤ deBuf.length) :
    copyInteger deBuf k offset k = .ok (leNat v) := by
  rw [copyInteger, if_neg (Nat.lt_irrefl k), readSpan_of_le hle, hslice]
  dsimp only
  rw [leNat_append_zeros]

theorem AiAttribute.Packable.readAttrValue (h : a.Packable) {v : Bytes}
    (hv : a.valueBytes = .ok v) (hslice : slice deBuf offset a.length.toNat = v)
    (hle : offset + a.length.toNat ≤ deBuf.length) :
    ∃ scalar mem, readAttrValue deBuf offset a.payloadType a.length.toNat = .ok (scalar, mem) ∧
      ({ a with scalar := UInt64.ofNat scalar, mem := mem } : AiAttribute).value = a.value := by
  cases hk : integerSize a.payloadType with
  | none =>
    obtain ⟨h56, -, hbytes, hvalue⟩ := h.pointer hk
    obtain ⟨h1, h2, h3, h4⟩ := integerSize_eq_none hk
    have hv' : a.mem.take a.length.toNat = v := Except.ok.inj (hbytes.symm.trans hv)
    refine ⟨0, deBuf.drop offset, ?_, ?_⟩
    · rw [AiProtocol.readAttrValue, if_neg h1, if_neg h2, if_neg h3, if_neg h4]
      split_ifs with h5 h6
      · rfl
      · rfl
      · exact absurd h56 (not_or.mpr ⟨h5, h6⟩)
    · rw [hvalue, hv', AiAttribute.value, if_neg h1, if_neg h2, if_neg h3, if_neg h4]
      exact congrArg _ hslice
  | some k =>
    obtain ⟨hlen, hbytes⟩ := h.integer hk
    have hv' : beBytes k a.scalar.toNat = v := Except.ok.inj (hbytes.symm.trans hv)
    have hvk : v.length = k := by rw [← hv', length_beBytes]
    rw [hlen] at hslice hle ⊢
    have hcopy := copyInteger_of_slice hslice hle
    refine ⟨a.scalar.toNat % 256 ^ k, [], ?_, ?_⟩
    · rw [← beNat_beBytes, hv', AiProtocol.readAttrValue]
      rw [integerSize] at hk
      split_ifs at hk ⊢
      all_goals obtain rfl := Option.some.inj hk
      · have hsame : leNat v = beNat v := by
          obtain ⟨b, rfl⟩ := List.length_eq_one_iff.mp hvk
          rfl
        rw [hcopy, hsame]
        rfl
      · rw [hcopy, ← wordSwap_leNat hvk]
        rfl
      · rw [hcopy, ← dwordSwap_leNat hvk]
        rfl
      · rw [hcopy, ← ddwordSwap_leNat hvk]
        rfl
    · have hlt : a.scalar.toNat % 256 ^ k < 2 ^ 64 :=
        Nat.lt_of_le_of_lt (Nat.mod_le _ _) a.scalar.toNat_lt
      have hnew : integerSize ({ a with
        scalar := UInt64.ofNat (a.scalar.toNat % 256 ^ k),
        mem := [] } : AiAttribute).payloadType = some k := hk
      rw [AiAttribute.value_of_integerSize hk, AiAttribute.value_of_integerSize hnew,
        UInt64.toNat_ofNat_of_lt' hlt, Nat.mod_mod]

theorem AiAttribute.Packable.slices (h : a.Packable) {pre rest : Bytes}
    (hbuf : deBuf = pre ++ (a.wire ++ rest)) :
    slice deBuf pre.length 2 = beBytes 2 a.type.toNat ∧
      slice deBuf (pre.length + 2) 1 = [a.payloadType] ∧
      slice deBuf (pre.length + 3) 4 = beBytes 4 a.length.toNat ∧
      ∃ v, a.valueBytes = .ok v ∧ slice deBuf (pre.length + 7) a.length.toNat = v := by
  obtain ⟨v, hv, hwire, hvlen⟩ := h.exists_valueBytes
  have hparts : deBuf = pre ++ (beBytes 2 a.type.toNat ++ (a.payloadType ::
      (beBytes 4 a.length.toNat ++ (v ++ rest)))) := by
    rw [hbuf, hwire, AiAttribute.headBytes]
    simp only [List.append_assoc, List.cons_append]
  refine ⟨?_, ?_, ?_, v, hv, ?_⟩
  · exact slice_eq_of_append pre _ hparts rfl (length_beBytes 2 _)
  · exact slice_eq_of_append (pre ++ beBytes 2 a.type.toNat)
      (beBytes 4 a.length.toNat ++ (v ++ rest)) (by rw [hparts]; simp) (by simp) rfl
  · exact slice_eq_of_append (pre ++ beBytes 2 a.type.toNat ++ [a.payloadType]) (v ++ rest)
      (by rw [hparts]; simp) (by simp) (length_beBytes 4 _)
  · exact slice_eq_of_append (pre ++ a.headBytes) rest (by rw [hbuf, hwire]; simp)
      (by rw [List.length_append, a.length_headBytes, attributeHeadSize]) hvlen

theorem getAttrValue_wire (h : a.Packable) {pre rest : Bytes}
    (hbuf : deBuf = pre ++ (a.wire ++ rest)) (hlt : deBuf.length < 4294967296) :
    ∃ b, tuyaAiGetAttrValue deBuf pre.length = .ok (b, pre.length + a.wire.length) ∧
      b.fields = a.fields := by
  obtain ⟨htype, hpayload, hlength, v, hv, hvalue⟩ := h.slices hbuf
  have hwirelen := h.length_wire
  rw [attributeHeadSize] at hwirelen
  have htotal : deBuf.length = pre.length + (a.wire.length + rest.length) := by
    rw [hbuf, List.length_append, List.length_append]
  obtain ⟨scalar, mem, hread, hsame⟩ := h.readAttrValue hv hvalue (by omega)
  have hlengthback : dwordSwap (leNat (beBytes 4 a.length.toNat)) = a.length.toNat := by
    rw [dwordSwap_leNat (length_beBytes 4 _), beNat_beBytes_of_lt a.length.toNat_lt]
  have htypeback : wordSwap (leNat (beBytes 2 a.type.toNat)) = a.type.toNat := by
    rw [wordSwap_leNat (length_beBytes 2 _), beNat_beBytes_of_lt a.type.toNat_lt]
  have hcheck : aiCheckAttrVaild { a with scalar := UInt64.ofNat scalar, mem := mem } = true :=
    h.vaild
  rw [tuyaAiGetAttrValue, readSpan_of_le (by omega), htype]
  dsimp only
  rw [u32_of_lt (show pre.length + 2 < 4294967296 by omega), readSpan_of_le (by omega), hpayload]
  dsimp only
  rw [u32_of_lt (show pre.length + 2 + 1 < 4294967296 by omega), readSpan_of_le (by omega), hlength]
  dsimp only
  rw [u32_of_lt (show pre.length + 2 + 1 + 4 < 4294967296 by omega), hlengthback, htypeback,
    UInt16.ofNat_toNat, UInt32.ofNat_toNat]
  rw [show [a.payloadType].getD 0 0 = a.payloadType from rfl, hread]
  dsimp only
  rw [if_pos hcheck, u32_of_lt (by omega), hwirelen]
  refine ⟨_, by rw [← Nat.add_assoc], ?_⟩
  rw [AiAttribute.fields, hsame]
  rfl

theorem nextOffset_wire (h : a.Packable) {pre rest : Bytes}
    (hbuf : deBuf = pre ++ (a.wire ++ rest)) (hlt : deBuf.length < 4294967296) :
    u32 (pre.length + 3) + 4 ≤ deBuf.length ∧
      nextOffset deBuf pre.length = (pre ++ a.wire).length := by
  obtain ⟨-, -, hlength, -⟩ := h.slices hbuf
  have hwirelen := h.length_wire
  rw [attributeHeadSize] at hwirelen
  have htotal : deBuf.length = pre.length + (a.wire.length + rest.length) := by
    rw [hbuf, List.length_append, List.length_append]
  rw [nextOffset, attrLength, u32_of_lt (by omega), hlength,
    beNat_beBytes_of_lt a.length.toNat_lt, attributeHeadSize, u32_of_lt (by omega),
    List.length_append]
  omega

theorem exists_walk_wire (h : ∀ a ∈ attrs, a.Packable) {pre : Bytes}
    (hbuf : deBuf = pre ++ attrs.flatMap AiAttribute.wire) (hlt : deBuf.length < 4294967296) :
    ∃ offsets, Walk deBuf pre.length offsets ∧ offsets.length = attrs.length := by
  induction attrs generalizing pre with
  | nil => exact ⟨[], .done (by rw [hbuf]; simp), rfl⟩
  | cons a attrs ih =>
    have ha := h a List.mem_cons_self
    rw [List.flatMap_cons] at hbuf
    obtain ⟨hhead, hnext⟩ := nextOffset_wire ha hbuf hlt
    obtain ⟨offsets, hwalk, hlen⟩ := @ih (fun b hb => h b (List.mem_cons_of_mem _ hb))
      (pre ++ a.wire) (by rw [hbuf, List.append_assoc])
    have hhere : pre.length < deBuf.length := by
      have hwirelen := ha.length_wire
      rw [attributeHeadSize] at hwirelen
      rw [hbuf, List.length_append, List.length_append]
      omega
    rw [← hnext] at hwalk
    exact ⟨_, .step hhere hhead hwalk, by rw [List.length_cons, List.length_cons, hlen]⟩

theorem parseUserAttrsLoop_wire (h : ∀ a ∈ attrs, a.Packable) {pre : Bytes}
    (hbuf : deBuf = pre ++ attrs.flatMap AiAttribute.wire) (hlt : deBuf.length < 4294967296)
    {got : List AiAttribute} (hnum : got.length + attrs.length = num)
    (hfuel : attrs.length < fuel) :
    ∃ parsed, parseUserAttrsLoop deBuf deBuf.length num fuel pre.length got =
        some (.ok ⟨oprtOk, got ++ parsed, num⟩) ∧
      parsed.map AiAttribute.fields = attrs.map AiAttribute.fields := by
  obtain ⟨fuel, rfl⟩ := Nat.exists_eq_succ_of_ne_zero (Nat.ne_zero_of_lt hfuel)
  induction attrs generalizing pre got fuel with
  | nil =>
    have hend : ¬pre.length < deBuf.length := by
      rw [hbuf]
      simp
    refine ⟨[], ?_, rfl⟩
    rw [parseUserAttrsLoop, if_neg hend, List.append_nil]
  | cons a attrs ih =>
    have ha := h a List.mem_cons_self
    rw [List.flatMap_cons] at hbuf
    rw [List.length_cons] at hnum hfuel
    obtain ⟨b, hget, hfields⟩ := getAttrValue_wire ha hbuf hlt
    have hhere : pre.length < deBuf.length := by
      have hwirelen := ha.length_wire
      rw [attributeHeadSize] at hwirelen
      rw [hbuf, List.length_append, List.length_append]
      omega
    obtain ⟨fuel, rfl⟩ := Nat.exists_eq_succ_of_ne_zero (show fuel ≠ 0 by omega)
    obtain ⟨parsed, hloop, hparsed⟩ := @ih (fun b hb => h b (List.mem_cons_of_mem _ hb))
      (pre ++ a.wire) (by rw [hbuf, List.append_assoc]) (got ++ [b])
      (by rw [List.length_append, List.length_singleton]; omega) fuel (by omega)
    refine ⟨b :: parsed, ?_, by rw [List.map_cons, List.map_cons, hfields, hparsed]⟩
    rw [parseUserAttrsLoop, if_pos hhere, if_pos (by omega), hget]
    dsimp only
    rw [← List.length_append, hloop, List.append_assoc]
    rfl

end Parse

/-! ### The round trip -/

section RoundTrip

variable {env : AiEnv} {attrs : List AiAttribute} {out : Bytes}

theorem tuyaParseUserAttrs_wire {malloc : Nat → Bool} {fuel : Nat} (h : ∀ a ∈ attrs, a.Packable)
    (hout : out = attrs.flatMap AiAttribute.wire) (hlt : out.length < 4294967296)
    (hmalloc : malloc (attrs.length * attributeSize) = true) (hfuel : attrs.length < fuel) :
    ∃ r, tuyaParseUserAttrs malloc fuel out out.length = some (.ok r) ∧ r.rt = oprtOk ∧
      r.attrOut.map AiAttribute.fields = attrs.map AiAttribute.fields ∧
        r.attrNum = attrs.length := by
  obtain ⟨offsets, hwalk, hlen⟩ := @exists_walk_wire out attrs h [] hout hlt
  have hcount := length_le_userAttrsLen attrs
  rw [← length_flatMap_wire h, ← hout] at hcount
  have hnum := getAttrNumLoop_of_walk hwalk (hlen ▸ hfuel) (by omega : 0 + offsets.length < _)
  obtain ⟨parsed, hloop, hparsed⟩ := @parseUserAttrsLoop_wire out fuel attrs.length attrs h [] hout
    hlt [] (Nat.zero_add _) hfuel
  rw [Nat.zero_add, hlen] at hnum
  refine ⟨⟨oprtOk, parsed, attrs.length⟩, ?_, rfl, hparsed, rfl⟩
  rw [List.length_nil] at hnum hloop
  rw [tuyaParseUserAttrs, tuyaAiGetAttrNum, hnum]
  dsimp only
  rw [if_pos hmalloc]
  exact hloop

theorem packAttrBlock_packable {size : Nat} {acc : Bytes} (h : ∀ a ∈ attrs, a.Packable)
    (hlt : attrTotal attrs < 4294967296) (hfit : acc.length + attrTotal attrs ≤ size) :
    packAttrBlock size acc attrs = .ok (acc ++ attrBlock attrs) ∧
      (attrBlock attrs).length = attrTotal attrs := by
  by_cases hnil : attrs = []
  · rw [packAttrBlock, if_pos hnil, attrBlock, if_pos hnil, attrTotal, if_pos hnil, List.append_nil]
    exact ⟨rfl, rfl⟩
  · have htotal : attrTotal attrs = 4 + userAttrsLen attrs := if_neg hnil
    have hlen := length_flatMap_wire h
    have hfield : u32Sub (aiGetSendAttrLen attrs) 4 = userAttrsLen attrs := by
      rw [aiGetSendAttrLen, u32_of_lt hlt, u32Sub_of_le hlt (by omega)]
      omega
    rw [packAttrBlock, if_neg hnil, attrBlock, if_neg hnil, hfield, hlen, List.length_append,
      length_beBytes, hlen, htotal]
    refine ⟨?_, rfl⟩
    rw [putBytes_of_le (by rw [length_beBytes]; omega)]
    show packAttrs size _ attrs = _
    rw [packAttrs_of_packable h (by rw [List.length_append, length_beBytes]; omega),
      List.append_assoc]

theorem aiPackPayload_packable {p : AiBasicProto} {info : AiSendPacket} {data : Bytes}
    {frag : AiFragFlag} {originLen : Nat} (h : ∀ a ∈ info.attrs, a.Packable)
    (hneed : tuyaAiIsNeedAttr frag = true)
    (hlt : 5 + attrTotal info.attrs + data.length < 4294967296)
    (hmalloc : env.malloc (5 + attrTotal info.attrs + data.length) = true) :
    aiPackPayload env p info data frag originLen =
      aiEncryptPacket env p info.type
        (payloadHead info :: (attrBlock info.attrs ++ beBytes 4 originLen ++ data)) := by
  have hattr : aiGetSendAttrLen info.attrs = attrTotal info.attrs := u32_of_lt (by omega)
  have hsize : aiGetSendPayloadLen info.attrs data.length frag =
      5 + attrTotal info.attrs + data.length := by
    rw [aiGetSendPayloadLen, if_pos hneed, hattr, payloadHeadSize, u32_of_lt (by omega)]
    omega
  set size := 5 + attrTotal info.attrs + data.length with hsizedef
  obtain ⟨hblock, hblocklen⟩ := @packAttrBlock_packable info.attrs size [payloadHead info] h
    (by omega) (by rw [List.length_singleton]; omega)
  have hfront : packPrefix size info frag originLen =
      .ok (payloadHead info :: (attrBlock info.attrs ++ beBytes 4 originLen)) := by
    rw [packPrefix, if_pos hneed, putBytes_of_le (by rw [List.length_singleton]; simp; omega)]
    show (packAttrBlock size [payloadHead info] info.attrs >>= _) = _
    rw [hblock]
    show putBytes size ([payloadHead info] ++ attrBlock info.attrs) (beBytes 4 originLen) = _
    rw [putBytes_of_le (by
      rw [List.length_append, List.length_singleton, length_beBytes, hblocklen]; omega),
      List.append_assoc]
    rfl
  have hwhole : (payloadHead info :: (attrBlock info.attrs ++ beBytes 4 originLen)).length +
      data.length = size := by
    rw [List.length_cons, List.length_append, length_beBytes, hblocklen]
    omega
  rw [aiPackPayload, hsize, if_pos hmalloc, hfront]
  show (putBytes size _ data >>= _) = _
  rw [putBytes_of_le hwhole.le]
  show aiEncryptPacket env p info.type (_ ++ _) = _
  rw [List.length_append, hwhole, Nat.sub_self, List.replicate_zero, List.append_nil,
    List.cons_append]

/-- **Round trip.** Attributes that pass the check and have one of the six payload types are parsed
from what they have been packed to, and `__ai_pack_payload` writes the same bytes, behind their
length, between payload head and length of the data. -/
theorem parse_pack_userAttrs (h : ∀ a ∈ attrs, a.Packable)
    (hlen : userAttrsLen attrs < 4294967296) (hout : env.malloc (userAttrsLen attrs) = true)
    (hin : env.malloc (attrs.length * attributeSize) = true) :
    ∃ out, tuyaPackUserAttrs env.malloc attrs = .ok out ∧
      (∀ fuel, attrs.length < fuel →
        ∃ r, tuyaParseUserAttrs env.malloc fuel out out.length = some (.ok r) ∧ r.rt = oprtOk ∧
          r.attrOut.map AiAttribute.fields = attrs.map AiAttribute.fields ∧
            r.attrNum = attrs.length) ∧
      ∀ (p : AiBasicProto) (info : AiSendPacket) (data : Bytes) (frag : AiFragFlag)
        (originLen : Nat), info.attrs = attrs → tuyaAiIsNeedAttr frag = true →
        5 + attrTotal attrs + data.length < 4294967296 →
        env.malloc (5 + attrTotal attrs + data.length) = true →
        aiPackPayload env p info data frag originLen =
          aiEncryptPacket env p info.type (payloadHead info ::
            ((if attrs = [] then [] else beBytes 4 out.length ++ out) ++ beBytes 4 originLen ++
              data)) := by
  refine ⟨_, tuyaPackUserAttrs_eq h hlen hout, fun fuel hfuel => ?_, ?_⟩
  · exact tuyaParseUserAttrs_wire h rfl (by rwa [length_flatMap_wire h]) hin hfuel
  · rintro p info data frag originLen rfl hneed hlt hmalloc
    exact aiPackPayload_packable h hneed hlt hmalloc

def sampleAttrs : List AiAttribute :=
  [⟨11, 1, 1, 5, []⟩, ⟨24, 2, 2, 200, []⟩, ⟨41, 3, 4, 65537, []⟩,
    ⟨62, 4, 8, 0x0102030405060708, []⟩, ⟨43, 6, 2, 0, [0x68, 0x69, 0]⟩]

theorem parse_pack_userAttrs_sampleAttrs :
    ∃ out, tuyaPackUserAttrs sampleEnv.malloc sampleAttrs = .ok out ∧
      ∃ r, tuyaParseUserAttrs sampleEnv.malloc 6 out out.length = some (.ok r) ∧ r.rt = oprtOk ∧
        r.attrOut.map AiAttribute.fields = sampleAttrs.map AiAttribute.fields ∧ r.attrNum = 5 := by
  have hpackable : ∀ a ∈ sampleAttrs, a.Packable := by
    simp only [sampleAttrs, List.forall_mem_cons]
    exact ⟨⟨by decide, by decide, by decide⟩, ⟨by decide, by decide, by decide⟩,
      ⟨by decide, by decide, by decide⟩, ⟨by decide, by decide, by decide⟩,
      ⟨by decide, by decide, by decide⟩, by rintro a ⟨⟩⟩
  obtain ⟨out, hout, hparse, -⟩ := @parse_pack_userAttrs sampleEnv sampleAttrs hpackable (by decide)
    rfl rfl
  exact ⟨out, hout, hparse 6 (by decide)⟩

/-- The check passes an attribute of a payload type that is not one of the six, and
`tuya_pack_user_attrs` refuses it. -/
theorem exists_vaild_not_packed :
    ¬∀ (malloc : Nat → Bool) (attrs : List AiAttribute),
      (∀ a ∈ attrs, aiCheckAttrVaild a = true) → (∀ a ∈ attrs, a.length.toNat ≤ a.mem.length) →
        userAttrsLen attrs < 4294967296 → (∀ n, malloc n = true) →
          ∃ out, tuyaPackUserAttrs malloc attrs = .ok out := by
  intro h
  obtain ⟨out, hout⟩ := h (fun _ => true) [⟨41, 7, 0, 0, []⟩] (by decide) (by decide) (by decide)
    fun _ => rfl
  have herror : tuyaPackUserAttrs (fun _ => true) [⟨41, 7, 0, 0, []⟩] =
      .error (.err ⟨oprtComError, oprtComError_ne_ok⟩) := by decide +kernel
  rw [herror] at hout
  cases hout

end RoundTrip

end TuyaOpen.AiProtocol
