import TuyaOpen.AiProtocol.Codec

/-!
# Sending packets

`__ai_pack_payload`, `__ai_packet_write` and `tuya_ai_basic_pkt_send`: a packet that fits into
`AI_MAX_FRAGMENT_LENGTH` is sent in one piece, any other in fragments, the first of which carries
the payload head, the attributes and the length of all the data.
-/

namespace TuyaOpen.AiProtocol

/-! ### Sizes -/

/-- `tuya_ai_is_need_attr`. -/
def tuyaAiIsNeedAttr (frag : AiFragFlag) : Bool := frag = .noFrag || frag = .fragStart

/-- `__ai_is_need_iv`. -/
def aiIsNeedIv (type : UInt8) (frag : AiFragFlag) : Bool :=
  !(type = aiPtClientHello || frag = .fragIng || frag = .fragEnd)

def attrTotal (attrs : List AiAttribute) : Nat :=
  if attrs = [] then 0 else 4 + (attrs.map fun a => attributeHeadSize + a.length.toNat).sum

/-- `__ai_get_send_attr_len`. -/
def aiGetSendAttrLen (attrs : List AiAttribute) : Nat := u32 (attrTotal attrs)

/-- `__ai_get_send_payload_len`, for `len` bytes of data. -/
def aiGetSendPayloadLen (attrs : List AiAttribute) (len : Nat) (frag : AiFragFlag) : Nat :=
  u32 ((if tuyaAiIsNeedAttr frag then payloadHeadSize + aiGetSendAttrLen attrs + 4 else 0) + len)

/-- `__ai_get_send_pkt_len`, for `len` bytes of data. -/
def aiGetSendPktLen (cfg : AiConfig) (info : AiSendPacket) (len : Nat) (frag : AiFragFlag) : Nat :=
  u32 (packetHeadSize + ivSize (aiIsNeedIv info.type frag) + 4 +
    aiGetSendPayloadLen info.attrs len frag + aiSignLen +
      if aiGetSl cfg info.type = .sl0 then 0 else aiAddPktLen)

/-! ### Payloads -/

/-- The first `length` bytes of the memory that an attribute's value is copied from. -/
def readValue (src : Bytes) (length : UInt32) : Except AiStop Bytes :=
  match readSpan src 0 length.toNat with
  | none => .error (.fault .attrValue)
  | some v => .ok v

/-- The value bytes of an attribute in `__ai_pack_payload`. For `ATTR_PT_U8` they are copied from
the union itself, the other integers are first converted to network order. -/
def AiAttribute.valueBytes (a : AiAttribute) : Except AiStop Bytes :=
  if a.payloadType = 1 then readValue (beBytes 8 a.scalar.toNat).reverse a.length
  else if a.payloadType = 2 then readValue (beBytes 2 a.scalar.toNat) a.length
  else if a.payloadType = 3 then readValue (beBytes 4 a.scalar.toNat) a.length
  else if a.payloadType = 4 then readValue (beBytes 8 a.scalar.toNat) a.length
  else if a.payloadType = 5 ∨ a.payloadType = 6 then readValue a.mem a.length
  else .error (.err ⟨oprtComError, oprtComError_ne_ok⟩)

def AiAttribute.headBytes (a : AiAttribute) : Bytes :=
  beBytes 2 a.type.toNat ++ a.payloadType :: beBytes 4 a.length.toNat

/-- A copy behind the bytes `acc` that have already been written to a buffer of `size` bytes. -/
def putBytes (size : Nat) (acc src : Bytes) : Except AiStop Bytes :=
  if acc.length + src.length ≤ size then .ok (acc ++ src) else .error (.fault .payloadBuffer)

/-- One round of the attribute loop of `__ai_pack_payload`. -/
def packAttr (size : Nat) (acc : Bytes) (a : AiAttribute) : Except AiStop Bytes := do
  let acc ← putBytes size acc a.headBytes
  let value ← a.valueBytes
  putBytes size acc value

/-- The attribute loop of `__ai_pack_payload`. -/
def packAttrs (size : Nat) : Bytes → List AiAttribute → Except AiStop Bytes
  | acc, [] => .ok acc
  | acc, a :: attrs => do
    let acc ← packAttr size acc a
    packAttrs size acc attrs

/-- The byte of an `AI_PAYLOAD_HEAD_T`: `attribute_flag` in its low bit and 7 bits of `type`. -/
def payloadHead (info : AiSendPacket) : UInt8 :=
  UInt8.ofNat ((if info.attrs = [] then 0 else 1) + 2 * (info.type.toNat % 128))

/-- The attribute block of `__ai_pack_payload`, behind `acc`. -/
def packAttrBlock (size : Nat) (acc : Bytes) (attrs : List AiAttribute) : Except AiStop Bytes :=
  if attrs = [] then .ok acc
  else do
    let acc ← putBytes size acc (beBytes 4 (u32Sub (aiGetSendAttrLen attrs) 4))
    packAttrs size acc attrs

/-- The part of `__ai_pack_payload` in front of the data: payload head, attributes and
`origin_len`, for the packets that have them. -/
def packPrefix (size : Nat) (info : AiSendPacket) (frag : AiFragFlag) (originLen : Nat) :
    Except AiStop Bytes :=
  if tuyaAiIsNeedAttr frag then do
    let acc ← putBytes size [] [payloadHead info]
    let acc ← packAttrBlock size acc info.attrs
    putBytes size acc (beBytes 4 originLen)
  else .ok []

/-- `__ai_pack_payload`, for the data `data` of the packet `info`. -/
def aiPackPayload (env : AiEnv) (p : AiBasicProto) (info : AiSendPacket) (data : Bytes)
    (frag : AiFragFlag) (originLen : Nat) : Except AiStop (Bytes × AiBasicProto) :=
  let size := aiGetSendPayloadLen info.attrs data.length frag
  if env.malloc size then do
    let acc ← packPrefix size info frag originLen
    let acc ← putBytes size acc data
    aiEncryptPacket env p info.type (acc ++ List.replicate (size - acc.length) 0)
  else .error (.err ⟨oprtMallocFailed, by decide⟩)

/-! ### Writing one packet -/

/-- The result of a sending function: its return value, the new state and the byte strings that
were handed to `tuya_transporter_write`. -/
structure AiSendResult where
  rt : OperateRet
  proto : AiBasicProto
  sent : List Bytes
  deriving DecidableEq

/-- The `sequence` of the next packet: the counter starts again at 1 instead of reaching
`0xFFFF`. -/
def nextSequence (sequenceOut : Nat) : Nat := if 0xFFFF ≤ sequenceOut then 1 else sequenceOut

def unsignedPacket (cfg : AiConfig) (type : UInt8) (frag : AiFragFlag) (sequence : Nat)
    (iv payload : Bytes) : Bytes :=
  packetHead sequence (aiIsNeedIv type frag) (aiGetSl cfg type) frag ++
    (if aiIsNeedIv type frag then iv else []) ++ beBytes 4 (payload.length + aiSignLen) ++ payload

/-- The state in which `__ai_packet_write` packs its payload. -/
def takeSequence (p : AiBasicProto) : AiBasicProto :=
  { p with sequenceOut := nextSequence p.sequenceOut + 1 }

/-- The end of `__ai_packet_write`, when `pkt` is in `send_pkt_buf` of `size` bytes: the packet is
signed and written. -/
def signAndWrite (env : AiEnv) (p : AiBasicProto) (size : Nat) (pkt : Bytes) :
    Except MemFault AiSendResult :=
  if size < pkt.length + aiSignLen then .error .sendBuffer
  else
    match aiPacketSign env p (pkt ++ List.replicate (size - pkt.length) 0) with
    | .error (.fault f) => .error f
    | .error (.err rt) => .ok ⟨rt, p, []⟩
    | .ok sign =>
      if p.transporter then
        let rt := env.write (pkt ++ sign)
        .ok ⟨if rt = (pkt ++ sign).length then oprtOk else rt, p, [pkt ++ sign]⟩
      else .ok ⟨oprtOk, p, []⟩

/-- `__ai_packet_write`, for the data `data` of the packet `info`. -/
def aiPacketWrite (env : AiEnv) (p : AiBasicProto) (info : AiSendPacket) (data : Bytes)
    (frag : AiFragFlag) (originLen : Nat) : Except MemFault AiSendResult :=
  let size := aiGetSendPktLen env.cfg info data.length frag
  if env.cfg.maxFragmentLength < size then .ok ⟨oprtComError, takeSequence p, []⟩
  else if env.malloc size then
    match aiPackPayload env (takeSequence p) info data frag originLen with
    | .error (.fault f) => .error f
    | .error (.err rt) => .ok ⟨rt, takeSequence p, []⟩
    | .ok (payload, p') =>
      signAndWrite env p' size
        (unsignedPacket env.cfg info.type frag (nextSequence p.sequenceOut) p.encryptIv payload)
  else .ok ⟨oprtMallocFailed, takeSequence p, []⟩

/-! ### Sending a packet of any size -/

/-- `min_pkt_len`. -/
def minPktLen : Nat := packetHeadSize + 2 * aiAddPktLen

/-- `one_packet_len`: the most bytes of data that go into the fragment at `offset`. -/
def onePacketLen (cfg : AiConfig) (attrs : List AiAttribute) (offset : Nat) : Nat :=
  if offset = 0 then u32Sub (cfg.maxFragmentLength - minPktLen) (aiGetSendAttrLen attrs)
  else cfg.maxFragmentLength - minPktLen

/-- The fragment loop of `tuya_ai_basic_pkt_send` from `offset` on, with `sent` already sent. No
result within the given number of rounds is `none`. -/
def pktSendLoop (env : AiEnv) (info : AiSendPacket) :
    Nat → Nat → AiBasicProto → List Bytes → Option (Except MemFault AiSendResult)
  | 0, _, _, _ => none
  | fuel + 1, offset, p, sent =>
    if offset < info.data.length then
      let left := info.data.length - offset
      let fragLen := min left (onePacketLen env.cfg info.attrs offset)
      let frag : AiFragFlag :=
        if offset = 0 then .fragStart
        else if offset + fragLen = info.data.length then .fragEnd
        else .fragIng
      match aiPacketWrite env p info (slice info.data offset fragLen) frag info.data.length with
      | .error f => some (.error f)
      | .ok r =>
        if r.rt = oprtOk then pktSendLoop env info fuel (offset + fragLen) r.proto (sent ++ r.sent)
        else some (.ok { r with sent := sent ++ r.sent })
    else some (.ok ⟨oprtOk, p, sent⟩)

/-- `tuya_ai_basic_pkt_send`, its loop bounded by `fuel` rounds. -/
def tuyaAiBasicPktSend (env : AiEnv) (fuel : Nat) (p : AiBasicProto) (info : AiSendPacket) :
    Option (Except MemFault AiSendResult) :=
  if !p.connected then some (.ok ⟨oprtComError, p, []⟩)
  else if aiGetSendPktLen env.cfg info info.data.length .noFrag ≤ env.cfg.maxFragmentLength then
    some (aiPacketWrite env p info info.data .noFrag info.data.length)
  else pktSendLoop env info fuel 0 p []

/-! ### What is sent -/

def AiAttribute.wire (a : AiAttribute) : Bytes :=
  a.headBytes ++ match a.valueBytes with
    | .ok v => v
    | .error _ => []

def attrBlock (attrs : List AiAttribute) : Bytes :=
  if attrs = [] then []
  else beBytes 4 (attrs.flatMap AiAttribute.wire).length ++ attrs.flatMap AiAttribute.wire

/-- The payload of a packet before encryption: payload head, attribute block, length of all the
data, and data. The later fragments of a group have data only. -/
def fragImage (info : AiSendPacket) (data : Bytes) (frag : AiFragFlag) (originLen : Nat) : Bytes :=
  if tuyaAiIsNeedAttr frag then
    payloadHead info :: (attrBlock info.attrs ++ beBytes 4 originLen ++ data)
  else data

section Spec

variable {env : AiEnv} {p p' : AiBasicProto} {info : AiSendPacket} {data ct acc r : Bytes}
  {frag : AiFragFlag} {originLen size : Nat}

theorem putBytes_ok {src : Bytes} (h : putBytes size acc src = .ok r) :
    r = acc ++ src ∧ r.length ≤ size := by
  unfold putBytes at h
  split_ifs at h with hle
  obtain rfl := Except.ok.inj h
  exact ⟨rfl, by rwa [List.length_append]⟩

theorem length_readValue {src v : Bytes} {n : UInt32} (h : readValue src n = .ok v) :
    v.length = n.toNat := by
  unfold readValue at h
  split at h
  · cases h
  · next w hw =>
    obtain rfl := Except.ok.inj h
    unfold readSpan at hw
    split_ifs at hw with hle
    rw [← Option.some.inj hw, length_slice hle]

theorem AiAttribute.length_valueBytes {a : AiAttribute} {v : Bytes} (h : a.valueBytes = .ok v) :
    v.length = a.length.toNat := by
  unfold AiAttribute.valueBytes at h
  split_ifs at h
  all_goals exact length_readValue h

theorem AiAttribute.length_headBytes (a : AiAttribute) : a.headBytes.length = attributeHeadSize := by
  simp [AiAttribute.headBytes, attributeHeadSize]

theorem packAttr_ok {a : AiAttribute} (h : packAttr size acc a = .ok r) :
    r = acc ++ a.wire ∧ r.length ≤ size ∧ a.wire.length = attributeHeadSize + a.length.toNat := by
  obtain ⟨acc₁, h1, h⟩ := exists_of_bind_eq_ok h
  obtain ⟨v, hv, h⟩ := exists_of_bind_eq_ok h
  obtain ⟨rfl, -⟩ := putBytes_ok h1
  obtain ⟨rfl, hle⟩ := putBytes_ok h
  have hwire : a.wire = a.headBytes ++ v := by rw [AiAttribute.wire, hv]
  refine ⟨by rw [hwire, List.append_assoc], hle, ?_⟩
  rw [hwire, List.length_append, a.length_headBytes, AiAttribute.length_valueBytes hv]

theorem packAttrs_ok {attrs : List AiAttribute} (hacc : acc.length ≤ size)
    (h : packAttrs size acc attrs = .ok r) :
    r = acc ++ attrs.flatMap AiAttribute.wire ∧ r.length ≤ size ∧
      (attrs.flatMap AiAttribute.wire).length =
        (attrs.map fun a => attributeHeadSize + a.length.toNat).sum := by
  induction attrs generalizing acc with
  | nil =>
    obtain rfl := Except.ok.inj h
    simpa using hacc
  | cons a attrs ih =>
    obtain ⟨acc₁, h1, h⟩ := exists_of_bind_eq_ok h
    obtain ⟨rfl, hle₁, hlen⟩ := packAttr_ok h1
    obtain ⟨rfl, hle, hsum⟩ := ih hle₁ h
    refine ⟨by rw [List.flatMap_cons, List.append_assoc], hle, ?_⟩
    rw [List.flatMap_cons, List.length_append, List.map_cons, List.sum_cons, hlen, hsum]

theorem packAttrBlock_ok {attrs : List AiAttribute} (hsize : size < 4294967296)
    (hacc : acc.length ≤ size) (h : packAttrBlock size acc attrs = .ok r) :
    r = acc ++ attrBlock attrs ∧ r.length ≤ size ∧ (attrBlock attrs).length = attrTotal attrs := by
  unfold packAttrBlock at h
  by_cases hattrs : attrs = []
  · rw [if_pos hattrs] at h
    obtain rfl := Except.ok.inj h
    simpa [attrBlock, attrTotal, hattrs] using hacc
  · rw [if_neg hattrs] at h
    obtain ⟨acc₁, h1, h⟩ := exists_of_bind_eq_ok h
    obtain ⟨rfl, hle₁⟩ := putBytes_ok h1
    obtain ⟨rfl, hle, hsum⟩ := packAttrs_ok hle₁ h
    have htotal : attrTotal attrs = 4 + (attrs.flatMap AiAttribute.wire).length := by
      rw [attrTotal, if_neg hattrs, hsum]
    have hlt : attrTotal attrs < 4294967296 := by
      simp only [List.length_append, length_beBytes] at hle
      omega
    have hfield : u32Sub (aiGetSendAttrLen attrs) 4 = (attrs.flatMap AiAttribute.wire).length := by
      rw [aiGetSendAttrLen, u32_of_lt hlt, u32Sub_of_le hlt (by omega)]
      omega
    have hblock : attrBlock attrs = beBytes 4 (u32Sub (aiGetSendAttrLen attrs) 4) ++
        attrs.flatMap AiAttribute.wire := by
      rw [attrBlock, if_neg hattrs, hfield]
    refine ⟨by rw [hblock, List.append_assoc], hle, ?_⟩
    rw [hblock, List.length_append, length_beBytes, htotal]

theorem packPrefix_ok (hsize : size < 4294967296) (hneed : tuyaAiIsNeedAttr frag)
    (h : packPrefix size info frag originLen = .ok r) :
    r = payloadHead info :: (attrBlock info.attrs ++ beBytes 4 originLen) ∧
      (attrBlock info.attrs).length = attrTotal info.attrs := by
  rw [packPrefix, if_pos hneed] at h
  obtain ⟨acc₁, h1, h⟩ := exists_of_bind_eq_ok h
  obtain ⟨acc₂, h2, h⟩ := exists_of_bind_eq_ok h
  obtain ⟨rfl, hle₁⟩ := putBytes_ok h1
  obtain ⟨rfl, -, hblock⟩ := packAttrBlock_ok hsize hle₁ h2
  obtain ⟨rfl, -⟩ := putBytes_ok h
  refine ⟨?_, hblock⟩
  rw [List.nil_append, List.singleton_append, List.cons_append]

theorem fragImage_of_need (hneed : tuyaAiIsNeedAttr frag) :
    fragImage info data frag originLen =
      payloadHead info :: (attrBlock info.attrs ++ beBytes 4 originLen ++ data) := if_pos hneed

theorem fragImage_of_not_need (hneed : ¬tuyaAiIsNeedAttr frag) :
    fragImage info data frag originLen = data := if_neg hneed

theorem length_fragImage (hblock : (attrBlock info.attrs).length = attrTotal info.attrs)
    (hneed : tuyaAiIsNeedAttr frag) :
    (fragImage info data frag originLen).length = 5 + attrTotal info.attrs + data.length := by
  simp only [fragImage_of_need hneed, List.length_cons, List.length_append, length_beBytes, hblock]
  omega

theorem aiPackPayload_ok (h : aiPackPayload env p info data frag originLen = .ok (ct, p')) :
    aiEncryptPacket env p info.type (fragImage info data frag originLen) = .ok (ct, p') ∧
      aiGetSendPayloadLen info.attrs data.length frag =
        (fragImage info data frag originLen).length ∧
      (tuyaAiIsNeedAttr frag → (attrBlock info.attrs).length = attrTotal info.attrs) := by
  simp only [aiPackPayload] at h
  set size := aiGetSendPayloadLen info.attrs data.length frag with hsize
  have hlt : size < 4294967296 := u32_lt _
  split_ifs at h with hm
  obtain ⟨acc, hacc, h⟩ := exists_of_bind_eq_ok h
  obtain ⟨acc', hput, h⟩ := exists_of_bind_eq_ok h
  obtain ⟨rfl, hle⟩ := putBytes_ok hput
  -- Everything has been written into `size` bytes, which leaves no room for a wrapped size.
  have key : acc ++ data = fragImage info data frag originLen ∧
      size = (fragImage info data frag originLen).length ∧
        (tuyaAiIsNeedAttr frag → (attrBlock info.attrs).length = attrTotal info.attrs) := by
    by_cases hneed : tuyaAiIsNeedAttr frag = true
    · obtain ⟨rfl, hblock⟩ := packPrefix_ok hlt hneed hacc
      have himage : payloadHead info :: (attrBlock info.attrs ++ beBytes 4 originLen) ++ data =
          fragImage info data frag originLen := by
        rw [fragImage_of_need hneed, List.cons_append]
      rw [himage, length_fragImage hblock hneed] at hle
      refine ⟨himage, ?_, fun _ => hblock⟩
      have hattr : u32 (attrTotal info.attrs) = attrTotal info.attrs := u32_of_lt (by omega)
      rw [length_fragImage hblock hneed, hsize, aiGetSendPayloadLen, if_pos hneed,
        aiGetSendAttrLen, hattr, payloadHeadSize, u32_of_lt (by omega)]
      omega
    · rw [packPrefix, if_neg hneed] at hacc
      obtain rfl := Except.ok.inj hacc
      rw [List.nil_append] at hle
      refine ⟨by rw [fragImage_of_not_need hneed, List.nil_append], ?_, fun hn => absurd hn hneed⟩
      rw [fragImage_of_not_need hneed, hsize, aiGetSendPayloadLen, if_neg hneed, Nat.zero_add,
        u32_of_lt (by omega)]
  obtain ⟨himage, heq, hblock⟩ := key
  rw [himage, ← heq, Nat.sub_self, List.replicate_zero, List.append_nil] at h
  exact ⟨h, heq, hblock⟩

/-! ### The packet that a write hands to the transport -/

section UnsignedPacket

variable {cfg : AiConfig} {type : UInt8} {sequence : Nat} {iv payload : Bytes}

theorem headIvFlag_unsignedPacket (rest : Bytes) :
    headIvFlag (unsignedPacket cfg type frag sequence iv payload ++ rest) =
      aiIsNeedIv type frag := by
  simp only [unsignedPacket, List.append_assoc, headIvFlag_packetHead]

theorem headFragFlag_unsignedPacket (rest : Bytes) :
    headFragFlag (unsignedPacket cfg type frag sequence iv payload ++ rest) = frag := by
  simp only [unsignedPacket, List.append_assoc, headFragFlag_packetHead]

theorem headSequence_unsignedPacket (h : sequence < 65536) (rest : Bytes) :
    headSequence (unsignedPacket cfg type frag sequence iv payload ++ rest) = sequence := by
  simp only [unsignedPacket, List.append_assoc, headSequence_packetHead h]

theorem aiGetHeadLen_unsignedPacket (rest : Bytes) :
    aiGetHeadLen (unsignedPacket cfg type frag sequence iv payload ++ rest) =
      packetHeadSize + ivSize (aiIsNeedIv type frag) + 4 := by
  rw [aiGetHeadLen, headIvFlag_unsignedPacket]

theorem length_ite_iv (hiv : iv.length = aiIvLen) (b : Bool) :
    (if b then iv else []).length = ivSize b := by
  cases b
  · rfl
  · exact hiv

theorem length_unsignedPacket (hiv : iv.length = aiIvLen) :
    (unsignedPacket cfg type frag sequence iv payload).length =
      packetHeadSize + ivSize (aiIsNeedIv type frag) + 4 + payload.length := by
  simp only [unsignedPacket, List.length_append, length_packetHead, length_ite_iv hiv,
    length_beBytes]

theorem aiGetPacketLen_unsignedPacket (hiv : iv.length = aiIvLen)
    (h : payload.length + aiSignLen < 4294967296) (rest : Bytes) :
    aiGetPacketLen (unsignedPacket cfg type frag sequence iv payload ++ rest) =
      payload.length + aiSignLen := by
  have hpre : (packetHead sequence (aiIsNeedIv type frag) (aiGetSl cfg type) frag ++
      if aiIsNeedIv type frag then iv else []).length =
        packetHeadSize + ivSize (aiIsNeedIv type frag) := by
    rw [List.length_append, length_packetHead, length_ite_iv hiv]
  rw [aiGetPacketLen, headIvFlag_unsignedPacket, ← hpre, unsignedPacket, List.append_assoc,
    List.append_assoc]
  have hfield := slice_append_right
    (packetHead sequence (aiIsNeedIv type frag) (aiGetSl cfg type) frag ++
      if aiIsNeedIv type frag then iv else [])
    (beBytes 4 (payload.length + aiSignLen)) (payload ++ rest)
  rw [length_beBytes] at hfield
  rw [hfield, beNat_beBytes_of_lt h]

theorem aiGetPayloadLen_unsignedPacket (hiv : iv.length = aiIvLen)
    (h : payload.length + aiSignLen < 4294967296) (rest : Bytes) :
    aiGetPayloadLen (unsignedPacket cfg type frag sequence iv payload ++ rest) =
      payload.length := by
  rw [aiGetPayloadLen, aiGetPacketLen_unsignedPacket hiv h, u32Sub_of_le h (by omega)]
  omega

theorem slice_unsignedPacket (hiv : iv.length = aiIvLen) (rest : Bytes) :
    slice (unsignedPacket cfg type frag sequence iv payload ++ rest)
      (packetHeadSize + ivSize (aiIsNeedIv type frag) + 4) payload.length = payload := by
  have hspan := slice_append_right
    (packetHead sequence (aiIsNeedIv type frag) (aiGetSl cfg type) frag ++
      (if aiIsNeedIv type frag then iv else []) ++ beBytes 4 (payload.length + aiSignLen))
    payload rest
  rw [List.length_append, List.length_append, length_packetHead, length_ite_iv hiv,
    length_beBytes] at hspan
  rw [unsignedPacket, List.append_assoc _ payload rest]
  exact hspan

theorem aiPacketSign_unsignedPacket (hiv : iv.length = aiIvLen)
    (h : payload.length + aiSignLen < 4294967296) (rest : Bytes) :
    aiPacketSign env p (unsignedPacket cfg type frag sequence iv payload ++ rest) =
      aiPacketSign env p (unsignedPacket cfg type frag sequence iv payload) := by
  set pkt := unsignedPacket cfg type frag sequence iv payload with hpkt
  have hhead : aiGetHeadLen pkt = packetHeadSize + ivSize (aiIsNeedIv type frag) + 4 := by
    rw [← List.append_nil pkt, hpkt, aiGetHeadLen_unsignedPacket]
  have hpl : aiGetPayloadLen pkt = payload.length := by
    rw [← List.append_nil pkt, hpkt, aiGetPayloadLen_unsignedPacket hiv h]
  have hlen : pkt.length = packetHeadSize + ivSize (aiIsNeedIv type frag) + 4 + payload.length :=
    length_unsignedPacket hiv
  have hle := aiGetHeadLen_le pkt
  simp only [aiSignLen] at h
  exact aiPacketSign_append (by omega) (by omega) (by omega) rest

end UnsignedPacket

theorem signAndWrite_ok {r : AiSendResult} {pkt : Bytes} (htrans : p.transporter = true)
    (h : signAndWrite env p size pkt = .ok r) (hrt : r.rt = oprtOk) :
    ∃ sign, aiPacketSign env p (pkt ++ List.replicate (size - pkt.length) 0) = .ok sign ∧
      r.proto = p ∧ r.sent = [pkt ++ sign] ∧ pkt.length + aiSignLen ≤ size := by
  unfold signAndWrite at h
  split_ifs at h with hsize
  split at h
  · cases h
  · next rt _ =>
    obtain rfl := Except.ok.inj h
    exact absurd hrt rt.2
  · next sign hsign =>
    obtain rfl := Except.ok.inj h
    exact ⟨sign, hsign, rfl, rfl, by omega⟩

theorem aiPacketWrite_ok {r : AiSendResult} (htrans : p.transporter = true)
    (h : aiPacketWrite env p info data frag originLen = .ok r) (hrt : r.rt = oprtOk) :
    ∃ ct sign, aiPackPayload env (takeSequence p) info data frag originLen = .ok (ct, r.proto) ∧
      aiPacketSign env r.proto (unsignedPacket env.cfg info.type frag
        (nextSequence p.sequenceOut) p.encryptIv ct) = .ok sign ∧
      r.sent = [unsignedPacket env.cfg info.type frag (nextSequence p.sequenceOut) p.encryptIv ct
        ++ sign] ∧
      packetHeadSize + ivSize (aiIsNeedIv info.type frag) + 4 + ct.length + aiSignLen ≤
        aiGetSendPktLen env.cfg info data.length frag ∧
      aiGetSendPktLen env.cfg info data.length frag ≤ env.cfg.maxFragmentLength := by
  have hM := env.cfg.maxFragmentLength_le
  have hcom : oprtComError ≠ oprtOk := by decide
  have hmem : oprtMallocFailed ≠ oprtOk := by decide
  simp only [aiPacketWrite] at h
  split_ifs at h with hlong hmalloc
  · obtain rfl := Except.ok.inj h
    exact absurd hrt hcom
  · split at h
    · cases h
    · next rt _ =>
      obtain rfl := Except.ok.inj h
      exact absurd hrt rt.2
    · next ct p' hpack =>
      obtain ⟨iv, hframe⟩ := aiEncryptPacket_frame (aiPackPayload_ok hpack).1
      have htrans' : p'.transporter = true := by rw [hframe]; exact htrans
      obtain ⟨sign, hsign, rfl, hsent, hsize⟩ := signAndWrite_ok htrans' h hrt
      rw [length_unsignedPacket p.length_encryptIv] at hsize
      have hct : ct.length + aiSignLen < 4294967296 := by omega
      rw [aiPacketSign_unsignedPacket p.length_encryptIv hct] at hsign
      exact ⟨ct, sign, hpack, hsign, hsent, hsize, by omega⟩
  · obtain rfl := Except.ok.inj h
    exact absurd hrt hmem

end Spec

/-! ### A sample connection

Packets of a connection at security level 4 with their values of AES-256-GCM and HMAC-SHA256: a
text of two bytes, and the two fragments of a text of 32 bytes. -/

def sampleConfig : AiConfig where
  maxFragmentLength := 1024
  maxAttrNum := 10
  securityLevel := .sl4
  charIsSigned := true
  le_maxFragmentLength := by decide
  maxFragmentLength_le := by decide
  le_maxAttrNum := by decide
  maxAttrNum_le := by decide
  securityLevel_ne := by decide

def sampleProto : AiBasicProto where
  cryptKey := beBytes 32 0x3031323334353637383961626364656630313233343536373839616263646566
  signKey := beBytes 32 0x6665646362613938373635343332313066656463626139383736353433323130
  sequenceIn := 0
  sequenceOut := 1
  transporter := true
  connected := true
  encryptIv := beBytes 16 0x4142434445464748494a4b4c4d4e4f50
  decryptIv := beBytes 16 0
  recvFragMng := .zero
  fragFlag := false
  length_encryptIv := length_beBytes _ _
  length_decryptIv := length_beBytes _ _
  transporter_of_connected _ := rfl

def sampleEntry (data ct tag : Bytes) : Aead.Entry :=
  ⟨sampleProto.cryptKey, sampleProto.encryptIv, [], data, ct, tag⟩

/-- The padded payload `hi`. -/
def sampleText : Aead.Entry :=
  sampleEntry (beBytes 16 0x44000000026869090909090909090909)
    (beBytes 16 0x13439f25da1be43308a1ce3385b45d40) (beBytes 16 0x1929bd0965318a6847baa6a4bf0a0196)

def sampleStart : Aead.Entry :=
  sampleEntry (beBytes 16 0x44000000205468652071756963030303)
    (beBytes 16 0x13439f25f827e55f21d9b253efbe574a) (beBytes 16 0x57852b254347c979fb07643f0ff3d98e)

def sampleTail : Aead.Entry :=
  sampleEntry (beBytes 32 0x6b2062726f776e20666f78206a756d7073206f76657220210808080808080808)
    (beBytes 32 0x3c63fd57b704e31a67c7bf1ae6c839398bd2367993275e5eecd9f998ac45c553)
    (beBytes 16 0x22878c4daad29bb487f02c562c88286b)

def sampleUnsigned (frag : AiFragFlag) (sequence : Nat) (v : Aead.Entry) : Bytes :=
  unsignedPacket sampleConfig 34 frag sequence sampleProto.encryptIv (v.ct ++ v.tag)

/-- The signature of `sampleText` as packet 1. -/
def sampleTextSign : Bytes :=
  beBytes 32 0x9e909e375200df5d71dce9de0f91d2aafa0431bd1bb3ff702bdbcdcd939b6f0f

/-- The signature of `sampleStart` as packet 1. -/
def sampleStartSign : Bytes :=
  beBytes 32 0xf94cccc543791046c16ea492fa74429bc182b996c1e3c9b8b3055881ea8f187f

/-- The signature of `sampleTail` as packet 2, the last fragment. -/
def sampleEndSign : Bytes :=
  beBytes 32 0xfe66e6a832a76b119db8acccc044924e50fe4419908ef9d750e674be736197be

/-- The signature of `sampleTail` as packet 1, a middle fragment. -/
def sampleIngSign : Bytes :=
  beBytes 32 0xab8cef23449b94e3a7837db6d423d79efc58d8cb92abc1a70b66dd48fd2d8b64

def sampleMac (pkt sign : Bytes) : Bytes × Bytes × Bytes :=
  (sampleProto.signKey, (signData pkt).getD [], sign)

def sampleEnv : AiEnv where
  cfg := sampleConfig
  chacha20 := .unknown ⟨oprtComError, oprtComError_ne_ok⟩
  aes256 := .trivial 16
  gcm := .ofEntries ⟨oprtComError, oprtComError_ne_ok⟩ [sampleText, sampleStart, sampleTail] (by decide)
    (by decide)
  sha256Mac := .ofEntries ⟨oprtComError, oprtComError_ne_ok⟩
    [sampleMac (sampleUnsigned .noFrag 1 sampleText) sampleTextSign,
      sampleMac (sampleUnsigned .fragStart 1 sampleStart) sampleStartSign,
      sampleMac (sampleUnsigned .fragEnd 2 sampleTail) sampleEndSign,
      sampleMac (sampleUnsigned .fragIng 1 sampleTail) sampleIngSign] (by decide)
  malloc _ := true
  write out := out.length

def sampleInfo : AiSendPacket := ⟨34, [], [0x68, 0x69], by decide⟩

example : tuyaAiBasicPktSend sampleEnv 1 sampleProto sampleInfo =
    some (.ok ⟨oprtOk, { sampleProto with sequenceOut := 2 },
      [sampleUnsigned .noFrag 1 sampleText ++ sampleTextSign]⟩) := by
  decide +kernel

end TuyaOpen.AiProtocol
