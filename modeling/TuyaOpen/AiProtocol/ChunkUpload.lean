import Mathlib.Algebra.Order.BigOperators.Group.List
import Mathlib.Algebra.Order.Group.Nat
import TuyaOpen.AiProtocol.RoundTrip
import TuyaOpen.AiProtocol.UserAttrs

/-!
# Uploads in chunks

An image or a file that is too large for one buffer is sent by several calls of
`tuya_ai_send_biz_pkt`, each with a chunk of it and all with the length of the whole in `base.len`.
`__ai_basic_get_send_frag` infers the fragment flag of a chunk from a running offset. The offset is
not cleared when a connection is lost or set up again, and a chunk that is the whole upload is taken
for a first one: `tuya_ai_basic_image` compares `base.len` with a length that includes the head that
`tuya_ai_send_biz_pkt` has put in front of the chunk.

## Main results

* `chunkFlags_of_sendChunks`: what successful calls have put on the wire.
* `ChunkFlags.single_iff`, `ChunkFlags.several_iff`: when that is a group.
* `goodUpload_iff`.
-/

namespace TuyaOpen.AiProtocol

/-! ### Images and files -/

/-- `AI_PT_IMAGE` and `AI_PT_FILE`. -/
inductive AiMediaType
  | image
  | file
  deriving DecidableEq

def AiMediaType.pt : AiMediaType → UInt8
  | .image => 32
  | .file => 33

/-- `sizeof(AI_IMAGE_HEAD_T)` and `sizeof(AI_FILE_HEAD_T)`. -/
def AiMediaType.headSize : AiMediaType → Nat
  | .image => 15
  | .file => 7

/-- `AI_ATTR_OPTION_T`. The length of `user_data` is `user_len`. -/
structure AiAttrOption where
  userData : Option Bytes
  sessionIdList : Option Bytes

/-- `AI_IMAGE_ATTR_T`. -/
structure AiImageAttr where
  len : UInt32
  format : UInt8
  width : UInt16
  height : UInt16
  option : AiAttrOption

/-- `AI_FILE_ATTR_T`. -/
structure AiFileAttr where
  len : UInt32
  format : UInt8
  fileName : Bytes
  option : AiAttrOption

/-- The part of an `AI_BIZ_ATTR_INFO_T` that belongs to the type of the packet. -/
inductive AiMediaAttr
  | image (a : AiImageAttr)
  | file (a : AiFileAttr)

def AiMediaAttr.type : AiMediaAttr → AiMediaType
  | .image _ => .image
  | .file _ => .file

/-- `base.len`. -/
def AiMediaAttr.baseLen : AiMediaAttr → UInt32
  | .image a => a.len
  | .file a => a.len

/-- A call of `tuya_ai_send_biz_pkt`: `id`, what it uses of `attr` and `head`, the payload of
`head->len` bytes, and what it finds outside. -/
structure AiChunk where
  env : AiEnv
  id : UInt16
  streamFlag : Fin 4
  timestamp : UInt64
  attr : AiMediaAttr
  payload : Bytes

/-- The state: whether there is an `ai_basic_biz`, and of `ai_basic_proto` the part of
`AiBasicProto` and `send_frag_mng`. -/
structure AiUploadState where
  biz : Bool
  proto : AiBasicProto
  imageOffset : UInt32
  fileOffset : UInt32
  deriving DecidableEq

namespace AiUploadState

/-- The offset of a type in `send_frag_mng`. -/
def offset (s : AiUploadState) : AiMediaType → UInt32
  | .image => s.imageOffset
  | .file => s.fileOffset

def setOffset (s : AiUploadState) (offset : UInt32) : AiMediaType → AiUploadState
  | .image => { s with imageOffset := offset }
  | .file => { s with fileOffset := offset }

@[simp] theorem offset_setOffset (s : AiUploadState) (offset : UInt32) (type : AiMediaType) :
    (s.setOffset offset type).offset type = offset := by
  cases type <;> rfl

@[simp] theorem offset_with_proto (s : AiUploadState) (p : AiBasicProto) (type : AiMediaType) :
    ({ s with proto := p } : AiUploadState).offset type = s.offset type := by
  cases type <;> rfl

end AiUploadState

/-- The result of a call: its return value, the state, and the packets that were handed to
`tuya_transporter_write`. -/
structure AiUploadResult where
  rt : OperateRet
  state : AiUploadState
  sent : List Bytes
  deriving DecidableEq

/-! ### Attributes -/

/-- `tuya_ai_create_attribute` for an attribute `a`, whose value is copied. A string that cannot be
copied is `NULL`; a byte array that cannot be is cleared all the same. -/
def createAttribute (malloc : Nat → Bool) (a : AiAttribute) : Except AiStop (Option AiAttribute) :=
  if !malloc attributeSize then .ok none
  else if a.payloadType = 5 then
    if malloc a.length.toNat then .ok (some a) else .error (.fault .attrValue)
  else if a.payloadType = 6 then
    if malloc (a.length.toNat + 1) then .ok (some a) else .ok (some { a with mem := [] })
  else .ok (some a)

/-- The attributes of a packet, created one after the other, with `__ai_check_attr_created`. -/
def createAttrs (malloc : Nat → Bool) (attrs : List AiAttribute) :
    Except AiStop (List AiAttribute) := do
  let created ← attrs.mapM (createAttribute malloc)
  if created.all Option.isSome then .ok (created.filterMap id)
  else .error (.err ⟨oprtMallocFailed, oprtMallocFailed_ne_ok⟩)

/-- The attributes of an `AI_ATTR_OPTION_T`. -/
def optionAttrs (option : AiAttrOption) : List AiAttribute :=
  (option.userData.map fun data => ⟨111, 5, UInt32.ofNat data.length, 0, data⟩).toList ++
    (option.sessionIdList.map fun list => ⟨112, 6, UInt32.ofNat list.length, 0, list⟩).toList

/-- The attributes of `__create_image_attrs`. -/
def imageAttrs (image : AiImageAttr) : List AiAttribute :=
  [⟨91, 1, 1, image.format.toUInt64, []⟩] ++
    (if 0 < image.width then [⟨92, 2, 2, image.width.toUInt64, []⟩] else []) ++
    (if 0 < image.height then [⟨93, 2, 2, image.height.toUInt64, []⟩] else []) ++
    optionAttrs image.option

/-- The attributes of `__create_file_attrs`. -/
def fileAttrs (file : AiFileAttr) : List AiAttribute :=
  [⟨101, 1, 1, file.format.toUInt64, []⟩,
    ⟨102, 6, UInt32.ofNat file.fileName.length, 0, file.fileName⟩] ++ optionAttrs file.option

/-! ### Sending a chunk -/

/-- `__ai_basic_get_send_frag`: the flag, and the new offset. Where the lengths do not fit together
the flag stays what it has been, `AI_PACKET_NO_FRAG`. -/
def aiBasicGetSendFrag (type : AiMediaType) (fragLen totalLen offset : UInt32) :
    AiFragFlag × UInt32 :=
  let actualFragLen := fragLen - UInt32.ofNat type.headSize
  if offset = 0 then (.fragStart, offset + actualFragLen)
  else if offset + actualFragLen = totalLen then (.fragEnd, 0)
  else if offset + actualFragLen < totalLen then (.fragIng, offset + actualFragLen)
  else (.noFrag, 0)

/-- `tuya_ai_basic_pkt_frag_send`. -/
def tuyaAiBasicPktFragSend (env : AiEnv) (s : AiUploadState) (type : AiMediaType)
    (info : AiSendPacket) (totalLen : UInt32) : Except MemFault AiUploadResult :=
  if !s.proto.connected then .ok ⟨oprtComError, s.setOffset 0 type, []⟩
  else
    let frag := aiBasicGetSendFrag type (UInt32.ofNat info.data.length) totalLen (s.offset type)
    match aiPacketWrite env s.proto info info.data frag.1 totalLen.toNat with
    | .error f => .error f
    | .ok r => .ok ⟨r.rt, { s.setOffset frag.2 type with proto := r.proto }, r.sent⟩

/-- What `tuya_ai_basic_image` and `tuya_ai_basic_file` do with the attributes `attrs`. -/
def aiBasicUpload (env : AiEnv) (fuel : Nat) (s : AiUploadState) (type : AiMediaType)
    (attrs : List AiAttribute) (baseLen : UInt32) (data : Bytes)
    (hdata : data.length < 4294967296) : Option (Except MemFault AiUploadResult) :=
  match createAttrs env.malloc attrs with
  | .error (.fault f) => some (.error f)
  | .error (.err rt) => some (.ok ⟨rt, s, []⟩)
  | .ok attrs =>
    let info : AiSendPacket := ⟨type.pt, attrs, data, hdata⟩
    if UInt32.ofNat data.length = baseLen then
      match tuyaAiBasicPktSend env fuel s.proto info with
      | none => none
      | some (.error f) => some (.error f)
      | some (.ok r) => some (.ok ⟨r.rt, { s with proto := r.proto }, r.sent⟩)
    else some (tuyaAiBasicPktFragSend env s type info baseLen)

/-- `tuya_ai_basic_image`. -/
def tuyaAiBasicImage (env : AiEnv) (fuel : Nat) (s : AiUploadState) (image : AiImageAttr)
    (data : Bytes) (hdata : data.length < 4294967296) :
    Option (Except MemFault AiUploadResult) :=
  aiBasicUpload env fuel s .image (imageAttrs image) image.len data hdata

/-- `tuya_ai_basic_file`. -/
def tuyaAiBasicFile (env : AiEnv) (fuel : Nat) (s : AiUploadState) (file : AiFileAttr)
    (data : Bytes) (hdata : data.length < 4294967296) :
    Option (Except MemFault AiUploadResult) :=
  aiBasicUpload env fuel s .file (fileAttrs file) file.len data hdata

/-- An `AI_IMAGE_HEAD_T` or `AI_FILE_HEAD_T`, and the chunk behind it. -/
def bizData (chunk : AiChunk) : Bytes :=
  let front := beBytes 2 chunk.id.toNat ++ [UInt8.ofNat (chunk.streamFlag.val * 64)]
  match chunk.attr with
  | .image _ =>
    front ++ beBytes 8 chunk.timestamp.toNat ++ beBytes 4 chunk.payload.length ++ chunk.payload
  | .file _ => front ++ beBytes 4 chunk.payload.length ++ chunk.payload

/-- `tuya_ai_send_biz_pkt`, for an image or a file. The loop of `tuya_ai_basic_pkt_send` makes at
most `fuel` rounds. -/
def tuyaAiSendBizPkt (fuel : Nat) (s : AiUploadState) (chunk : AiChunk) :
    Option (Except MemFault AiUploadResult) :=
  if !s.biz then some (.ok ⟨oprtComError, s, []⟩)
  else if chunk.env.malloc (u32 (chunk.attr.type.headSize + chunk.payload.length)) then
    if hdata : (bizData chunk).length < 4294967296 then
      match chunk.attr with
      | .image a => tuyaAiBasicImage chunk.env fuel s a (bizData chunk) hdata
      | .file a => tuyaAiBasicFile chunk.env fuel s a (bizData chunk) hdata
    else some (.error .payloadBuffer)
  else some (.ok ⟨oprtMallocFailed, s, []⟩)

def sendChunks (fuel : Nat) : AiUploadState → List AiChunk → Option (Except MemFault AiUploadResult)
  | s, [] => some (.ok ⟨oprtOk, s, []⟩)
  | s, chunk :: chunks =>
    match tuyaAiSendBizPkt fuel s chunk with
    | none => none
    | some (.error f) => some (.error f)
    | some (.ok r) =>
      if r.rt = oprtOk then
        match sendChunks fuel r.state chunks with
        | none => none
        | some (.error f) => some (.error f)
        | some (.ok r') => some (.ok { r' with sent := r.sent ++ r'.sent })
      else some (.ok r)

/-! ### What should be on the wire -/

/-- The chunks are those of an upload of `total` bytes. -/
structure IsUpload (type : AiMediaType) (total : UInt32) (chunks : List AiChunk) : Prop where
  attr : ∀ chunk ∈ chunks, chunk.attr.type = type ∧ chunk.attr.baseLen = total
  pos : ∀ chunk ∈ chunks, 0 < chunk.payload.length
  sum : (chunks.map fun chunk => chunk.payload.length).sum = total.toNat
  ne_nil : chunks ≠ []

/-- The flags of a group of `n` packets. -/
def GroupFlags (n : Nat) (flags : List AiFragFlag) : Prop :=
  if n = 1 then flags = [.noFrag]
  else ∃ k, flags = .fragStart :: (List.replicate k AiFragFlag.fragIng ++ [AiFragFlag.fragEnd])

def GoodUpload (type : AiMediaType) (n : Nat) (r : AiUploadResult) : Prop :=
  GroupFlags n (r.sent.map headFragFlag) ∧ r.state.offset type = 0

/-! ### Flags on the wire -/

/-- The flags of a packet that `tuya_ai_basic_pkt_send` has sent. -/
def WholeFlags (flags : List AiFragFlag) : Prop :=
  flags = [.noFrag] ∨ ∃ mid, flags = .fragStart :: (mid ++ [AiFragFlag.fragEnd])

section Wire

variable {env : AiEnv} {p : AiBasicProto} {info : AiSendPacket} {data : Bytes} {frag : AiFragFlag}
  {fuel offset originLen : Nat} {r : AiSendResult} {sent : List Bytes}

theorem aiPacketWrite_flags (htrans : p.transporter = true)
    (h : aiPacketWrite env p info data frag originLen = .ok r) (hrt : r.rt = oprtOk) :
    r.sent.map headFragFlag = [frag] ∧ r.proto.transporter = true := by
  obtain ⟨ct, sign, hpack, -, hsent, -⟩ := aiPacketWrite_ok htrans h hrt
  obtain ⟨iv, hproto⟩ := aiEncryptPacket_frame (aiPackPayload_ok hpack).1
  constructor
  · rw [hsent, List.map_singleton, headFragFlag_unsignedPacket]
  · rw [hproto]
    exact htrans

theorem pktSendLoop_flags (hpos : 0 < offset) (hlt : offset < info.data.length)
    (htrans : p.transporter = true)
    (h : pktSendLoop env info fuel offset p sent = some (.ok r)) (hrt : r.rt = oprtOk) :
    ∃ mid, r.sent.map headFragFlag = sent.map headFragFlag ++ (mid ++ [AiFragFlag.fragEnd]) := by
  induction fuel generalizing offset p sent with
  | zero => cases h
  | succ fuel ih =>
    obtain ⟨r₁, hw, hrt₁, hnext⟩ := pktSendLoop_round hlt h hrt
    obtain ⟨hflags, htrans₁⟩ := aiPacketWrite_flags htrans hw hrt₁
    have hne : offset ≠ 0 := Nat.pos_iff_ne_zero.mp hpos
    rw [fragFlagAt, if_neg hne] at hflags
    have hle : offset + fragLen env.cfg info offset ≤ info.data.length := by
      rw [fragLen]
      omega
    rcases Nat.eq_or_lt_of_le hle with heq | hless
    · rw [if_pos heq] at hflags
      refine ⟨[], ?_⟩
      rw [pktSendLoop_done (Nat.le_of_eq heq.symm) hnext, List.map_append, hflags,
        List.nil_append]
    · rw [if_neg (Nat.ne_of_lt hless)] at hflags
      obtain ⟨mid, hmid⟩ := ih (Nat.add_pos_left hpos _) hless htrans₁ hnext
      refine ⟨.fragIng :: mid, ?_⟩
      rw [hmid, List.map_append, hflags, List.append_assoc, List.singleton_append,
        List.cons_append]

theorem tuyaAiBasicPktSend_flags (htype : info.type ≠ aiPtClientHello)
    (hdata : 0 < info.data.length) (h : tuyaAiBasicPktSend env fuel p info = some (.ok r))
    (hrt : r.rt = oprtOk) : WholeFlags (r.sent.map headFragFlag) := by
  have hcom : oprtComError ≠ oprtOk := by decide
  unfold tuyaAiBasicPktSend at h
  split_ifs at h with hconn hone
  · obtain rfl := Except.ok.inj (Option.some.inj h)
    exact absurd hrt hcom
  · have htrans := p.transporter_of_connected (by simpa using hconn)
    exact Or.inl (aiPacketWrite_flags htrans (Option.some.inj h) hrt).1
  · have htrans := p.transporter_of_connected (by simpa using hconn)
    have hne : fragLen env.cfg info 0 ≠ 0 := fun hzero => pktSendLoop_stuck hdata hzero hrt h
    cases fuel with
    | zero => cases h
    | succ fuel =>
      obtain ⟨r₁, hw, hrt₁, hnext⟩ := pktSendLoop_round hdata h hrt
      have hstart : fragFlagAt env.cfg info 0 = .fragStart := if_pos rfl
      rw [hstart] at hw
      obtain ⟨hflags, htrans₁⟩ := aiPacketWrite_flags htrans hw hrt₁
      obtain ⟨-, hless, -⟩ := fragLen_start htype htrans (Nat.lt_of_not_le hone) hw hrt₁
      rw [Nat.zero_add, List.nil_append] at hnext
      obtain ⟨mid, hmid⟩ :=
        pktSendLoop_flags (Nat.pos_of_ne_zero hne) hless htrans₁ hnext hrt
      exact Or.inr ⟨mid, by rw [hmid, hflags, List.singleton_append]⟩

end Wire

/-! ### Calls that succeed -/

/-- A call has sent `len` bytes of an upload as a packet of their own, or as a part of it whose
flag comes from the running offset. -/
def SentAs (type : AiMediaType) (total : UInt32) (offset : UInt32) (len : Nat)
    (flags : List AiFragFlag) (offset' : UInt32) : Prop :=
  if UInt32.ofNat len = total then WholeFlags flags ∧ offset' = offset
  else
    flags = [(aiBasicGetSendFrag type (UInt32.ofNat len) total offset).1] ∧
      offset' = (aiBasicGetSendFrag type (UInt32.ofNat len) total offset).2

section Calls

variable {env : AiEnv} {fuel : Nat} {s : AiUploadState} {type : AiMediaType} {total : UInt32}
  {r : AiUploadResult} {chunk : AiChunk} {chunks : List AiChunk} {data : Bytes}

theorem AiMediaType.pt_ne (type : AiMediaType) : type.pt ≠ aiPtClientHello := by
  cases type <;> decide

theorem length_bizData (chunk : AiChunk) :
    (bizData chunk).length = chunk.attr.type.headSize + chunk.payload.length := by
  unfold bizData
  cases chunk.attr
  all_goals
    simp only [List.length_append, length_beBytes, List.length_singleton, AiMediaAttr.type,
      AiMediaType.headSize]

theorem tuyaAiBasicPktFragSend_sentAs {info : AiSendPacket}
    (hlen : UInt32.ofNat info.data.length ≠ total)
    (h : tuyaAiBasicPktFragSend env s type info total = .ok r) (hrt : r.rt = oprtOk) :
    SentAs type total (s.offset type) info.data.length (r.sent.map headFragFlag)
      (r.state.offset type) := by
  have hcom : oprtComError ≠ oprtOk := by decide
  unfold tuyaAiBasicPktFragSend at h
  split_ifs at h with hconn
  · obtain rfl := Except.ok.inj h
    exact absurd hrt hcom
  · have htrans := s.proto.transporter_of_connected (by simpa using hconn)
    dsimp only at h
    split at h
    · cases h
    · next r₁ hw =>
      obtain rfl := Except.ok.inj h
      rw [SentAs, if_neg hlen]
      refine ⟨(aiPacketWrite_flags htrans hw hrt).1, ?_⟩
      rw [AiUploadState.offset_with_proto, AiUploadState.offset_setOffset]

theorem aiBasicUpload_sentAs {attrs : List AiAttribute} {hdata : data.length < 4294967296}
    (hpos : 0 < data.length)
    (h : aiBasicUpload env fuel s type attrs total data hdata = some (.ok r))
    (hrt : r.rt = oprtOk) :
    SentAs type total (s.offset type) data.length (r.sent.map headFragFlag)
      (r.state.offset type) := by
  unfold aiBasicUpload at h
  split at h
  · cases h
  · next rt _ =>
    obtain rfl := Except.ok.inj (Option.some.inj h)
    exact absurd hrt rt.2
  · next attrs' _ =>
    dsimp only at h
    split_ifs at h with hlen
    · split at h
      · cases h
      · cases h
      · next r₁ hsend =>
        obtain rfl := Except.ok.inj (Option.some.inj h)
        rw [SentAs, if_pos hlen, AiUploadState.offset_with_proto]
        exact ⟨tuyaAiBasicPktSend_flags type.pt_ne hpos hsend hrt, rfl⟩
    · exact tuyaAiBasicPktFragSend_sentAs hlen (Option.some.inj h) hrt

theorem tuyaAiSendBizPkt_sentAs (htype : chunk.attr.type = type)
    (htotal : chunk.attr.baseLen = total)
    (h : tuyaAiSendBizPkt fuel s chunk = some (.ok r)) (hrt : r.rt = oprtOk) :
    SentAs type total (s.offset type) (type.headSize + chunk.payload.length)
      (r.sent.map headFragFlag) (r.state.offset type) := by
  have hcom : oprtComError ≠ oprtOk := by decide
  subst htype htotal
  rw [← length_bizData]
  have hpos : 0 < (bizData chunk).length := by
    rw [length_bizData]
    cases chunk.attr.type
    all_goals exact Nat.add_pos_left (by decide) _
  unfold tuyaAiSendBizPkt at h
  split_ifs at h with hbiz hmalloc hdata
  · obtain rfl := Except.ok.inj (Option.some.inj h)
    exact absurd hrt hcom
  · split at h
    all_goals
      next a hattr =>
      rw [hattr]
      exact aiBasicUpload_sentAs hpos h hrt
  · cases h
  · obtain rfl := Except.ok.inj (Option.some.inj h)
    exact absurd hrt oprtMallocFailed_ne_ok

/-- The flags of chunks of the given lengths, sent one after the other, and the offsets before and
after them. -/
inductive ChunkFlags (type : AiMediaType) (total : UInt32) :
    UInt32 → List Nat → List AiFragFlag → UInt32 → Prop
  | nil (offset : UInt32) : ChunkFlags type total offset [] [] offset
  | cons {offset offset₁ offset' : UInt32} {len : Nat} {lens : List Nat}
      {flags₁ flags : List AiFragFlag}
      (hsent : SentAs type total offset (type.headSize + len) flags₁ offset₁)
      (hrest : ChunkFlags type total offset₁ lens flags offset') :
      ChunkFlags type total offset (len :: lens) (flags₁ ++ flags) offset'

/-- **What successful calls have put on the wire.** -/
theorem chunkFlags_of_sendChunks
    (hattr : ∀ chunk ∈ chunks, chunk.attr.type = type ∧ chunk.attr.baseLen = total)
    (h : sendChunks fuel s chunks = some (.ok r)) (hrt : r.rt = oprtOk) :
    ChunkFlags type total (s.offset type) (chunks.map fun chunk => chunk.payload.length)
      (r.sent.map headFragFlag) (r.state.offset type) := by
  induction chunks generalizing s r with
  | nil =>
    obtain rfl := Except.ok.inj (Option.some.inj h)
    exact .nil _
  | cons chunk chunks ih =>
    obtain ⟨htype, htotal⟩ := hattr chunk List.mem_cons_self
    rw [sendChunks] at h
    split at h
    · cases h
    · cases h
    · next r₁ hcall =>
      split_ifs at h with hok
      · split at h
        · cases h
        · cases h
        · next r₂ hrest =>
          obtain rfl := Except.ok.inj (Option.some.inj h)
          rw [List.map_append]
          exact .cons (tuyaAiSendBizPkt_sentAs htype htotal hcall hok)
            (ih (fun c hc => hattr c (List.mem_cons_of_mem _ hc)) hrest hrt)
      · obtain rfl := Except.ok.inj (Option.some.inj h)
        exact absurd hrt hok

end Calls

/-! ### Chunks that make a group -/

theorem append_whole_ne_group {front whole back : List AiFragFlag} (hwhole : WholeFlags whole)
    (hmore : 0 < front.length + back.length) (n : Nat) :
    front ++ (whole ++ back) ≠
      .fragStart :: (List.replicate n AiFragFlag.fragIng ++ [AiFragFlag.fragEnd]) := by
  intro heq
  rcases hwhole with rfl | ⟨mid, rfl⟩
  · have hmem : AiFragFlag.noFrag ∈ front ++ ([AiFragFlag.noFrag] ++ back) := by simp
    rw [heq] at hmem
    simp [List.mem_replicate] at hmem
  · cases front with
    | cons flag front =>
      have hmem : AiFragFlag.fragStart ∈
          front ++ (AiFragFlag.fragStart :: (mid ++ [AiFragFlag.fragEnd]) ++ back) := by
        simp
      rw [List.cons_append] at heq
      rw [(List.cons.inj heq).2] at hmem
      simp [List.mem_replicate] at hmem
    | nil =>
      have hback : back ≠ [] := List.ne_nil_of_length_pos (by simpa using hmore)
      rw [List.nil_append, List.cons_append] at heq
      -- What is in front of the last flag of the group.
      have hinit := congrArg List.dropLast (List.cons.inj heq).2
      rw [List.dropLast_append_of_ne_nil hback, List.dropLast_concat] at hinit
      have hmem : AiFragFlag.fragEnd ∈ mid ++ [AiFragFlag.fragEnd] ++ back.dropLast := by simp
      rw [hinit] at hmem
      simp [List.mem_replicate] at hmem

section Groups

variable {type : AiMediaType} {total offset offset' : UInt32} {len : Nat} {lens : List Nat}
  {flags : List AiFragFlag}

theorem aiBasicGetSendFrag_headSize (type : AiMediaType) (len : Nat) (total offset : UInt32) :
    aiBasicGetSendFrag type (UInt32.ofNat (type.headSize + len)) total offset =
      if offset = 0 then (.fragStart, offset + UInt32.ofNat len)
      else if offset + UInt32.ofNat len = total then (.fragEnd, 0)
      else if offset + UInt32.ofNat len < total then (.fragIng, offset + UInt32.ofNat len)
      else (.noFrag, 0) := by
  have hlen : UInt32.ofNat (type.headSize + len) - UInt32.ofNat type.headSize =
      UInt32.ofNat len := by
    rw [UInt32.ofNat_add, add_sub_cancel_left]
  rw [aiBasicGetSendFrag, hlen]

theorem ofNat_headSize_eq_iff (hle : len ≤ total.toNat) :
    UInt32.ofNat (type.headSize + len) = total ↔ type.headSize + len = total.toNat := by
  have htotal := total.toNat_lt
  have hhead : type.headSize ≤ 15 := by cases type <;> decide
  rw [← UInt32.toNat_inj, UInt32.toNat_ofNat']
  omega

theorem SentAs.length_pos (h : SentAs type total offset len flags offset') : 0 < flags.length := by
  unfold SentAs at h
  split_ifs at h
  · rcases h.1 with rfl | ⟨mid, rfl⟩
    all_goals exact Nat.succ_pos _
  · rw [h.1]
    exact Nat.one_pos

theorem ChunkFlags.length_le (h : ChunkFlags type total offset lens flags offset') :
    lens.length ≤ flags.length := by
  induction h with
  | nil => exact Nat.le_refl _
  | cons hsent _ ih =>
    have hpos := hsent.length_pos
    rw [List.length_cons, List.length_append]
    omega

theorem ChunkFlags.exists_whole (h : ChunkFlags type total offset lens flags offset')
    (hmem : len ∈ lens) (hlen : UInt32.ofNat (type.headSize + len) = total) :
    ∃ front whole back, flags = front ++ (whole ++ back) ∧ WholeFlags whole ∧
      lens.length ≤ front.length + back.length + 1 := by
  induction h with
  | nil => cases hmem
  | @cons _ _ _ len₁ lens flags₁ flags hsent hrest ih =>
    have hpos := hsent.length_pos
    rcases List.mem_cons.mp hmem with rfl | hmem
    · rw [SentAs, if_pos hlen] at hsent
      have hle := hrest.length_le
      refine ⟨[], flags₁, flags, rfl, hsent.1, ?_⟩
      rw [List.length_cons, List.length_nil]
      omega
    · obtain ⟨front, whole, back, rfl, hwhole, hle⟩ := ih hmem
      refine ⟨flags₁ ++ front, whole, back, (List.append_assoc _ _ _).symm, hwhole, ?_⟩
      rw [List.length_cons, List.length_append]
      omega

theorem ChunkFlags.of_started {k : Nat} (hk : 0 < k) (hpos : ∀ len ∈ lens, 0 < len)
    (hne : lens ≠ []) (hsum : k + lens.sum = total.toNat)
    (hapart : ∀ len ∈ lens, UInt32.ofNat (type.headSize + len) ≠ total)
    (h : ChunkFlags type total (UInt32.ofNat k) lens flags offset') :
    offset' = 0 ∧ ∃ n, flags = List.replicate n AiFragFlag.fragIng ++ [AiFragFlag.fragEnd] := by
  have htotal := total.toNat_lt
  induction lens generalizing k flags with
  | nil => exact absurd rfl hne
  | cons len lens ih =>
    obtain _ | ⟨hsent, hrest⟩ := h
    rw [List.sum_cons] at hsum
    rw [SentAs, if_neg (hapart len List.mem_cons_self), aiBasicGetSendFrag_headSize,
      ← UInt32.ofNat_add] at hsent
    have hsize : k + len < 4294967296 := by omega
    have hk0 : UInt32.ofNat k ≠ 0 := by
      rw [Ne, ← UInt32.toNat_inj, UInt32.toNat_ofNat_of_lt' (Nat.lt_of_add_right_lt hsize)]
      exact Nat.pos_iff_ne_zero.mp hk
    have hnat : (UInt32.ofNat (k + len)).toNat = k + len := UInt32.toNat_ofNat_of_lt' hsize
    rw [if_neg hk0] at hsent
    cases lens with
    | nil =>
      have hend : UInt32.ofNat (k + len) = total := by
        rw [← UInt32.toNat_inj, hnat]
        simpa using hsum
      rw [if_pos hend] at hsent
      obtain ⟨rfl, rfl⟩ := hsent
      cases hrest
      exact ⟨rfl, 0, rfl⟩
    | cons next lens =>
      have hnext := hpos next (List.mem_cons_of_mem _ List.mem_cons_self)
      have hless : k + len < total.toNat := by
        rw [List.sum_cons] at hsum
        omega
      have hend : UInt32.ofNat (k + len) ≠ total := by
        rw [Ne, ← UInt32.toNat_inj, hnat]
        exact Nat.ne_of_lt hless
      have hing : UInt32.ofNat (k + len) < total := by
        rw [UInt32.lt_iff_toNat_lt, hnat]
        exact hless
      rw [if_neg hend, if_pos hing] at hsent
      obtain ⟨rfl, rfl⟩ := hsent
      obtain ⟨hoffset, n, rfl⟩ := ih (Nat.add_pos_left hk _)
        (fun l hl => hpos l (List.mem_cons_of_mem _ hl)) (List.cons_ne_nil _ _) (by omega)
        (fun l hl => hapart l (List.mem_cons_of_mem _ hl)) hrest
      exact ⟨hoffset, n + 1, rfl⟩

theorem ChunkFlags.single_iff (hpos : 0 < len) (hlen : len = total.toNat)
    (h : ChunkFlags type total offset [len] flags offset') :
    GroupFlags 1 flags ∧ offset' = 0 ↔
      offset ≠ 0 ∧ offset.toNat + total.toNat < 4294967296 := by
  have hapart : UInt32.ofNat (type.headSize + len) ≠ total := by
    rw [Ne, ofNat_headSize_eq_iff (Nat.le_of_eq hlen)]
    cases type <;> simp only [AiMediaType.headSize] <;> omega
  have hofNat : UInt32.ofNat len = total := by rw [hlen, UInt32.ofNat_toNat]
  obtain _ | ⟨hsent, hrest⟩ := h
  cases hrest
  rw [SentAs, if_neg hapart, aiBasicGetSendFrag_headSize, hofNat] at hsent
  rw [List.append_nil, GroupFlags, if_pos rfl]
  by_cases hzero : offset = 0
  · rw [if_pos hzero] at hsent
    obtain ⟨rfl, -⟩ := hsent
    exact iff_of_false (fun hgood => by cases hgood.1) fun hcond => hcond.1 hzero
  rw [if_neg hzero] at hsent
  have hnat : offset.toNat ≠ 0 := fun h0 => hzero (UInt32.toNat_inj.mp h0)
  have hoffset := offset.toNat_lt
  have htotal := total.toNat_lt
  have hend : offset + total ≠ total := fun heq => hzero (add_eq_right.mp heq)
  rw [if_neg hend] at hsent
  by_cases hless : offset + total < total
  · rw [if_pos hless] at hsent
    obtain ⟨rfl, -⟩ := hsent
    refine iff_of_false (fun hgood => by cases hgood.1) fun hcond => ?_
    rw [UInt32.lt_iff_toNat_lt, UInt32.toNat_add] at hless
    omega
  · rw [if_neg hless] at hsent
    obtain ⟨rfl, rfl⟩ := hsent
    refine iff_of_true ⟨rfl, rfl⟩ ⟨hzero, ?_⟩
    rw [UInt32.lt_iff_toNat_lt, UInt32.toNat_add] at hless
    omega

/-- Several chunks are sent as a group only from the offset 0, and only if none of them, with its
head, is as long as all of them. -/
theorem ChunkFlags.several_iff (hpos : ∀ len ∈ lens, 0 < len) (hsum : lens.sum = total.toNat)
    (hlens : 2 ≤ lens.length) (h : ChunkFlags type total offset lens flags offset') :
    GroupFlags lens.length flags ∧ offset' = 0 ↔
      offset = 0 ∧ ∀ len ∈ lens, type.headSize + len ≠ total.toNat := by
  have htotal := total.toNat_lt
  have hapart : (∀ len ∈ lens, type.headSize + len ≠ total.toNat) ↔
      ∀ len ∈ lens, UInt32.ofNat (type.headSize + len) ≠ total := by
    refine forall₂_congr fun len hmem => not_congr (ofNat_headSize_eq_iff ?_).symm
    rw [← hsum]
    exact List.le_sum_of_mem hmem
  rw [GroupFlags, if_neg (by omega), hapart]
  by_cases hall : ∀ len ∈ lens, UInt32.ofNat (type.headSize + len) ≠ total
  swap
  · -- A packet of its own.
    refine iff_of_false (fun hgood => ?_) fun hcond => hall hcond.2
    obtain ⟨⟨n, hflags⟩, -⟩ := hgood
    push Not at hall
    obtain ⟨len, hmem, hlen⟩ := hall
    obtain ⟨front, whole, back, rfl, hwhole, hle⟩ := h.exists_whole hmem hlen
    exact append_whole_ne_group hwhole (by omega) n hflags
  rw [and_iff_left hall]
  obtain _ | @⟨_, offset₁, _, len, lens, _, _, hsent, hrest⟩ := h
  · cases hlens
  rw [SentAs, if_neg (hall len List.mem_cons_self), aiBasicGetSendFrag_headSize] at hsent
  by_cases hzero : offset = 0
  · -- The first chunk starts the group, whatever its length.
    rw [if_pos hzero, hzero, UInt32.zero_add] at hsent
    obtain ⟨rfl, rfl⟩ := hsent
    rw [List.sum_cons] at hsum
    obtain ⟨hoffset, n, rfl⟩ := hrest.of_started (hpos len List.mem_cons_self)
      (fun l hl => hpos l (List.mem_cons_of_mem _ hl))
      (List.ne_nil_of_length_pos (by rw [List.length_cons] at hlens; omega)) hsum
      fun l hl => hall l (List.mem_cons_of_mem _ hl)
    exact iff_of_true ⟨⟨n, rfl⟩, hoffset⟩ hzero
  · refine iff_of_false (fun hgood => ?_) hzero
    obtain ⟨⟨n, hflags⟩, -⟩ := hgood
    rw [if_neg hzero] at hsent
    obtain ⟨rfl, -⟩ := hsent
    rw [List.singleton_append] at hflags
    have hstart := (List.cons.inj hflags).1
    split_ifs at hstart

end Groups

/-- **Which uploads are a group on the wire.** All calls of an upload have succeeded. The chunks
are a group, and the offset is 0 afterwards, just when

* there is a single chunk, and an offset other than 0 has been left, which does not wrap around
  with the length of the upload; or
* there are several chunks, no offset has been left, and no chunk together with its head is as long
  as the upload. -/
theorem goodUpload_iff {type : AiMediaType} {total : UInt32} {fuel : Nat} {s : AiUploadState}
    {chunks : List AiChunk} {r : AiUploadResult} (hupload : IsUpload type total chunks)
    (hsend : sendChunks fuel s chunks = some (.ok r)) (hrt : r.rt = oprtOk) :
    GoodUpload type chunks.length r ↔
      (chunks.length = 1 ∧ s.offset type ≠ 0 ∧
          (s.offset type).toNat + total.toNat < 4294967296) ∨
        (2 ≤ chunks.length ∧ s.offset type = 0 ∧
          ∀ chunk ∈ chunks, type.headSize + chunk.payload.length ≠ total.toNat) := by
  have hflags := chunkFlags_of_sendChunks hupload.attr hsend hrt
  have hsum := hupload.sum
  rw [GoodUpload]
  obtain _ | ⟨chunk, _ | ⟨next, rest⟩⟩ := chunks
  · exact absurd rfl hupload.ne_nil
  · have hsingle := hflags.single_iff (hupload.pos chunk List.mem_cons_self) (by simpa using hsum)
    simpa using hsingle
  · set chunks := chunk :: next :: rest with hchunks
    have hlen : 2 ≤ chunks.length := by
      rw [hchunks, List.length_cons, List.length_cons]
      omega
    have hpos : ∀ len ∈ chunks.map fun chunk => chunk.payload.length, 0 < len :=
      List.forall_mem_map.mpr hupload.pos
    have hseveral := hflags.several_iff hpos hsum (by rwa [List.length_map])
    rw [List.length_map, List.forall_mem_map] at hseveral
    rw [hseveral, and_iff_right hlen, or_iff_right fun hone => by omega]

/-! ### Sample uploads

Images of one byte, and of two bytes in two chunks, on the sample connection. -/

def sampleAlone : Aead.Entry :=
  sampleEntry
    (beBytes 33 0x4100000008005b0100000001010000000100010000000000000000000000000161 ++
      List.replicate 15 15)
    (beBytes 24 0x16439f25d073d63b01a8c73b8dbd5449f9f2580ff6557e7f ++
      beBytes 24 0xe4d1f190a44dcd5a734a263214b25b7d05522f1c74b0fd4b)
    (beBytes 16 0x899296254c7f5d4627b06d4a1000657b)

def sampleFirst : Aead.Entry :=
  sampleEntry
    (beBytes 33 0x4100000008005b0100000001010000000200010000000000000000000000000161 ++
      List.replicate 15 15)
    (beBytes 24 0x16439f25d073d63b01a8c73b8dbd5449faf2580ff6557e7f ++
      beBytes 24 0xe4d1f190a44dcd5a734a263214b25b7d05522f1c74b0fd4b)
    (beBytes 16 0xd72532068320d643fc6cc23f356d4dfc)

def sampleLast : Aead.Entry :=
  sampleEntry (beBytes 16 0x00010000000000000000000000000161 ++ List.replicate 16 16)
    (beBytes 32 0x57429f25d8738d3a01a8c73a8cbd5528e8e2491fe6456e6ff4c1e180b45ddd4b)
    (beBytes 16 0xa6e8d68672508d071d50889b98e5a35d)

def imageUnsigned (frag : AiFragFlag) (sequence : Nat) (v : Aead.Entry) : Bytes :=
  unsignedPacket sampleConfig 32 frag sequence sampleProto.encryptIv (v.ct ++ v.tag)

def sampleAloneSign : Bytes :=
  beBytes 32 0x479730071c00431ddc8968c746e93c96402f7b2e6ae92bb57fb5b060491be80b

def sampleFirstSign : Bytes :=
  beBytes 32 0x0a6b1696b273c513542b1fec5f880efc62064c71757e04a735720997cf5e1e45

def sampleLastSign : Bytes :=
  beBytes 32 0x5460930dbfc62111c0bdf622c0cddc494dc223a6b77c9735068fd6d22107b9ed

/-- The environment of the sample connection, with the values of AES-256-GCM and HMAC-SHA256 that
the images need. -/
def uploadEnv : AiEnv :=
  { sampleEnv with
    gcm := .ofEntries ⟨oprtComError, oprtComError_ne_ok⟩ [sampleAlone, sampleFirst, sampleLast]
      (by decide) (by decide)
    sha256Mac := .ofEntries ⟨oprtComError, oprtComError_ne_ok⟩
      [sampleMac (imageUnsigned .fragStart 1 sampleAlone) sampleAloneSign,
        sampleMac (imageUnsigned .fragStart 1 sampleFirst) sampleFirstSign,
        sampleMac (imageUnsigned .fragEnd 2 sampleLast) sampleLastSign] (by decide) }

/-- A chunk of one byte of an image of `total` bytes. -/
def sampleChunk (total : UInt32) : AiChunk :=
  ⟨uploadEnv, 1, 0, 0, .image ⟨total, 1, 0, 0, ⟨none, none⟩⟩, [0x61]⟩

def sampleUpload : AiUploadState := ⟨true, sampleProto, 0, 0⟩

/-- The two chunks are a group on the wire. -/
theorem goodUpload_iff_sampleChunks :
    GoodUpload .image 2
      ⟨oprtOk, { sampleUpload with proto := { sampleProto with sequenceOut := 3 } },
        [imageUnsigned .fragStart 1 sampleFirst ++ sampleFirstSign,
          imageUnsigned .fragEnd 2 sampleLast ++ sampleLastSign]⟩ := by
  have hupload : IsUpload .image 2 [sampleChunk 2, sampleChunk 2] := by
    constructor
    all_goals decide
  have hsend : sendChunks 0 sampleUpload [sampleChunk 2, sampleChunk 2] =
      some (.ok ⟨oprtOk, { sampleUpload with proto := { sampleProto with sequenceOut := 3 } },
        [imageUnsigned .fragStart 1 sampleFirst ++ sampleFirstSign,
          imageUnsigned .fragEnd 2 sampleLast ++ sampleLastSign]⟩) := by
    decide +kernel
  exact (goodUpload_iff hupload hsend rfl).mpr (.inr ⟨by decide, rfl, by decide⟩)

/-- An image that is sent at once is sent as the first fragment of a group that never ends, and its
length is left as an offset. -/
theorem not_goodUpload_sampleChunk :
    ¬∀ type total fuel s chunks r, IsUpload type total chunks →
      sendChunks fuel s chunks = some (.ok r) → r.rt = oprtOk →
      GoodUpload type chunks.length r := by
  intro h
  have hupload : IsUpload .image 1 [sampleChunk 1] := by
    constructor
    all_goals decide
  have hsend : sendChunks 0 sampleUpload [sampleChunk 1] =
      some (.ok ⟨oprtOk, ⟨true, { sampleProto with sequenceOut := 2 }, 1, 0⟩,
        [imageUnsigned .fragStart 1 sampleAlone ++ sampleAloneSign]⟩) := by
    decide +kernel
  have hzero := (h .image 1 0 sampleUpload [sampleChunk 1] _ hupload hsend rfl).2
  cases hzero

end TuyaOpen.AiProtocol
