import TuyaOpen.AiProtocol.Codec

/-!
# Receiving packets

`tuya_ai_basic_pkt_read` and the functions around it. A call reads the head of a packet, checks
its size and sequence, reads the body, checks the signature and decrypts. The fragments of a group
are collected in `recv_frag_mng`: after a first or a middle fragment the function calls itself for
the next packet. Every error leaves through the label `EXIT`, which throws the collected fragments
away and returns `recv_len`.
-/

namespace TuyaOpen.AiProtocol

open ChunkStream

/-! ### The head of a packet -/

/-- The answers of `tuya_transporter_read`: data, a negative status, and 0 once the stream has
ended. -/
abbrev Transport := List (Event UInt8 { rt : OperateRet // rt < 0 })

/-- A read is repeated after `OPRT_RESOURCE_NOT_READY`. -/
def retryRead (s : { rt : OperateRet // rt < 0 }) : Bool := s.1 = oprtResourceNotReady

/-- The copy of the initialization vector of a head into `decrypt_iv`. -/
def storeIv (p : AiBasicProto) (head : Bytes) : AiBasicProto :=
  if headIvFlag head then p.setDecryptIv (slice head packetHeadSize aiIvLen) else p

/-- The second loop of `__ai_baisc_read_pkt_head`, which reads what belongs to the head behind its
first `sizeof(AI_PACKET_HEAD_T)` bytes. -/
def readHeadRest (p : AiBasicProto) (head : Bytes) (es : Transport) :
    Except OperateRet Bytes × AiBasicProto × Transport :=
  match gather retryRead (ivSize (headIvFlag head) + 4) head head.length es with
  | (.stopped _ _, es) => (.error oprtComError, p, es)
  | (.full buf _, es) => (.ok buf, storeIv p buf, es)

/-- `__ai_baisc_read_pkt_head`. The result of its very first read is returned as it is, any later
one that is not repeated becomes `OPRT_COM_ERROR`. -/
def aiBasicReadPktHead (p : AiBasicProto) (es : Transport) :
    Except OperateRet Bytes × AiBasicProto × Transport :=
  match ChunkStream.read packetHeadSize es with
  | (.closed, es) => (.error 0, p, es)
  | (.status s, es) => (.error s.1, p, es)
  | (.data xs, es) =>
    match gather retryRead (packetHeadSize - xs.length) xs xs.length es with
    | (.stopped _ _, es) => (.error oprtComError, p, es)
    | (.full head _, es) => readHeadRest p head es

/-! ### A packet -/

/-- A packet that has passed all checks: its `frag_flag`, `decrypt_buf` and `decrypt_len`. -/
structure AiFragPacket where
  fragFlag : AiFragFlag
  decryptBuf : Bytes
  decryptLen : Nat
  deriving DecidableEq

/-- How the first part of `tuya_ai_basic_pkt_read` ends: at `EXIT` with a given `recv_len`, with a
return that does not pass `EXIT`, or with a decrypted packet. -/
inductive RecvStage
  | exit (recvLen : OperateRet) (p : AiBasicProto) (es : Transport)
  | ret (rt : OperateRet) (p : AiBasicProto) (es : Transport)
  | packet (pkt : AiFragPacket) (recvLen : OperateRet) (p : AiBasicProto) (es : Transport)

/-- `recv_buf` with the received bytes at its start. -/
def recvBuf (cfg : AiConfig) (recv : Bytes) : Bytes :=
  recv ++ List.replicate (cfg.recvBufSize - recv.length) 0

/-- The part of `tuya_ai_basic_pkt_read` behind the reading loop: signature and decryption of the
packet `recv`, when the last read has returned `recvLen`. -/
def recvCheck (env : AiEnv) (p : AiBasicProto) (recv : Bytes) (recvLen : OperateRet)
    (es : Transport) : Except MemFault RecvStage :=
  let buf := recvBuf env.cfg recv
  let headLen := aiGetHeadLen buf
  let packetLen := aiGetPacketLen buf
  let payloadLen := aiGetPayloadLen buf
  match aiPacketSign env p buf with
  | .error (.fault f) => .error f
  | .error (.err _) => .ok (.exit recvLen p es)
  | .ok calcSign =>
    match readSpan buf (headLen + payloadLen) aiSignLen with
    | none => .error .signature
    | some packetSign =>
      if calcSign ≠ packetSign then .ok (.exit oprtResourceNotReady p es)
      else if env.malloc (u32 (packetLen + headLen + aiAddPktLen)) then
        match aiDecryptPacket env p (slice buf headLen payloadLen)
          (u32 (packetLen + headLen + aiAddPktLen)) with
        | .error (.fault f) => .error f
        | .error (.err _) => .ok (.exit recvLen p es)
        | .ok (decryptBuf, decryptLen, p) =>
          .ok (.packet ⟨headFragFlag buf, decryptBuf, decryptLen⟩ recvLen p es)
      else .ok (.ret oprtMallocFailed p es)

/-- `sequence_in` after a packet with the given sequence has been let in. -/
def nextSequenceIn (sequence : Nat) : Nat := if 0xFFFF ≤ sequence then 0 else sequence

def storeSequence (p : AiBasicProto) (sequence : Nat) : AiBasicProto :=
  { p with sequenceIn := nextSequenceIn sequence }

/-- The part of `tuya_ai_basic_pkt_read` behind `__ai_baisc_read_pkt_head`: the checks of size and
sequence, and the body. -/
def recvBody (env : AiEnv) (p : AiBasicProto) (head : Bytes) (es : Transport) :
    Except MemFault RecvStage :=
  let headLen := aiGetHeadLen head
  let packetLen := aiGetPacketLen head
  if env.cfg.recvBufSize < u32 (packetLen + headLen) then
    .ok (.exit oprtResourceNotReady p es)
  else if headSequence head ≤ p.sequenceIn then .ok (.exit headLen p es)
  else
    let p := storeSequence p (headSequence head)
    match gather retryRead (u32 (packetLen + headLen) - headLen) head headLen es with
    | (.stopped _ none, es) => .ok (.exit 0 p es)
    | (.stopped _ (some s), es) => .ok (.exit s.1 p es)
    | (.full recv last, es) => recvCheck env p recv last es

/-- `tuya_ai_basic_pkt_read` up to the decrypted packet. -/
def recvPacket (env : AiEnv) (p : AiBasicProto) (es : Transport) : Except MemFault RecvStage :=
  match aiBasicReadPktHead p es with
  | (.error rt, p, es) => .ok (.exit rt p es)
  | (.ok head, p, es) => recvBody env p head es

/-! ### Reassembly -/

/-- What a call hands to its caller: `out` with the size of its buffer, `out_len` and `out_frag`;
`shared` says that `out` is `recv_frag_mng.data`. -/
structure AiReadOut where
  data : Bytes
  len : Nat
  frag : AiFragFlag
  shared : Bool
  deriving DecidableEq

/-- How the reassembly of a packet ends: at `EXIT`, with a call for the next packet, or with a
result. -/
inductive AiFragStep
  | exit (p : AiBasicProto)
  | again (p : AiBasicProto)
  | deliver (out : AiReadOut) (p : AiBasicProto)

/-- `frag_offset` and `origin_len` of a first fragment. -/
def startFields (buf : Bytes) : Option (Nat × Nat) :=
  if (buf.getD 0 0).toNat % 2 = 1 then
    match readSpan buf payloadHeadSize 4 with
    | none => none
    | some attrLen =>
      let fragOffset := u32 (payloadHeadSize + 4 + beNat attrLen)
      (readSpan buf fragOffset 4).map fun originLen => (fragOffset, beNat originLen)
  else (readSpan buf payloadHeadSize 4).map fun originLen => (0, beNat originLen)

/-- The copy of `decrypt_len` bytes of a packet to `offset` in `recv_frag_mng.data`. -/
def copyFragment (data : Option Bytes) (offset : Nat) (pkt : AiFragPacket) :
    Except MemFault Bytes :=
  match data with
  | none => .error .fragCopy
  | some buf =>
    if buf.length < offset + pkt.decryptLen then .error .fragCopy
    else
      match readSpan pkt.decryptBuf 0 pkt.decryptLen with
      | none => .error .fragSource
      | some src =>
        match memcpy buf offset src with
        | none => .error .fragCopy
        | some buf => .ok buf

/-- The branch for `AI_PACKET_FRAG_START`. -/
def fragStart (env : AiEnv) (p : AiBasicProto) (pkt : AiFragPacket) : Except MemFault AiFragStep :=
  match startFields pkt.decryptBuf with
  | none => .error .originLen
  | some (fragOffset, originLen) =>
    if originLen ≤ pkt.decryptLen then .ok (.exit p)
    else
      let fragTotalLen := u32 (originLen + fragOffset + aiAddPktLen)
      if env.malloc fragTotalLen then
        match copyFragment (some (List.replicate fragTotalLen 0)) 0 pkt with
        | .error f => .error f
        | .ok buf => .ok (.again { p with recvFragMng := ⟨.fragStart, pkt.decryptLen, some buf⟩ })
      else .ok (.exit { p with recvFragMng := ⟨.fragStart, 0, none⟩ })

/-- The common part of the branches for `AI_PACKET_FRAG_ING` and `AI_PACKET_FRAG_END`: the
fragment is appended. -/
def appendFragment (mng : AiRecvFragMng) (pkt : AiFragPacket) : Except MemFault AiRecvFragMng :=
  match copyFragment mng.data mng.offset pkt with
  | .error f => .error f
  | .ok buf => .ok ⟨pkt.fragFlag, mng.offset + pkt.decryptLen, some buf⟩

/-- The branches of `tuya_ai_basic_pkt_read` on the fragment flags, for a decrypted packet. -/
def fragProcess (env : AiEnv) (p : AiBasicProto) (pkt : AiFragPacket) :
    Except MemFault AiFragStep :=
  if p.fragFlag then
    .ok (.deliver ⟨pkt.decryptBuf, pkt.decryptLen, pkt.fragFlag, false⟩ p)
  else if p.recvFragMng.Pending ∧ pkt.fragFlag ≠ .fragIng ∧ pkt.fragFlag ≠ .fragEnd then
    .ok (.exit p)
  else
    match pkt.fragFlag with
    | .fragStart => fragStart env p pkt
    | .fragIng =>
      match appendFragment p.recvFragMng pkt with
      | .error f => .error f
      | .ok mng => .ok (.again { p with recvFragMng := mng })
    | .fragEnd =>
      match appendFragment p.recvFragMng pkt with
      | .error f => .error f
      | .ok mng =>
        .ok (.deliver ⟨mng.data.getD [], mng.offset, .noFrag, true⟩ { p with recvFragMng := mng })
    | .noFrag => .ok (.deliver ⟨pkt.decryptBuf, pkt.decryptLen, .noFrag, false⟩ p)

/-! ### The call -/

/-- The result of `tuya_ai_basic_pkt_read`: its return value, what it has handed out, and the
state and the stream it leaves behind. -/
structure AiReadResult where
  rt : OperateRet
  out : Option AiReadOut
  proto : AiBasicProto
  transport : Transport

/-- The label `EXIT`. -/
def exitRead (recvLen : OperateRet) (p : AiBasicProto) (es : Transport) : AiReadResult :=
  ⟨recvLen, none, p.clearFrag, es⟩

/-- `tuya_ai_basic_pkt_read`, nested at most `fuel` deep. -/
def pktReadLoop (env : AiEnv) :
    Nat → AiBasicProto → Transport → Option (Except MemFault AiReadResult)
  | 0, _, _ => none
  | fuel + 1, p, es =>
    match recvPacket env p es with
    | .error f => some (.error f)
    | .ok (.exit recvLen p es) => some (.ok (exitRead recvLen p es))
    | .ok (.ret rt p es) => some (.ok ⟨rt, none, p, es⟩)
    | .ok (.packet pkt recvLen p es) =>
      match fragProcess env p pkt with
      | .error f => some (.error f)
      | .ok (.exit p) => some (.ok (exitRead recvLen p es))
      | .ok (.deliver out p) => some (.ok ⟨oprtOk, some out, p, es⟩)
      | .ok (.again p) =>
        match pktReadLoop env fuel p es with
        | none => none
        | some (.error f) => some (.error f)
        | some (.ok r) =>
          if r.rt = oprtOk then some (.ok r)
          else some (.ok (exitRead recvLen r.proto r.transport))

/-- `tuya_ai_basic_pkt_read`. Every packet takes bytes from the stream, which bounds the nesting. -/
def tuyaAiBasicPktRead (env : AiEnv) (p : AiBasicProto) (es : Transport) :
    Option (Except MemFault AiReadResult) :=
  pktReadLoop env ((content es).length + 1) p es

/-- `tuya_ai_basic_pkt_free`. -/
def tuyaAiBasicPktFree (p : AiBasicProto) (out : AiReadOut) : AiBasicProto :=
  if out.shared then p.clearFrag else p

/-- `__ai_running` after its call of `tuya_ai_basic_pkt_read` has given `r`: its return value and
the new state. What the handlers of a packet do is left out, they do not touch the receiving
side. -/
def aiRunning (r : AiReadResult) : OperateRet × AiBasicProto :=
  if r.rt = oprtResourceNotReady then (oprtOk, r.proto)
  else
    match r.out with
    | none => (r.rt, r.proto)
    | some out => if r.rt = oprtOk then (r.rt, tuyaAiBasicPktFree r.proto out) else (r.rt, r.proto)

/-! ### What reading a head does -/

section Head

variable {p p' : AiBasicProto} {es es' : Transport} {head rest : Bytes}

theorem storeIv_append (hhead : packetHeadSize + aiIvLen ≤ head.length) (p : AiBasicProto) :
    storeIv p (head ++ rest) = storeIv p head := by
  rw [storeIv, headIvFlag_append (by omega), slice_append_left hhead, storeIv]

theorem headRest_length {pre post : Bytes} (hpre : pre.length = packetHeadSize)
    (hpost : post.length = ivSize (headIvFlag pre) + 4) :
    (pre ++ post).length = aiGetHeadLen (pre ++ post) := by
  rw [aiGetHeadLen, headIvFlag_append hpre.ge, List.length_append, hpre, hpost, Nat.add_assoc]

/-- The two ways in which reading a head can end. With an error the state is as before, and
unless the error is `OPRT_COM_ERROR` nothing has been taken from the stream; else the head has
been taken and its initialization vector stored. -/
theorem aiBasicReadPktHead_cases {res : Except OperateRet Bytes}
    (h : aiBasicReadPktHead p es = (res, p', es')) :
    (∃ rt, res = .error rt ∧ p' = p ∧ rt ≤ 0 ∧
        ∃ xs, content es = xs ++ content es' ∧ (rt = oprtComError ∨ xs = [])) ∨
      ∃ head, res = .ok head ∧ p' = storeIv p head ∧ head.length = aiGetHeadLen head ∧
        content es = head ++ content es' := by
  unfold aiBasicReadPktHead at h
  have hcom : oprtComError ≤ 0 := by decide
  match es with
  | [] =>
    simp only [ChunkStream.read, Prod.mk.injEq] at h
    obtain ⟨rfl, rfl, rfl⟩ := h
    exact .inl ⟨0, rfl, rfl, Int.le_refl 0, [], rfl, .inr rfl⟩
  | .status s :: es =>
    simp only [ChunkStream.read, Prod.mk.injEq] at h
    obtain ⟨rfl, rfl, rfl⟩ := h
    exact .inl ⟨s.1, rfl, rfl, Int.le_of_lt s.2, [], rfl, .inr rfl⟩
  | .chunk x xs :: es =>
    simp only [ChunkStream.read] at h
    have hc : content (.chunk x xs :: es : Transport) = (x :: xs).take packetHeadSize ++
        content (pushBack ((x :: xs).drop packetHeadSize) es) := by
      rw [content_pushBack, ← List.append_assoc, List.take_append_drop]
      rfl
    split at h
    · next es₁ hg =>
      obtain ⟨rfl, rfl, rfl⟩ := h
      obtain ⟨⟨ys, -, -, hys⟩, -⟩ := gather_stopped hg
      exact .inl ⟨_, rfl, rfl, hcom, _, by rw [hc, hys, ← List.append_assoc], .inl rfl⟩
    · next pre last es₁ hg =>
      obtain ⟨ys, hlen, rfl, hys⟩ := gather_full hg
      set pre := (x :: xs).take packetHeadSize ++ ys with hpredef
      have hpre : pre.length = packetHeadSize := by
        have htake : ((x :: xs).take packetHeadSize).length ≤ packetHeadSize := by
          rw [List.length_take]
          omega
        rw [hpredef, List.length_append, hlen]
        omega
      have hc₁ : content (.chunk x xs :: es : Transport) = pre ++ content es₁ := by
        rw [hc, hys, List.append_assoc]
      unfold readHeadRest at h
      split at h
      · next es₂ hg₂ =>
        obtain ⟨rfl, rfl, rfl⟩ := h
        obtain ⟨⟨zs, -, -, hzs⟩, -⟩ := gather_stopped hg₂
        exact .inl ⟨_, rfl, rfl, hcom, pre ++ zs, by rw [hc₁, hzs, ← List.append_assoc], .inl rfl⟩
      · next buf last₂ es₂ hg₂ =>
        obtain ⟨rfl, rfl, rfl⟩ := h
        obtain ⟨zs, hlen₂, rfl, hzs⟩ := gather_full hg₂
        exact .inr ⟨_, rfl, rfl, headRest_length hpre hlen₂,
          by rw [hc₁, hzs, ← List.append_assoc]⟩

def StartsWithData (es : Transport) : Prop := ∃ x xs es', es = .chunk x xs :: es'

theorem startsWithData_of_allData (h : AllData es)
    (hne : content es ≠ []) : StartsWithData es := by
  cases es with
  | nil => exact absurd rfl hne
  | cons e es =>
    obtain ⟨x, xs, rfl⟩ := h e List.mem_cons_self
    exact ⟨x, xs, es, rfl⟩

theorem aiBasicReadPktHead_of_quiet (p : AiBasicProto) (hq : Quiet retryRead es)
    (hs : StartsWithData es) (hhead : head.length = aiGetHeadLen head)
    (hc : content es = head ++ rest) :
    ∃ es', aiBasicReadPktHead p es = (.ok head, storeIv p head, es') ∧ content es' = rest ∧
      Quiet retryRead es' ∧ (AllData es → AllData es') := by
  obtain ⟨x, xs, es, rfl⟩ := hs
  have hsize : packetHeadSize ≤ head.length := by
    rw [hhead, aiGetHeadLen]
    omega
  set first := (x :: xs).take packetHeadSize with hfirst
  set es₁ : Transport := pushBack ((x :: xs).drop packetHeadSize) es with hes₁
  have hq₁ : Quiet retryRead es₁ := hq.tail.pushBack
  have hc₁ : first ++ content es₁ = head ++ rest := by
    rw [← hc, hes₁, content_pushBack, hfirst, ← List.append_assoc, List.take_append_drop]
    rfl
  have hlen : first.length ≤ packetHeadSize := by
    rw [hfirst, List.length_take]
    omega
  have htotal := congrArg List.length hc₁
  rw [List.length_append, List.length_append] at htotal
  obtain ⟨last, es₂, hg, hc₂, hq₂, hall₂⟩ := exists_gather_of_quiet
    (packetHeadSize - first.length) first.length first hq₁ (by omega)
  -- The first two steps have taken the first bytes of the head, the third takes the others.
  have hpre : first ++ (content es₁).take (packetHeadSize - first.length) =
      head.take packetHeadSize := by
    calc first ++ (content es₁).take (packetHeadSize - first.length)
        = (first ++ content es₁).take packetHeadSize := by
          rw [List.take_append, List.take_of_length_le hlen]
      _ = head.take packetHeadSize := by rw [hc₁, List.take_append_of_le_length hsize]
  have hc₂' : content es₂ = head.drop packetHeadSize ++ rest := by
    calc content es₂
        = (first ++ content es₁).drop packetHeadSize := by
          rw [hc₂, List.drop_append, List.drop_of_length_le hlen, List.nil_append]
      _ = head.drop packetHeadSize ++ rest := by rw [hc₁, List.drop_append_of_le_length hsize]
  rw [hpre] at hg
  have hiv : headIvFlag (head.take packetHeadSize) = headIvFlag head := by
    have hprelen : packetHeadSize ≤ (head.take packetHeadSize).length := by
      rw [List.length_take]
      omega
    rw [← headIvFlag_append hprelen (head.drop packetHeadSize), List.take_append_drop]
  have hneed : ivSize (headIvFlag head) + 4 = (head.drop packetHeadSize).length := by
    rw [List.length_drop, hhead, aiGetHeadLen]
    omega
  obtain ⟨last', es₃, hg', hc₃, hq₃, hall₃⟩ := exists_gather_of_quiet
    (ivSize (headIvFlag head) + 4) (head.take packetHeadSize).length (head.take packetHeadSize) hq₂
    (by rw [hc₂', List.length_append]; omega)
  rw [hc₂', hneed, List.take_left, List.take_append_drop] at hg'
  rw [hc₂', hneed, List.drop_left] at hc₃
  refine ⟨es₃, ?_, hc₃, hq₃, fun hall => hall₃ (hall₂ hall.tail.pushBack)⟩
  simp only [aiBasicReadPktHead, ChunkStream.read, ← hfirst, ← hes₁, hg, readHeadRest, hiv, hneed,
    hg']

end Head

/-! ### What reading a packet does -/

section Packet

variable {env : AiEnv} {p : AiBasicProto} {es : Transport} {head recv : Bytes} {st : RecvStage}

theorem recvPacket_cases (h : recvPacket env p es = .ok st) :
    (∃ rt es', st = .exit rt p es' ∧ rt ≤ 0 ∧
        ∃ xs, content es = xs ++ content es' ∧ (rt = oprtComError ∨ xs = [])) ∨
      ∃ head es', head.length = aiGetHeadLen head ∧ content es = head ++ content es' ∧
        recvBody env (storeIv p head) head es' = .ok st := by
  unfold recvPacket at h
  split at h
  · next rt p' es' hread =>
    obtain rfl := Except.ok.inj h
    rcases aiBasicReadPktHead_cases hread with ⟨rt', hrt, rfl, hle, hxs⟩ | ⟨head, hok, -⟩
    · cases hrt
      exact .inl ⟨rt, es', rfl, hle, hxs⟩
    · cases hok
  · next head p' es' hread =>
    rcases aiBasicReadPktHead_cases hread with ⟨rt', hrt, -⟩ | ⟨head', hok, rfl, hlen, hc⟩
    · cases hrt
    · cases hok
      exact .inr ⟨head, es', hlen, hc, h⟩

def bodyNeed (head : Bytes) : Nat :=
  u32 (aiGetPacketLen head + aiGetHeadLen head) - aiGetHeadLen head

theorem recvBody_cases (h : recvBody env p head es = .ok st) :
    (env.cfg.recvBufSize < u32 (aiGetPacketLen head + aiGetHeadLen head) ∧
        st = .exit oprtResourceNotReady p es) ∨
      u32 (aiGetPacketLen head + aiGetHeadLen head) ≤ env.cfg.recvBufSize ∧
        ((headSequence head ≤ p.sequenceIn ∧ st = .exit (aiGetHeadLen head) p es) ∨
          p.sequenceIn < headSequence head ∧
            ((∃ rt es' xs, st = .exit rt (storeSequence p (headSequence head)) es' ∧ rt ≤ 0 ∧
                rt ≠ oprtResourceNotReady ∧ xs.length < bodyNeed head ∧
                  content es = xs ++ content es' ∧ (rt = oprtOk → es' = [])) ∨
              ∃ body last es', 0 < last ∧ body.length = bodyNeed head ∧
                content es = body ++ content es' ∧
                  recvCheck env (storeSequence p (headSequence head)) (head ++ body)
                    (last : Nat) es' = .ok st)) := by
  simp only [recvBody] at h
  split_ifs at h with hsize hseq
  · exact .inl ⟨hsize, (Except.ok.inj h).symm⟩
  · exact .inr ⟨by omega, .inl ⟨hseq, (Except.ok.inj h).symm⟩⟩
  · refine .inr ⟨by omega, .inr ⟨by omega, ?_⟩⟩
    split at h
    · next got es' hg =>
      obtain ⟨⟨xs, hlen, -, hc⟩, hend, -⟩ := gather_stopped hg
      exact .inl ⟨0, es', xs, (Except.ok.inj h).symm, Int.le_refl 0, by decide, hlen, hc,
        fun _ => hend rfl⟩
    · next got s es' hg =>
      obtain ⟨⟨xs, hlen, -, hc⟩, -, hretry⟩ := gather_stopped hg
      have hne : s.1 ≠ oprtResourceNotReady := by simpa [retryRead] using hretry s rfl
      exact .inl ⟨s.1, es', xs, (Except.ok.inj h).symm, Int.le_of_lt s.2, hne, hlen, hc,
        fun hok => absurd hok (Int.ne_of_lt s.2)⟩
    · next recv last es' hg =>
      have hlast := gather_last_pos (Nat.lt_of_lt_of_le (by decide) (nine_le_aiGetHeadLen head)) hg
      obtain ⟨body, hlen, rfl, hc⟩ := gather_full hg
      exact .inr ⟨body, last, es', hlast, hlen, hc, h⟩

theorem recvBody_of_quiet {body rest : Bytes} (hq : Quiet retryRead es)
    (hsize : u32 (aiGetPacketLen head + aiGetHeadLen head) ≤ env.cfg.recvBufSize)
    (hseq : p.sequenceIn < headSequence head) (hbody : body.length = bodyNeed head)
    (hc : content es = body ++ rest) :
    ∃ last es', 0 < last ∧ content es' = rest ∧ Quiet retryRead es' ∧ (AllData es → AllData es') ∧
      recvBody env p head es =
        recvCheck env (storeSequence p (headSequence head)) (head ++ body) (last : Nat) es' := by
  obtain ⟨last, es', hg, hc', hq', hall⟩ := exists_gather_of_quiet (bodyNeed head)
    (aiGetHeadLen head) head hq (by rw [hc, List.length_append]; omega)
  have hlast := gather_last_pos (Nat.lt_of_lt_of_le (by decide) (nine_le_aiGetHeadLen head)) hg
  rw [hc, ← hbody, List.take_left] at hg
  rw [hc, ← hbody, List.drop_left] at hc'
  refine ⟨last, es', hlast, hc', hq', hall, ?_⟩
  rw [hbody, bodyNeed] at hg
  simp only [recvBody, if_neg (Nat.not_lt.mpr hsize), if_neg (Nat.not_le.mpr hseq), hg]

theorem length_recvBuf {cfg : AiConfig} (h : recv.length ≤ cfg.recvBufSize) :
    (recvBuf cfg recv).length = cfg.recvBufSize := by
  rw [recvBuf, List.length_append, List.length_replicate]
  omega

/-- A packet is a head, and as many bytes behind it as its length field says. -/
def IsFramed (pkt : Bytes) : Prop := pkt.length = aiGetHeadLen pkt + aiGetPacketLen pkt

def packetSign (pkt : Bytes) : Bytes := pkt.drop (aiGetHeadLen pkt + aiGetPayloadLen pkt)

theorem aiGetPayloadLen_add {pkt : Bytes} (h : aiSignLen ≤ aiGetPacketLen pkt) :
    aiGetPayloadLen pkt + aiSignLen = aiGetPacketLen pkt := by
  rw [aiGetPayloadLen, u32Sub_of_le (aiGetPacketLen_lt pkt) h]
  omega

theorem IsFramed.le_length {pkt : Bytes} (h : IsFramed pkt) : aiGetHeadLen pkt ≤ pkt.length := by
  rw [h]
  omega

theorem IsFramed.recvBuf {pkt : Bytes} (h : IsFramed pkt) (cfg : AiConfig) :
    aiGetHeadLen (recvBuf cfg pkt) = aiGetHeadLen pkt ∧
      aiGetPacketLen (recvBuf cfg pkt) = aiGetPacketLen pkt ∧
        aiGetPayloadLen (recvBuf cfg pkt) = aiGetPayloadLen pkt ∧
          headFragFlag (recvBuf cfg pkt) = headFragFlag pkt := by
  have hle := h.le_length
  have hsize : packetHeadSize ≤ pkt.length := by
    rw [aiGetHeadLen] at hle
    omega
  refine ⟨aiGetHeadLen_append hsize _, aiGetPacketLen_append hle _, ?_,
    headFragFlag_append hsize _⟩
  rw [aiGetPayloadLen, TuyaOpen.AiProtocol.recvBuf, aiGetPacketLen_append hle, aiGetPayloadLen]

theorem exists_head_of_isFramed {pkt : Bytes} (h : IsFramed pkt) :
    ∃ body, pkt = pkt.take (aiGetHeadLen pkt) ++ body ∧ body.length = aiGetPacketLen pkt ∧
      (pkt.take (aiGetHeadLen pkt)).length = aiGetHeadLen (pkt.take (aiGetHeadLen pkt)) ∧
      aiGetHeadLen (pkt.take (aiGetHeadLen pkt)) = aiGetHeadLen pkt ∧
      aiGetPacketLen (pkt.take (aiGetHeadLen pkt)) = aiGetPacketLen pkt ∧
      headSequence (pkt.take (aiGetHeadLen pkt)) = headSequence pkt ∧
      ∀ q, storeIv q (pkt.take (aiGetHeadLen pkt)) = storeIv q pkt := by
  have hle := h.le_length
  set head := pkt.take (aiGetHeadLen pkt) with hhead
  set body := pkt.drop (aiGetHeadLen pkt) with hbody
  have hsplit : pkt = head ++ body := (List.take_append_drop _ _).symm
  have hlen : head.length = aiGetHeadLen pkt := by
    rw [hhead, List.length_take]
    omega
  have hsize : packetHeadSize ≤ head.length := by
    rw [hlen, aiGetHeadLen]
    omega
  have h1 : aiGetHeadLen head = aiGetHeadLen pkt := by
    conv_rhs => rw [hsplit, aiGetHeadLen_append hsize]
  have h2 : aiGetPacketLen head = aiGetPacketLen pkt := by
    conv_rhs => rw [hsplit, aiGetPacketLen_append (by omega)]
  have h3 : headSequence head = headSequence pkt := by
    conv_rhs => rw [hsplit, headSequence_append hsize]
  have hflag : headIvFlag pkt = headIvFlag head := by
    rw [hsplit, headIvFlag_append hsize]
  refine ⟨body, hsplit, ?_, hlen.trans h1.symm, h1, h2, h3, fun q => ?_⟩
  · have hframe : pkt.length = aiGetHeadLen pkt + aiGetPacketLen pkt := h
    rw [hbody, List.length_drop]
    omega
  · by_cases hiv : headIvFlag head = true
    · have hspan : packetHeadSize + aiIvLen ≤ head.length := by
        rw [hlen, ← h1, aiGetHeadLen, hiv]
        simp [ivSize]
      conv_rhs => rw [hsplit, storeIv_append hspan]
    · rw [storeIv, storeIv, hflag, if_neg hiv, if_neg hiv]

theorem storeIv_sequenceIn (p : AiBasicProto) (head : Bytes) :
    (storeIv p head).sequenceIn = p.sequenceIn := by
  unfold storeIv
  split <;> rfl

theorem exists_recvBody_of_isFramed {pkt rest : Bytes} (hq : Quiet retryRead es)
    (hs : StartsWithData es) (hc : content es = pkt ++ rest) (hpkt : IsFramed pkt) :
    ∃ body es', pkt = pkt.take (aiGetHeadLen pkt) ++ body ∧
      recvPacket env p es = recvBody env (storeIv p pkt) (pkt.take (aiGetHeadLen pkt)) es' ∧
      content es' = body ++ rest ∧ Quiet retryRead es' ∧ (AllData es → AllData es') := by
  obtain ⟨body, hsplit, -, hhead, -, -, -, hiv⟩ := exists_head_of_isFramed hpkt
  set head := pkt.take (aiGetHeadLen pkt) with hheaddef
  obtain ⟨es', hread, hc', hq', hall⟩ := aiBasicReadPktHead_of_quiet p hq hs hhead
    (by rw [hc, hsplit, List.append_assoc] : content es = head ++ (body ++ rest))
  refine ⟨body, es', hsplit, ?_, hc', hq', hall⟩
  rw [recvPacket, hread, ← hiv]

theorem recvPacket_of_oversize {pkt rest : Bytes} (hq : Quiet retryRead es)
    (hs : StartsWithData es) (hc : content es = pkt ++ rest) (hpkt : IsFramed pkt)
    (hsize : env.cfg.recvBufSize < u32 (aiGetPacketLen pkt + aiGetHeadLen pkt)) :
    ∃ es', recvPacket env p es = .ok (.exit oprtResourceNotReady (storeIv p pkt) es') := by
  obtain ⟨-, -, -, -, hhl, hpl, -⟩ := exists_head_of_isFramed hpkt
  obtain ⟨body, es', -, hrecv, -⟩ := @exists_recvBody_of_isFramed env p es pkt rest hq hs hc hpkt
  refine ⟨es', ?_⟩
  rw [hrecv, recvBody, hhl, hpl, if_pos hsize]

theorem recvPacket_of_sequence_le {pkt rest : Bytes} (hq : Quiet retryRead es)
    (hs : StartsWithData es) (hc : content es = pkt ++ rest) (hpkt : IsFramed pkt)
    (hsize : u32 (aiGetPacketLen pkt + aiGetHeadLen pkt) ≤ env.cfg.recvBufSize)
    (hseq : headSequence pkt ≤ p.sequenceIn) :
    ∃ es', recvPacket env p es = .ok (.exit (aiGetHeadLen pkt) (storeIv p pkt) es') := by
  obtain ⟨-, -, -, -, hhl, hpl, hheadseq, -⟩ := exists_head_of_isFramed hpkt
  obtain ⟨body, es', -, hrecv, -⟩ := @exists_recvBody_of_isFramed env p es pkt rest hq hs hc hpkt
  refine ⟨es', ?_⟩
  rw [hrecv, recvBody, hhl, hpl, if_neg (Nat.not_lt.mpr hsize), hheadseq, storeIv_sequenceIn,
    if_pos hseq]

/-- A whole packet that fits `recv_buf` and arrives in any chunks is rejected for its sequence, or
read to its end and checked. -/
theorem recvPacket_of_isFramed {pkt rest : Bytes} (hq : Quiet retryRead es)
    (hs : StartsWithData es) (hc : content es = pkt ++ rest) (hpkt : IsFramed pkt)
    (hfit : pkt.length ≤ env.cfg.recvBufSize) :
    (headSequence pkt ≤ p.sequenceIn →
        ∃ es', recvPacket env p es = .ok (.exit (aiGetHeadLen pkt) (storeIv p pkt) es')) ∧
      (p.sequenceIn < headSequence pkt →
        ∃ last es', 0 < last ∧ content es' = rest ∧ (AllData es → AllData es') ∧
          recvPacket env p es =
            recvCheck env (storeSequence (storeIv p pkt) (headSequence pkt)) pkt (last : Nat)
              es') := by
  obtain ⟨-, -, -, -, hhl, hpl, hheadseq, -⟩ := exists_head_of_isFramed hpkt
  have hM := env.cfg.maxFragmentLength_le
  have hframe : pkt.length = aiGetHeadLen pkt + aiGetPacketLen pkt := hpkt
  have hu : u32 (aiGetPacketLen pkt + aiGetHeadLen pkt) =
      aiGetPacketLen pkt + aiGetHeadLen pkt := by
    refine u32_of_lt ?_
    simp only [AiConfig.recvBufSize, aiAddPktLen] at hfit
    omega
  have hsize : u32 (aiGetPacketLen pkt + aiGetHeadLen pkt) ≤ env.cfg.recvBufSize := by
    rw [hu]
    omega
  refine ⟨recvPacket_of_sequence_le hq hs hc hpkt hsize, fun hseq => ?_⟩
  obtain ⟨body, es₁, hsplit, hrecv, hc₁, hq₁, hall₁⟩ :=
    @exists_recvBody_of_isFramed env p es pkt rest hq hs hc hpkt
  set head := pkt.take (aiGetHeadLen pkt) with hheaddef
  have hneed : body.length = bodyNeed head := by
    have hlen := congrArg List.length hsplit
    rw [List.length_append, hheaddef, List.length_take, min_eq_left hpkt.le_length] at hlen
    rw [bodyNeed, hhl, hpl, hu]
    omega
  rw [← hhl, ← hpl] at hsize
  rw [← hheadseq, ← storeIv_sequenceIn p pkt] at hseq
  obtain ⟨last, es₂, hlast, hc₂, -, hall₂, hbodyeq⟩ := recvBody_of_quiet hq₁ hsize hseq hneed hc₁
  refine ⟨last, es₂, hlast, hc₂, fun hall => hall₂ (hall₁ hall), ?_⟩
  rw [hrecv, hbodyeq, hheadseq, ← hsplit]

theorem recvCheck_of_isFramed {pkt : Bytes} (recvLen : OperateRet) (h : IsFramed pkt)
    (hsign : aiSignLen ≤ aiGetPacketLen pkt) (hfit : pkt.length ≤ env.cfg.recvBufSize) :
    recvCheck env p pkt recvLen es =
      match aiPacketSign env p pkt with
      | .error (.fault f) => .error f
      | .error (.err _) => .ok (.exit recvLen p es)
      | .ok calcSign =>
        if calcSign ≠ packetSign pkt then .ok (.exit oprtResourceNotReady p es)
        else if env.malloc (pkt.length + aiAddPktLen) then
          match aiDecryptPacket env p (slice pkt (aiGetHeadLen pkt) (aiGetPayloadLen pkt))
            (pkt.length + aiAddPktLen) with
          | .error (.fault f) => .error f
          | .error (.err _) => .ok (.exit recvLen p es)
          | .ok (decryptBuf, decryptLen, p) =>
            .ok (.packet ⟨headFragFlag pkt, decryptBuf, decryptLen⟩ recvLen p es)
        else .ok (.ret oprtMallocFailed p es) := by
  have hM := env.cfg.maxFragmentLength_le
  have hpl := aiGetPayloadLen_add hsign
  have hframe : pkt.length = aiGetHeadLen pkt + aiGetPacketLen pkt := h
  obtain ⟨hhead, hlen, hpayload, hfrag⟩ := h.recvBuf env.cfg
  have hlt : pkt.length + aiAddPktLen < 4294967296 := by
    simp only [AiConfig.recvBufSize, aiAddPktLen] at hfit ⊢
    omega
  have hsigned : aiPacketSign env p (recvBuf env.cfg pkt) = aiPacketSign env p pkt :=
    aiPacketSign_append h.le_length (by omega) (by omega) _
  have hspan : readSpan (recvBuf env.cfg pkt) (aiGetHeadLen pkt + aiGetPayloadLen pkt) aiSignLen =
      some (packetSign pkt) := by
    have hend : aiGetHeadLen pkt + aiGetPayloadLen pkt + aiSignLen = pkt.length := by omega
    rw [recvBuf, readSpan_append_left hend.le, readSpan_of_le hend.le, slice, packetSign,
      List.take_of_length_le (by rw [List.length_drop]; omega)]
  have hslice : slice (recvBuf env.cfg pkt) (aiGetHeadLen pkt) (aiGetPayloadLen pkt) =
      slice pkt (aiGetHeadLen pkt) (aiGetPayloadLen pkt) := slice_append_left (by omega)
  have hsize : u32 (aiGetPacketLen pkt + aiGetHeadLen pkt + aiAddPktLen) =
      pkt.length + aiAddPktLen := by
    rw [u32_of_lt (by omega)]
    omega
  simp only [recvCheck, hhead, hlen, hpayload, hfrag, hsigned, hspan, hslice, hsize]

theorem recvCheck_of_wrap (recvLen : OperateRet) (hlen : head.length = aiGetHeadLen head)
    (hwrap : 4294967296 ≤ aiGetHeadLen head + aiGetPacketLen head) :
    recvCheck env p head recvLen es = .error .signSlice := by
  have hM := env.cfg.maxFragmentLength_le
  have hle := aiGetHeadLen_le head
  have hnine := nine_le_aiGetHeadLen head
  have hlt := aiGetPacketLen_lt head
  have hsize : packetHeadSize ≤ head.length := by
    rw [hlen, aiGetHeadLen]
    omega
  have hpl : aiGetPayloadLen head + aiSignLen = aiGetPacketLen head :=
    aiGetPayloadLen_add (by simp only [aiSignLen]; omega)
  have hhead : aiGetHeadLen (recvBuf env.cfg head) = aiGetHeadLen head :=
    aiGetHeadLen_append hsize _
  have hpayload : aiGetPayloadLen (recvBuf env.cfg head) = aiGetPayloadLen head := by
    rw [aiGetPayloadLen, recvBuf, aiGetPacketLen_append hlen.ge, aiGetPayloadLen]
  have hbuf : (recvBuf env.cfg head).length ≤ 512128 := by
    have hmin := env.cfg.le_maxFragmentLength
    rw [length_recvBuf (by simp only [AiConfig.recvBufSize]; omega)]
    simp only [AiConfig.recvBufSize, aiAddPktLen]
    omega
  simp only [aiSignLen] at hpl
  have hspans : signSpans (aiGetHeadLen head) (aiGetPayloadLen head) =
      [(0, 32), (aiGetHeadLen head + (aiGetPayloadLen head - 32), 32)] := by
    rw [signSpans, u32_of_lt (by omega), if_neg (by omega), if_pos (by omega)]
  have hnone : readSpans (recvBuf env.cfg head)
      [(0, 32), (aiGetHeadLen head + (aiGetPayloadLen head - 32), 32)] = none := by
    rw [← Option.not_isSome_iff_eq_none, readSpans_isSome_iff]
    intro hall
    have hlast := hall _ (List.mem_cons_of_mem _ List.mem_cons_self)
    simp only at hlast
    omega
  have hsign : aiPacketSign env p (recvBuf env.cfg head) = .error (.fault .signSlice) := by
    rw [aiPacketSign, signData, hhead, hpayload, hspans, hnone]
    rfl
  simp only [recvCheck, hsign]

/-- The check of a whole packet leaves the stream alone. It stops at the signature, at the
allocation or in the decryption, or it gives the decrypted packet. -/
theorem recvCheck_cases {recvLen : OperateRet} (h : recvCheck env p recv recvLen es = .ok st) :
    st = .exit recvLen p es ∨ st = .exit oprtResourceNotReady p es ∨
      st = .ret oprtMallocFailed p es ∨
        ∃ pkt iv, st = .packet pkt recvLen (p.setDecryptIv iv) es := by
  simp only [recvCheck] at h
  split at h
  · cases h
  · exact .inl (Except.ok.inj h).symm
  · split at h
    · cases h
    · split_ifs at h
      · exact .inr (.inl (Except.ok.inj h).symm)
      · split at h
        · cases h
        · exact .inl (Except.ok.inj h).symm
        · next hdec =>
          obtain ⟨iv, rfl⟩ := aiDecryptPacket_frame hdec
          exact .inr (.inr (.inr ⟨_, iv, (Except.ok.inj h).symm⟩))
      · exact .inr (.inr (.inl (Except.ok.inj h).symm))

def RecvStage.proto : RecvStage → AiBasicProto
  | .exit _ p _ => p
  | .ret _ p _ => p
  | .packet _ _ p _ => p

theorem recvPacket_frame (h : recvPacket env p es = .ok st) :
    st.proto.recvFragMng = p.recvFragMng ∧ st.proto.fragFlag = p.fragFlag := by
  have hiv (head : Bytes) : (storeIv p head).recvFragMng = p.recvFragMng ∧
      (storeIv p head).fragFlag = p.fragFlag := by
    unfold storeIv
    split <;> exact ⟨rfl, rfl⟩
  rcases recvPacket_cases h with ⟨rt, es₁, rfl, -⟩ | ⟨head, es₁, -, -, hbody⟩
  · exact ⟨rfl, rfl⟩
  · rcases recvBody_cases hbody with ⟨-, rfl⟩ | ⟨-, ⟨-, rfl⟩ | ⟨-, hrest⟩⟩
    · exact hiv head
    · exact hiv head
    · rcases hrest with ⟨rt, es₂, xs, rfl, -⟩ | ⟨body, last, es₂, -, -, -, hcheck⟩
      · exact hiv head
      · rcases recvCheck_cases hcheck with rfl | rfl | rfl | ⟨_, _, rfl⟩ <;> exact hiv head

theorem recvPacket_ne_fragCopy : recvPacket env p es ≠ .error .fragCopy := by
  intro h
  unfold recvPacket at h
  split at h
  · cases h
  simp only [recvBody] at h
  split_ifs at h
  split at h
  · cases h
  · cases h
  simp only [recvCheck] at h
  split at h
  · next f hsign =>
    cases h
    cases (fault_of_aiPacketSign hsign).1
  · cases h
  split at h
  · cases h
  split_ifs at h
  split at h
  · next f hdec =>
    cases h
    exact aiDecryptPacket_ne_fragCopy hdec
  · cases h
  · cases h

theorem recvPacket_ret {rt : OperateRet} {p' : AiBasicProto} {es' : Transport}
    (h : recvPacket env p es = .ok (.ret rt p' es')) : rt = oprtMallocFailed := by
  rcases recvPacket_cases h with ⟨_, _, hst, -⟩ | ⟨head, es₁, -, -, hbody⟩
  · cases hst
  · rcases recvBody_cases hbody with ⟨-, hst⟩ | ⟨-, ⟨-, hst⟩ | ⟨-, hrest⟩⟩
    · cases hst
    · cases hst
    · rcases hrest with ⟨_, _, _, hst, -⟩ | ⟨body, last, es₂, -, -, -, hcheck⟩
      · cases hst
      · rcases recvCheck_cases hcheck with hst | hst | hst | ⟨_, _, hst⟩ <;> cases hst
        rfl

theorem length_content_of_packet {pkt : AiFragPacket} {recvLen : OperateRet} {p' : AiBasicProto}
    {es' : Transport} (h : recvPacket env p es = .ok (.packet pkt recvLen p' es')) :
    (content es').length < (content es).length := by
  rcases recvPacket_cases h with ⟨rt, es₁, hst, -⟩ | ⟨head, es₁, hhead, hc, hbody⟩
  · cases hst
  · rcases recvBody_cases hbody with ⟨-, hst⟩ | ⟨-, ⟨-, hst⟩ | ⟨-, hrest⟩⟩
    · cases hst
    · cases hst
    · rcases hrest with ⟨rt, es₂, xs, hst, -⟩ | ⟨body, last, es₂, -, -, hc₂, hcheck⟩
      · cases hst
      · rcases recvCheck_cases hcheck with hst | hst | hst | ⟨_, _, hst⟩
        · cases hst
        · cases hst
        · cases hst
        · cases hst
          have hpos := nine_le_aiGetHeadLen head
          rw [hc, hc₂, List.length_append, List.length_append]
          omega

end Packet

/-! ### The recursion -/

section Loop

variable {env : AiEnv} {p : AiBasicProto} {es : Transport} {r : Except MemFault AiReadResult}

theorem pktReadLoop_isSome {fuel : Nat} (h : (content es).length < fuel) :
    (pktReadLoop env fuel p es).isSome := by
  induction fuel generalizing p es with
  | zero => omega
  | succ fuel ih =>
    rw [pktReadLoop]
    split
    · rfl
    · rfl
    · rfl
    · next pkt recvLen p' es' hrecv =>
      have hlt := length_content_of_packet hrecv
      split
      · rfl
      · rfl
      · rfl
      · next p'' _ =>
        have hnext := @ih p'' es' (by omega)
        obtain ⟨r, hr⟩ := Option.isSome_iff_exists.mp hnext
        rw [hr]
        match r with
        | .error f => rfl
        | .ok r =>
          simp only
          split <;> rfl

theorem pktReadLoop_mono {fuel fuel' : Nat} (hle : fuel ≤ fuel')
    (h : pktReadLoop env fuel p es = some r) : pktReadLoop env fuel' p es = some r := by
  induction fuel generalizing fuel' p es r with
  | zero => simp [pktReadLoop] at h
  | succ fuel ih =>
    obtain ⟨k, rfl⟩ : ∃ k, fuel' = k + 1 := ⟨fuel' - 1, by omega⟩
    rw [pktReadLoop] at h ⊢
    split at h
    · exact h
    · exact h
    · exact h
    · split at h
      · exact h
      · exact h
      · exact h
      · next p'' _ =>
        split at h
        · cases h
        · next f hnext =>
          simp only [ih (by omega : fuel ≤ k) hnext]
          exact h
        · next r' hnext =>
          simp only [ih (by omega : fuel ≤ k) hnext]
          exact h

theorem tuyaAiBasicPktRead_isSome (env : AiEnv) (p : AiBasicProto) (es : Transport) :
    (tuyaAiBasicPktRead env p es).isSome := pktReadLoop_isSome (Nat.lt_succ_self _)

/-- The recursion of the source: after a first or middle fragment the function calls itself, and
an error of that call is turned into the `recv_len` of this one. -/
theorem tuyaAiBasicPktRead_eq (env : AiEnv) (p : AiBasicProto) (es : Transport) :
    tuyaAiBasicPktRead env p es =
      match recvPacket env p es with
      | .error f => some (.error f)
      | .ok (.exit recvLen p es) => some (.ok (exitRead recvLen p es))
      | .ok (.ret rt p es) => some (.ok ⟨rt, none, p, es⟩)
      | .ok (.packet pkt recvLen p es) =>
        match fragProcess env p pkt with
        | .error f => some (.error f)
        | .ok (.exit p) => some (.ok (exitRead recvLen p es))
        | .ok (.deliver out p) => some (.ok ⟨oprtOk, some out, p, es⟩)
        | .ok (.again p) =>
          match tuyaAiBasicPktRead env p es with
          | none => none
          | some (.error f) => some (.error f)
          | some (.ok r) =>
            if r.rt = oprtOk then some (.ok r)
            else some (.ok (exitRead recvLen r.proto r.transport)) := by
  rw [tuyaAiBasicPktRead, pktReadLoop]
  split
  · rfl
  · rfl
  · rfl
  · next pkt recvLen p' es' hrecv =>
    have hlt := length_content_of_packet hrecv
    split
    · rfl
    · rfl
    · rfl
    · next p'' _ =>
      obtain ⟨r, hr⟩ := Option.isSome_iff_exists.mp (tuyaAiBasicPktRead_isSome env p'' es')
      rw [hr, pktReadLoop_mono (by omega) hr]

end Loop

end TuyaOpen.AiProtocol
