import TuyaOpen.AiProtocol.RoundTrip

/-!
# Groups of packets on the wire

What `tuya_ai_basic_pkt_send` hands to the transport, and what it reports, when the transport may
do with every packet what it likes. The result of `tuya_transporter_write` is compared with the
length of the packet, and then with `OPRT_OK`: a transport that takes nothing and returns 0 passes
for one that has taken everything.

## Main results

* `aiPacketWrite_ends`: what one write does.
* `pktSendLoopAt_later`: the loop of the source sends the parts one after the other.
* `truthful_of_sendable`, `truthful_iff`.
-/

namespace TuyaOpen.AiProtocol

/-! ### Transports -/

/-- What the transport does with a packet: it takes all of it, or it returns something else. -/
inductive Taken
  | whole
  | other (rt : OperateRet)
  deriving DecidableEq

/-- The result of `tuya_transporter_write`. -/
def Taken.result : Taken → Bytes → OperateRet
  | .whole, pkt => pkt.length
  | .other rt, _ => rt

def AiEnv.at (env : AiEnv) (taken : Taken) : AiEnv := { env with write := taken.result }

/-- The fragment loop of `tuya_ai_basic_pkt_send`, each write of which has its own result. -/
def pktSendLoopAt (env : AiEnv) (outcomes : Nat → Taken) (info : AiSendPacket) :
    Nat → Nat → AiBasicProto → List Bytes → Option (Except MemFault AiSendResult)
  | 0, _, _, _ => none
  | fuel + 1, offset, p, sent =>
    if offset < info.data.length then
      match aiPacketWrite (env.at (outcomes sent.length)) p info
          (slice info.data offset (fragLen env.cfg info offset)) (fragFlagAt env.cfg info offset)
          info.data.length with
      | .error f => some (.error f)
      | .ok r =>
        if r.rt = oprtOk then
          pktSendLoopAt env outcomes info fuel (offset + fragLen env.cfg info offset) r.proto
            (sent ++ r.sent)
        else some (.ok { r with sent := sent ++ r.sent })
    else some (.ok ⟨oprtOk, p, sent⟩)

/-- `tuya_ai_basic_pkt_send`, each write of which has its own result. -/
def tuyaAiBasicPktSendAt (env : AiEnv) (outcomes : Nat → Taken) (fuel : Nat) (p : AiBasicProto)
    (info : AiSendPacket) : Option (Except MemFault AiSendResult) :=
  if !p.connected then some (.ok ⟨oprtComError, p, []⟩)
  else if aiGetSendPktLen env.cfg info info.data.length .noFrag ≤ env.cfg.maxFragmentLength then
    some (aiPacketWrite (env.at (outcomes 0)) p info info.data .noFrag info.data.length)
  else pktSendLoopAt env outcomes info fuel 0 p []

section Constant

variable {env : AiEnv} {info : AiSendPacket} (taken : Taken)

theorem pktSendLoopAt_const (fuel offset : Nat) (p : AiBasicProto) (sent : List Bytes) :
    pktSendLoopAt env (fun _ => taken) info fuel offset p sent =
      pktSendLoop (env.at taken) info fuel offset p sent := by
  induction fuel generalizing offset p sent with
  | zero => rfl
  | succ fuel ih =>
    rw [pktSendLoopAt, pktSendLoop]
    simp only [ih]
    rfl

theorem tuyaAiBasicPktSendAt_const (fuel : Nat) (p : AiBasicProto) :
    tuyaAiBasicPktSendAt env (fun _ => taken) fuel p info =
      tuyaAiBasicPktSend (env.at taken) fuel p info := by
  rw [tuyaAiBasicPktSendAt, tuyaAiBasicPktSend, pktSendLoopAt_const]
  rfl

end Constant

/-! ### Groups -/

/-- Parts that carry `data`: a single one, or a first, later ones and a last. -/
def IsGroup (data : Bytes) (parts : List (AiFragFlag × Bytes)) : Prop :=
  (parts.map Prod.fst = [.noFrag] ∨
    ∃ n, parts.map Prod.fst =
      .fragStart :: (List.replicate n AiFragFlag.fragIng ++ [AiFragFlag.fragEnd])) ∧
  (parts.map Prod.snd).flatten = data

/-- `pkt` carries a part of the data of `info`, under the keys of `p`. -/
structure Carries (env : AiEnv) (info : AiSendPacket) (p : AiBasicProto)
    (part : AiFragFlag × Bytes) (pkt : Bytes) : Prop where
  length_le : pkt.length ≤ env.cfg.maxFragmentLength
  written : ∃ (q q' : AiBasicProto) (ct sign : Bytes) (sequence : Nat),
    q.cryptKey = p.cryptKey ∧ q.signKey = p.signKey ∧
    aiEncryptPacket env q info.type (fragImage info part.2 part.1 info.data.length) =
      .ok (ct, q') ∧
    aiPacketSign env q' (unsignedPacket env.cfg info.type part.1 sequence q.encryptIv ct) =
      .ok sign ∧
    pkt = unsignedPacket env.cfg info.type part.1 sequence q.encryptIv ct ++ sign

def TakenWhole (outcomes : Nat → Taken) (pkts : List Bytes) : Prop :=
  ∀ i pkt, pkts[i]? = some pkt → (outcomes i).result pkt = pkt.length

/-- Memory can be allocated, the attributes can be packed, and encryption and signing succeed. -/
structure Works (env : AiEnv) (info : AiSendPacket) : Prop where
  malloc : ∀ n, env.malloc n = true
  attrs : ∀ a ∈ info.attrs, ∃ v, a.valueBytes = .ok v
  crypt : ∀ p data e, aiEncryptPacket env p info.type data ≠ .error (.err e)
  sign : ∀ p buf e, aiPacketSign env p buf ≠ .error (.err e)

/-- Sending ends, it hands over the packets of a group from the first on, it succeeds only if that
are all and the transport has taken them whole, and it fails only if something else has failed. -/
def Truthful (env : AiEnv) (outcomes : Nat → Taken) (p : AiBasicProto) (info : AiSendPacket) :
    Prop :=
  ∃ fuel r parts, tuyaAiBasicPktSendAt env outcomes fuel p info = some (.ok r) ∧
    IsGroup info.data parts ∧
    List.Forall₂ (Carries env info p) (parts.take r.sent.length) r.sent ∧
    (r.rt = oprtOk → r.sent.length = parts.length ∧ TakenWhole outcomes r.sent) ∧
    (r.rt ≠ oprtOk → Works env info → ¬TakenWhole outcomes r.sent)

def wholePktLen (cfg : AiConfig) (info : AiSendPacket) (len : Nat) (frag : AiFragFlag) : Nat :=
  packetHeadSize + ivSize (aiIsNeedIv info.type frag) + 4 +
    ((if tuyaAiIsNeedAttr frag then payloadHeadSize + attrTotal info.attrs + 4 else 0) + len) +
    aiSignLen + if aiGetSl cfg info.type = .sl0 then 0 else aiAddPktLen

/-- A packet that can be sent: the values of its attributes can be read, its length does not wrap,
and it fits into one packet or has data and leaves room for some in the first fragment. -/
structure Sendable (cfg : AiConfig) (info : AiSendPacket) : Prop where
  readable : ∀ a ∈ info.attrs, ∀ f, a.valueBytes ≠ .error (.fault f)
  length_lt : wholePktLen cfg info info.data.length .noFrag < 4294967296
  room : wholePktLen cfg info info.data.length .noFrag ≤ cfg.maxFragmentLength ∨
    info.data ≠ [] ∧ attrTotal info.attrs + minPktLen < cfg.maxFragmentLength

/-- The later parts of the data, of at most `one` bytes. -/
def laterParts (one : Nat) : Nat → Bytes → List (AiFragFlag × Bytes)
  | 0, _ => []
  | fuel + 1, data =>
    if data.length ≤ one then [(.fragEnd, data)]
    else (.fragIng, data.take one) :: laterParts one fuel (data.drop one)

def firstLen (cfg : AiConfig) (info : AiSendPacket) : Nat :=
  cfg.maxFragmentLength - minPktLen - attrTotal info.attrs

def groupParts (cfg : AiConfig) (info : AiSendPacket) : List (AiFragFlag × Bytes) :=
  if wholePktLen cfg info info.data.length .noFrag ≤ cfg.maxFragmentLength then
    [(.noFrag, info.data)]
  else
    (.fragStart, info.data.take (firstLen cfg info)) ::
      laterParts (cfg.maxFragmentLength - minPktLen) info.data.length
        (info.data.drop (firstLen cfg info))

def sendParts (env : AiEnv) (outcomes : Nat → Taken) (info : AiSendPacket) :
    AiBasicProto → List Bytes → List (AiFragFlag × Bytes) → Except MemFault AiSendResult
  | p, sent, [] => .ok ⟨oprtOk, p, sent⟩
  | p, sent, part :: parts =>
    match aiPacketWrite (env.at (outcomes sent.length)) p info part.2 part.1 info.data.length with
    | .error f => .error f
    | .ok r =>
      if r.rt = oprtOk then sendParts env outcomes info r.proto (sent ++ r.sent) parts
      else .ok { r with sent := sent ++ r.sent }

/-! ### What a call can end with -/

/-- A call ends with a result that has `Q`, with an error only if `refused`, and with an access
outside its memory only if `fault`. -/
def Ends {α : Type} (fault refused : Prop) (Q : α → Prop) : Except AiStop α → Prop
  | .ok r => Q r
  | .error (.err _) => refused
  | .error (.fault _) => fault

section Ends

variable {α β : Type} {fault refused : Prop} {Q Q' : α → Prop} {R : β → Prop}
  {x : Except AiStop α}

theorem Ends.bind {f : α → Except AiStop β} (h : Ends fault refused Q x)
    (hf : ∀ r, Q r → Ends fault refused R (f r)) : Ends fault refused R (x >>= f) := by
  cases x with
  | ok r => exact hf r h
  | error e => cases e <;> exact h

end Ends

section Pack

variable {env : AiEnv} {p : AiBasicProto} {info : AiSendPacket} {data acc src : Bytes}
  {frag : AiFragFlag} {originLen size : Nat} {fault refused : Prop}

theorem putBytes_ends (hfault : size < acc.length + src.length → fault) :
    Ends fault refused (fun r => r.length = acc.length + src.length) (putBytes size acc src) := by
  rw [putBytes]
  split_ifs with hle
  · exact List.length_append
  · exact hfault (by omega)

theorem packAttrs_ends {attrs : List AiAttribute}
    (hread : ∀ a ∈ attrs, Ends fault refused (fun _ => True) a.valueBytes)
    (hfault : size < acc.length + (attrs.map fun a => attributeHeadSize + a.length.toNat).sum →
      fault) :
    Ends fault refused
      (fun r => r.length =
        acc.length + (attrs.map fun a => attributeHeadSize + a.length.toNat).sum)
      (packAttrs size acc attrs) := by
  induction attrs generalizing acc with
  | nil => rfl
  | cons a attrs ih =>
    rw [List.map_cons, List.sum_cons] at hfault
    have hhead := a.length_headBytes
    have hattr : Ends fault refused
        (fun r => r.length = acc.length + attributeHeadSize + a.length.toNat)
        (packAttr size acc a) := by
      refine (putBytes_ends (fun h => hfault (by omega))).bind fun acc₁ hacc₁ => ?_
      have ha := hread a List.mem_cons_self
      cases hv : a.valueBytes with
      | error e =>
        rw [hv] at ha
        cases e <;> exact ha
      | ok v =>
        have hlen := AiAttribute.length_valueBytes hv
        have hput := @putBytes_ends acc₁ v size fault refused (fun h => hfault (by omega))
        rw [hacc₁, hlen, hhead] at hput
        exact hput
    refine hattr.bind fun acc₁ hacc₁ => ?_
    have hrest := @ih acc₁ (fun b hb => hread b (List.mem_cons_of_mem _ hb))
      (fun h => hfault (by omega))
    rw [List.map_cons, List.sum_cons]
    rw [hacc₁] at hrest
    simpa only [Nat.add_assoc] using hrest

def prefixLen (info : AiSendPacket) (frag : AiFragFlag) : Nat :=
  if tuyaAiIsNeedAttr frag then payloadHeadSize + attrTotal info.attrs + 4 else 0

theorem packAttrBlock_ends {attrs : List AiAttribute}
    (hread : ∀ a ∈ attrs, Ends fault refused (fun _ => True) a.valueBytes)
    (hfault : size < acc.length + attrTotal attrs → fault) :
    Ends fault refused (fun r => r.length = acc.length + attrTotal attrs)
      (packAttrBlock size acc attrs) := by
  rw [packAttrBlock, attrTotal] at *
  by_cases hattrs : attrs = []
  · simp only [if_pos hattrs]
    rfl
  · simp only [if_neg hattrs] at hfault ⊢
    refine (putBytes_ends fun h => hfault ?_).bind fun acc₁ hacc₁ => ?_
    · rw [length_beBytes] at h
      omega
    · rw [length_beBytes] at hacc₁
      have hattrs := @packAttrs_ends acc₁ size fault refused attrs hread
        (fun h => hfault (by omega))
      rw [hacc₁] at hattrs
      simpa only [Nat.add_assoc] using hattrs

theorem packPrefix_ends
    (hread : ∀ a ∈ info.attrs, Ends fault refused (fun _ => True) a.valueBytes)
    (hfault : size < prefixLen info frag → fault) :
    Ends fault refused (fun r => r.length = prefixLen info frag)
      (packPrefix size info frag originLen) := by
  rw [packPrefix, prefixLen] at *
  split_ifs with hneed
  · rw [if_pos hneed, payloadHeadSize] at hfault
    refine (putBytes_ends fun h => hfault ?_).bind fun acc₁ hacc₁ => ?_
    · rw [List.length_nil, List.length_singleton] at h
      omega
    rw [List.length_nil, List.length_singleton, Nat.zero_add] at hacc₁
    refine (packAttrBlock_ends hread fun h => hfault (by omega)).bind fun acc₂ hacc₂ => ?_
    have hput := @putBytes_ends acc₂ (beBytes 4 originLen) size fault refused fun h => hfault (by
      rw [length_beBytes] at h
      omega)
    rw [hacc₂, hacc₁, length_beBytes] at hput
    exact hput
  · rfl

theorem aiPackPayload_ends
    (hread : ∀ a ∈ info.attrs, Ends fault (¬Works env info) (fun _ => True) a.valueBytes)
    (hfault : aiGetSendPayloadLen info.attrs data.length frag < prefixLen info frag + data.length →
      fault) :
    Ends fault (¬Works env info) (fun _ => True)
      (aiPackPayload env p info data frag originLen) := by
  simp only [aiPackPayload]
  set size := aiGetSendPayloadLen info.attrs data.length frag with hsize
  split_ifs with hmalloc
  · refine (packPrefix_ends hread fun h => hfault (by omega)).bind fun acc₁ hacc₁ => ?_
    refine (putBytes_ends fun h => hfault (by omega)).bind fun acc₂ _ => ?_
    cases henc : aiEncryptPacket env p info.type
        (acc₂ ++ List.replicate (size - acc₂.length) 0) with
    | ok r => exact trivial
    | error e =>
      cases e with
      | err rt => exact fun hworks => hworks.crypt _ _ _ henc
      | fault f =>
        unfold aiEncryptPacket at henc
        split at henc
        · cases henc
        · split at henc <;> cases henc
        · cases henc
        · split at henc <;> cases henc
  · exact fun hworks => hmalloc (hworks.malloc _)

end Pack

/-! ### One write -/

section Write

variable {env : AiEnv} {p p' : AiBasicProto} {info : AiSendPacket} {data ct payload : Bytes}
  {frag : AiFragFlag} {originLen sequence : Nat} {taken : Taken} {type : UInt8}

theorem wholePktLen_eq (cfg : AiConfig) (info : AiSendPacket) (len : Nat) (frag : AiFragFlag) :
    wholePktLen cfg info len frag = packetHeadSize + ivSize (aiIsNeedIv info.type frag) + 4 +
      (prefixLen info frag + len) + aiSignLen +
        if aiGetSl cfg info.type = .sl0 then 0 else aiAddPktLen := rfl

theorem aiGetSendPayloadLen_of_lt {len : Nat} (h : prefixLen info frag + len < 4294967296) :
    aiGetSendPayloadLen info.attrs len frag = prefixLen info frag + len := by
  rw [prefixLen] at h ⊢
  rw [aiGetSendPayloadLen]
  split_ifs at h ⊢ with hneed
  · rw [aiGetSendAttrLen, u32_of_lt (n := attrTotal info.attrs) (by omega), u32_of_lt h]
  · exact u32_of_lt h

theorem aiGetSendPktLen_of_lt {cfg : AiConfig} {len : Nat}
    (h : wholePktLen cfg info len frag < 4294967296) :
    aiGetSendPktLen cfg info len frag = wholePktLen cfg info len frag := by
  rw [wholePktLen_eq] at h ⊢
  rw [aiGetSendPktLen, aiGetSendPayloadLen_of_lt (by omega), u32_of_lt h]

theorem length_aiEncryptPacket_le (h : aiEncryptPacket env p type data = .ok (ct, p')) :
    ct.length ≤ data.length + if aiGetSl env.cfg type = .sl0 then 0 else aiAddPktLen := by
  have hpad := length_aiEncryptAddPkcs data
  rw [aiAddPktLen]
  unfold aiEncryptPacket at h
  split at h
  · obtain ⟨rfl, -⟩ := Prod.mk.inj (Except.ok.inj h)
    omega
  · next hsl =>
    rw [hsl, if_neg (by decide)]
    split at h
    · cases h
    · next out hout =>
      obtain ⟨rfl, -⟩ := Prod.mk.inj (Except.ok.inj h)
      rw [List.length_append, env.chacha20.length_crypt hout, length_pkcsPad]
      omega
  · next hsl =>
    rw [hsl, if_neg (by decide)]
    obtain ⟨rfl, -⟩ := Prod.mk.inj (Except.ok.inj h)
    have hk : (aiEncryptAddPkcs data).length / 16 = data.length / 16 + 1 := by omega
    have hlen := @length_cbcEncrypt 16 env.aes256 p.cryptKey _ _ _ p.length_encryptIv hpad
    simp only [hk, hlen.1]
    omega
  · next hsl =>
    rw [hsl, if_neg (by decide)]
    split at h
    · cases h
    · next c tag hgcm =>
      obtain ⟨rfl, -⟩ := Prod.mk.inj (Except.ok.inj h)
      obtain ⟨hc, htag⟩ := env.gcm.length_encrypt hgcm
      rw [List.length_append, hc, htag, aiGcmTagLen]
      omega

theorem aiPacketSign_ne_fault (hiv : p.encryptIv.length = aiIvLen)
    (h : packetHeadSize + 20 + payload.length + aiSignLen < 4294967296) (f : MemFault) :
    aiPacketSign env p' (unsignedPacket env.cfg type frag sequence p.encryptIv payload) ≠
      .error (.fault f) := by
  intro hsign
  obtain ⟨-, hnone⟩ := fault_of_aiPacketSign hsign
  set pkt := unsignedPacket env.cfg type frag sequence p.encryptIv payload with hpkt
  have hhead : aiGetHeadLen pkt = packetHeadSize + ivSize (aiIsNeedIv type frag) + 4 := by
    rw [← List.append_nil pkt, hpkt, aiGetHeadLen_unsignedPacket]
  have hpl : aiGetPayloadLen pkt = payload.length := by
    rw [← List.append_nil pkt, hpkt, aiGetPayloadLen_unsignedPacket hiv (by omega)]
  have hlen : pkt.length = packetHeadSize + ivSize (aiIsNeedIv type frag) + 4 + payload.length :=
    length_unsignedPacket hiv
  have hivle : ivSize (aiIsNeedIv type frag) ≤ 16 := by
    rw [ivSize, aiIvLen]
    split_ifs <;> omega
  rw [signData, Option.map_eq_none_iff] at hnone
  have hspans := (@readSpans_isSome_iff _ pkt
    (signSpans (aiGetHeadLen pkt) (aiGetPayloadLen pkt))).mpr fun s hs => by
      have hle := signSpans_le (by rw [hhead, hpl]; omega) hs
      rw [hhead, hpl] at hle
      omega
  rw [hnone] at hspans
  cases hspans

/-- What one write does that does not run into a fault: it hands over the packet for the part, or
nothing because something has failed. -/
structure Written (env : AiEnv) (taken : Taken) (info : AiSendPacket) (p : AiBasicProto)
    (part : AiFragFlag × Bytes) (r : AiSendResult) : Prop where
  cryptKey : r.proto.cryptKey = p.cryptKey
  signKey : r.proto.signKey = p.signKey
  transporter : r.proto.transporter = true
  sent : (∃ pkt, r.sent = [pkt] ∧ Carries env info p part pkt ∧
      (r.rt = oprtOk ↔ taken.result pkt = pkt.length ∨ taken.result pkt = oprtOk)) ∨
    r.sent = [] ∧ r.rt ≠ oprtOk ∧ ¬Works env info

theorem signAndWrite_written {size : Nat}
    (hpack : aiPackPayload env (takeSequence p) info data frag info.data.length = .ok (ct, p'))
    (htrans : p.transporter = true)
    (hsize : packetHeadSize + ivSize (aiIsNeedIv info.type frag) + 4 + ct.length + aiSignLen ≤ size)
    (hle : size ≤ env.cfg.maxFragmentLength) :
    ∃ r, signAndWrite (env.at taken) p' size
        (unsignedPacket env.cfg info.type frag (nextSequence p.sequenceOut) p.encryptIv ct) =
          .ok r ∧
      Written env taken info p (frag, data) r := by
  have hmax := env.cfg.maxFragmentLength_le
  have henc := (aiPackPayload_ok hpack).1
  obtain ⟨iv, rfl⟩ := aiEncryptPacket_frame henc
  have hlen := @length_unsignedPacket frag env.cfg info.type (nextSequence p.sequenceOut)
    p.encryptIv ct p.length_encryptIv
  set pkt := unsignedPacket env.cfg info.type frag (nextSequence p.sequenceOut) p.encryptIv ct
    with hpkt
  have hsame : aiPacketSign (env.at taken) ((takeSequence p).setEncryptIv iv)
      (pkt ++ List.replicate (size - pkt.length) 0) =
        aiPacketSign env ((takeSequence p).setEncryptIv iv) pkt :=
    aiPacketSign_unsignedPacket p.length_encryptIv (by omega) _
  rw [signAndWrite, if_neg (by omega), hsame]
  cases hsign : aiPacketSign env ((takeSequence p).setEncryptIv iv) pkt with
  | error e =>
    cases e with
    | fault f =>
      exact absurd hsign (aiPacketSign_ne_fault p.length_encryptIv (by omega) f)
    | err rt =>
      exact ⟨_, rfl, rfl, rfl, htrans,
        Or.inr ⟨rfl, rt.2, fun hworks => hworks.sign _ _ _ hsign⟩⟩
  | ok sign =>
    have hslen := length_of_aiPacketSign hsign
    have htrans' : ((takeSequence p).setEncryptIv iv).transporter = true := htrans
    refine ⟨_, if_pos htrans', rfl, rfl, htrans, Or.inl ⟨_, rfl, ⟨?_, ?_⟩, ?_⟩⟩
    · rw [List.length_append, hslen]
      omega
    · exact ⟨takeSequence p, _, ct, sign, nextSequence p.sequenceOut, rfl, rfl, henc, hsign, rfl⟩
    · have hresult : (env.at taken).write (pkt ++ sign) = taken.result (pkt ++ sign) := rfl
      rw [hresult]
      dsimp only
      split_ifs with hall
      · exact ⟨fun _ => Or.inl hall, fun _ => rfl⟩
      · exact ⟨Or.inr, fun h => h.resolve_left hall⟩

theorem aiPacketWrite_written
    (hread : ∀ a ∈ info.attrs, ∀ f, a.valueBytes ≠ .error (.fault f))
    (htrans : p.transporter = true)
    (hle : wholePktLen env.cfg info data.length frag ≤ env.cfg.maxFragmentLength) :
    ∃ r, aiPacketWrite (env.at taken) p info data frag info.data.length = .ok r ∧
      Written env taken info p (frag, data) r := by
  have hmax := env.cfg.maxFragmentLength_le
  have hsize := @aiGetSendPktLen_of_lt info frag env.cfg data.length (by omega)
  have hwhole := wholePktLen_eq env.cfg info data.length frag
  have hpay := @aiGetSendPayloadLen_of_lt info frag data.length (by omega)
  have hends := @aiPackPayload_ends env (takeSequence p) info data frag info.data.length False
    (fun a ha => ?_) (fun h => by omega)
  · rw [← hsize] at hle hwhole
    unfold aiPacketWrite
    have hcfg : (env.at taken).cfg = env.cfg := rfl
    have hpackeq : aiPackPayload (env.at taken) (takeSequence p) info data frag info.data.length =
      aiPackPayload env (takeSequence p) info data frag info.data.length := rfl
    simp only [hcfg, hpackeq, if_neg (Nat.not_lt.mpr hle)]
    split_ifs with hmalloc
    · cases hpack : aiPackPayload env (takeSequence p) info data frag info.data.length with
      | error e =>
        rw [hpack] at hends
        cases e with
        | fault f => exact hends.elim
        | err rt => exact ⟨_, rfl, rfl, rfl, htrans, Or.inr ⟨rfl, rt.2, hends⟩⟩
      | ok x =>
        obtain ⟨ct, p'⟩ := x
        obtain ⟨henc, himage, -⟩ := aiPackPayload_ok hpack
        have hct := length_aiEncryptPacket_le henc
        exact signAndWrite_written hpack htrans (by omega) hle
    · exact ⟨_, rfl, rfl, rfl, htrans, Or.inr ⟨rfl, oprtMallocFailed_ne_ok,
        fun hworks => hmalloc (hworks.malloc _)⟩⟩
  · cases hv : a.valueBytes with
    | ok v => exact trivial
    | error e =>
      cases e with
      | fault f => exact (hread a ha f hv).elim
      | err rt =>
        intro hworks
        obtain ⟨v, hok⟩ := hworks.attrs a ha
        rw [hv] at hok
        cases hok

theorem wholePktLen_le_of_write {r : AiSendResult} (hworks : Works env info)
    (h : aiPacketWrite (env.at taken) p info data frag info.data.length = .ok r)
    (hle : aiGetSendPktLen env.cfg info data.length frag ≤ env.cfg.maxFragmentLength) :
    wholePktLen env.cfg info data.length frag ≤ env.cfg.maxFragmentLength := by
  have hmax := env.cfg.maxFragmentLength_le
  have hends := @aiPackPayload_ends env (takeSequence p) info data frag info.data.length True
    (fun a ha => ?_) (fun _ => trivial)
  · unfold aiPacketWrite at h
    have hcfg : (env.at taken).cfg = env.cfg := rfl
    have hmalloc : (env.at taken).malloc (aiGetSendPktLen env.cfg info data.length frag) = true :=
      hworks.malloc _
    have hpackeq : aiPackPayload (env.at taken) (takeSequence p) info data frag info.data.length =
      aiPackPayload env (takeSequence p) info data frag info.data.length := rfl
    simp only [hcfg, hpackeq, if_neg (Nat.not_lt.mpr hle), hmalloc, if_true] at h
    cases hpack : aiPackPayload env (takeSequence p) info data frag info.data.length with
    | error e =>
      rw [hpack] at hends h
      cases e with
      | fault f => cases h
      | err rt => exact absurd hworks hends
    | ok x =>
      obtain ⟨ct, p'⟩ := x
      rw [hpack] at h
      obtain ⟨henc, himage, hblock⟩ := aiPackPayload_ok hpack
      have hct := length_le_of_aiEncryptPacket henc
      have hlen := @length_unsignedPacket frag env.cfg info.type (nextSequence p.sequenceOut)
        p.encryptIv ct p.length_encryptIv
      have hsize : packetHeadSize + ivSize (aiIsNeedIv info.type frag) + 4 + ct.length + aiSignLen ≤
          aiGetSendPktLen env.cfg info data.length frag := by
        by_contra hlt
        dsimp only at h
        rw [signAndWrite, if_pos (by omega)] at h
        cases h
      -- The image that has been packed has the length that has not been cut.
      have hwhole : (fragImage info data frag info.data.length).length =
          prefixLen info frag + data.length := by
        rw [prefixLen]
        split_ifs with hneed
        · rw [length_fragImage (hblock hneed) hneed, payloadHeadSize]
          omega
        · rw [fragImage_of_not_need hneed, Nat.zero_add]
      rw [wholePktLen_eq, ← hwhole, ← himage]
      rw [aiGetSendPktLen] at hle hsize
      have hpadlt : (if aiGetSl env.cfg info.type = .sl0 then 0 else aiAddPktLen) ≤ 128 := by
        rw [aiAddPktLen]
        split_ifs <;> omega
      by_cases hfits : packetHeadSize + ivSize (aiIsNeedIv info.type frag) + 4 +
          aiGetSendPayloadLen info.attrs data.length frag + aiSignLen +
            (if aiGetSl env.cfg info.type = .sl0 then 0 else aiAddPktLen) < 4294967296
      · rwa [u32_of_lt hfits] at hle
      · have hpay := u32_lt ((if tuyaAiIsNeedAttr frag then
          payloadHeadSize + aiGetSendAttrLen info.attrs + 4 else 0) + data.length)
        rw [← aiGetSendPayloadLen] at hpay
        rw [u32] at hsize
        simp only [packetHeadSize, aiSignLen] at *
        omega
  · obtain ⟨v, hv⟩ := hworks.attrs a ha
    rw [hv]
    exact trivial

end Write

/-! ### Parts, one after the other -/

section Parts

variable {env : AiEnv} {outcomes : Nat → Taken} {p q : AiBasicProto} {info : AiSendPacket}
  {part : AiFragFlag × Bytes} {parts : List (AiFragFlag × Bytes)} {pkt : Bytes}
  {pkts sent : List Bytes}

theorem Carries.length_pos (h : Carries env info p part pkt) : 0 < pkt.length := by
  obtain ⟨q, q', ct, sign, sequence, -, -, -, hsign, rfl⟩ := h.written
  rw [List.length_append, length_of_aiPacketSign hsign, aiSignLen]
  omega

theorem Carries.of_keys (h : Carries env info q part pkt) (hcrypt : q.cryptKey = p.cryptKey)
    (hsign : q.signKey = p.signKey) : Carries env info p part pkt := by
  refine ⟨h.length_le, ?_⟩
  obtain ⟨q₁, q', ct, sign, sequence, hc, hs, hrest⟩ := h.written
  exact ⟨q₁, q', ct, sign, sequence, hc.trans hcrypt, hs.trans hsign, hrest⟩

/-- For every packet from the `k`-th write on the transport has returned its length or 0. -/
def Accepted (outcomes : Nat → Taken) (k : Nat) (pkts : List Bytes) : Prop :=
  ∀ i pkt, pkts[i]? = some pkt →
    (outcomes (k + i)).result pkt = pkt.length ∨ (outcomes (k + i)).result pkt = oprtOk

theorem accepted_cons {k : Nat} : Accepted outcomes k (pkt :: pkts) ↔
    ((outcomes k).result pkt = pkt.length ∨ (outcomes k).result pkt = oprtOk) ∧
      Accepted outcomes (k + 1) pkts := by
  constructor
  · intro h
    refine ⟨h 0 pkt rfl, fun i pkt' hi => ?_⟩
    have hnext := h (i + 1) pkt' hi
    rwa [Nat.add_comm i 1, ← Nat.add_assoc] at hnext
  · rintro ⟨hhead, htail⟩ i pkt' hi
    cases i with
    | zero =>
      obtain rfl := Option.some.inj hi
      exact hhead
    | succ i =>
      have hnext := htail i pkt' hi
      rwa [Nat.add_assoc, Nat.add_comm 1 i] at hnext

theorem sendParts_spec (hread : ∀ a ∈ info.attrs, ∀ f, a.valueBytes ≠ .error (.fault f))
    (hfits : ∀ part ∈ parts,
      wholePktLen env.cfg info part.2.length part.1 ≤ env.cfg.maxFragmentLength)
    (htrans : p.transporter = true) :
    ∃ r new, sendParts env outcomes info p sent parts = .ok r ∧ r.sent = sent ++ new ∧
      List.Forall₂ (Carries env info p) (parts.take new.length) new ∧
      (r.rt = oprtOk → new.length = parts.length ∧ Accepted outcomes sent.length new) ∧
      (r.rt ≠ oprtOk → Works env info → ¬Accepted outcomes sent.length new) := by
  induction parts generalizing p sent with
  | nil =>
    refine ⟨_, [], rfl, (List.append_nil _).symm, .nil, fun _ => ⟨rfl, fun i pkt hi => ?_⟩,
      fun hrt => absurd rfl hrt⟩
    cases hi
  | cons part parts ih =>
    obtain ⟨r, hw, hwritten⟩ := @aiPacketWrite_written env p info part.2 part.1
      (outcomes sent.length) hread htrans (hfits part List.mem_cons_self)
    rw [sendParts, hw]
    dsimp only
    rcases hwritten.sent with ⟨pkt, hsent, hcarries, hok⟩ | ⟨hsent, hrt, hfails⟩
    · by_cases hrt : r.rt = oprtOk
      · rw [if_pos hrt, hsent]
        obtain ⟨r', new, hrest, hnew, hall, hgood, hbad⟩ := @ih r.proto (sent ++ [pkt])
          (fun part' hpart' => hfits part' (List.mem_cons_of_mem _ hpart')) hwritten.transporter
        rw [List.length_append, List.length_singleton] at hgood hbad
        refine ⟨r', pkt :: new, hrest, by rw [hnew, List.append_assoc]; rfl, ?_, ?_, ?_⟩
        · exact .cons hcarries (hall.imp fun _ _ hc =>
            hc.of_keys hwritten.cryptKey hwritten.signKey)
        · intro hrt'
          obtain ⟨hlen, hacc⟩ := hgood hrt'
          exact ⟨congrArg (· + 1) hlen, accepted_cons.mpr ⟨hok.mp hrt, hacc⟩⟩
        · intro hrt' hworks hacc
          exact hbad hrt' hworks (accepted_cons.mp hacc).2
      · rw [if_neg hrt]
        refine ⟨_, [pkt], rfl, by rw [hsent], .cons hcarries (by simp), fun h => absurd h hrt,
          fun _ _ hacc => hrt (hok.mpr (accepted_cons.mp hacc).1)⟩
    · rw [if_neg hrt, hsent]
      exact ⟨_, [], rfl, rfl, .nil, fun h => absurd h hrt, fun _ hworks _ => hfails hworks⟩

end Parts

/-! ### The parts of a group -/

section LaterParts

variable {one fuel : Nat} {data : Bytes}

theorem laterParts_flags (hpos : 0 < one) (hdata : data ≠ []) (hfuel : data.length ≤ fuel) :
    ∃ n, (laterParts one fuel data).map Prod.fst =
      List.replicate n AiFragFlag.fragIng ++ [AiFragFlag.fragEnd] := by
  induction fuel generalizing data with
  | zero => exact absurd (List.length_eq_zero_iff.mp (by omega)) hdata
  | succ fuel ih =>
    rw [laterParts]
    split_ifs with hle
    · exact ⟨0, rfl⟩
    · have hlen := List.length_drop (i := one) (l := data)
      have hrest : data.drop one ≠ [] := List.ne_nil_of_length_pos (by omega)
      obtain ⟨n, hn⟩ := ih hrest (by omega)
      exact ⟨n + 1, by rw [List.map_cons, hn]; rfl⟩

theorem laterParts_data (hdata : data ≠ []) (hpos : 0 < one) (hfuel : data.length ≤ fuel) :
    ((laterParts one fuel data).map Prod.snd).flatten = data := by
  induction fuel generalizing data with
  | zero => exact absurd (List.length_eq_zero_iff.mp (by omega)) hdata
  | succ fuel ih =>
    rw [laterParts]
    split_ifs with hle
    · simp
    · have hlen := List.length_drop (i := one) (l := data)
      have hrest : data.drop one ≠ [] := List.ne_nil_of_length_pos (by omega)
      rw [List.map_cons, List.flatten_cons, ih hrest (by omega), List.take_append_drop]

theorem laterParts_mem {part : AiFragFlag × Bytes} (h : part ∈ laterParts one fuel data) :
    (part.1 = .fragIng ∨ part.1 = .fragEnd) ∧ part.2.length ≤ one := by
  induction fuel generalizing data with
  | zero => cases h
  | succ fuel ih =>
    rw [laterParts] at h
    split_ifs at h with hle
    · obtain rfl := List.mem_singleton.mp h
      exact ⟨Or.inr rfl, hle⟩
    · rcases List.mem_cons.mp h with rfl | hrest
      · exact ⟨Or.inl rfl, List.length_take_le _ _⟩
      · exact ih hrest

end LaterParts

section Group

variable {env : AiEnv} {outcomes : Nat → Taken} {p : AiBasicProto} {info : AiSendPacket}
  {cfg : AiConfig} {sent : List Bytes}

theorem wholePktLen_bounds (cfg : AiConfig) (info : AiSendPacket) (len : Nat) (frag : AiFragFlag) :
    prefixLen info frag + len + 41 ≤ wholePktLen cfg info len frag ∧
      wholePktLen cfg info len frag ≤ prefixLen info frag + len + 185 ∧
      ((frag = .fragIng ∨ frag = .fragEnd) →
        wholePktLen cfg info len frag ≤ len + 169) := by
  have hiv : ivSize (aiIsNeedIv info.type frag) ≤ 16 := by
    rw [ivSize, aiIvLen]
    split_ifs <;> omega
  have hpad : (if aiGetSl cfg info.type = .sl0 then 0 else aiAddPktLen) ≤ 128 := by
    rw [aiAddPktLen]
    split_ifs <;> omega
  rw [wholePktLen_eq]
  simp only [packetHeadSize, aiSignLen]
  refine ⟨by omega, by omega, fun hlater => ?_⟩
  have hneed : aiIsNeedIv info.type frag = false := by
    rcases hlater with rfl | rfl <;> simp [aiIsNeedIv]
  have hpre : prefixLen info frag = 0 := by
    rcases hlater with rfl | rfl <;> rfl
  rw [hneed, hpre]
  simp only [ivSize, Bool.false_eq_true, if_false]
  omega

theorem prefixLen_of_need (info : AiSendPacket) (frag : AiFragFlag)
    (h : tuyaAiIsNeedAttr frag = true) : prefixLen info frag = attrTotal info.attrs + 5 := by
  rw [prefixLen, if_pos h, payloadHeadSize]
  omega

theorem wholePktLen_fragStart (cfg : AiConfig) (info : AiSendPacket) (len : Nat) :
    wholePktLen cfg info len .fragStart = wholePktLen cfg info len .noFrag := by
  have hiv : aiIsNeedIv info.type .fragStart = aiIsNeedIv info.type .noFrag := by
    simp [aiIsNeedIv]
  rw [wholePktLen_eq, wholePktLen_eq, hiv, prefixLen_of_need info .noFrag rfl,
    prefixLen_of_need info .fragStart rfl]

theorem Sendable.firstLen_pos (h : Sendable cfg info)
    (hbig : ¬wholePktLen cfg info info.data.length .noFrag ≤ cfg.maxFragmentLength) :
    0 < firstLen cfg info ∧ firstLen cfg info < info.data.length := by
  obtain ⟨-, hroom⟩ := h.room.resolve_left hbig
  have hbounds := wholePktLen_bounds cfg info info.data.length .noFrag
  rw [prefixLen_of_need info .noFrag rfl] at hbounds
  rw [firstLen]
  simp only [minPktLen, packetHeadSize, aiAddPktLen] at hroom ⊢
  omega

theorem Sendable.isGroup (h : Sendable cfg info) : IsGroup info.data (groupParts cfg info) := by
  have hmin := cfg.le_maxFragmentLength
  rw [groupParts]
  split_ifs with hbig
  · exact ⟨Or.inl rfl, by simp⟩
  · obtain ⟨-, hlt⟩ := h.firstLen_pos hbig
    have hlen := List.length_drop (i := firstLen cfg info) (l := info.data)
    have hrest : info.data.drop (firstLen cfg info) ≠ [] := List.ne_nil_of_length_pos (by omega)
    have hone : 0 < cfg.maxFragmentLength - minPktLen := by
      simp only [minPktLen, packetHeadSize, aiAddPktLen]
      omega
    obtain ⟨n, hn⟩ := laterParts_flags hone hrest (show _ ≤ info.data.length by omega)
    refine ⟨Or.inr ⟨n, by rw [List.map_cons, hn]⟩, ?_⟩
    rw [List.map_cons, List.flatten_cons, laterParts_data hrest hone (by omega),
      List.take_append_drop]

theorem Sendable.fits (h : Sendable cfg info) {part : AiFragFlag × Bytes}
    (hpart : part ∈ groupParts cfg info) :
    wholePktLen cfg info part.2.length part.1 ≤ cfg.maxFragmentLength := by
  have hmin := cfg.le_maxFragmentLength
  rw [groupParts] at hpart
  split_ifs at hpart with hbig
  · obtain rfl := List.mem_singleton.mp hpart
    exact hbig
  · obtain ⟨-, hroom⟩ := h.room.resolve_left hbig
    simp only [minPktLen, packetHeadSize, aiAddPktLen] at hroom hpart
    rcases List.mem_cons.mp hpart with rfl | hlater
    · have hbounds := wholePktLen_bounds cfg info (info.data.take (firstLen cfg info)).length
        .fragStart
      have hle := List.length_take_le (firstLen cfg info) info.data
      rw [prefixLen_of_need info .fragStart rfl] at hbounds
      dsimp only
      rw [firstLen] at hle hbounds ⊢
      simp only [minPktLen, packetHeadSize, aiAddPktLen] at hle hbounds ⊢
      omega
    · obtain ⟨hflag, hle⟩ := laterParts_mem hlater
      have hbound := (wholePktLen_bounds cfg info part.2.length part.1).2.2 hflag
      omega

end Group

/-! ### The loop of the source -/

section Loop

variable {env : AiEnv} {outcomes : Nat → Taken} {p : AiBasicProto} {info : AiSendPacket}
  {offset fuel : Nat} {sent : List Bytes} {parts : List (AiFragFlag × Bytes)}
  {x : Except MemFault AiSendResult}

theorem exists_pktSendLoopAt_cons (hlt : offset < info.data.length)
    (hrest : ∀ r : AiSendResult, ∃ fuel,
      pktSendLoopAt env outcomes info fuel (offset + fragLen env.cfg info offset) r.proto
        (sent ++ r.sent) = some (sendParts env outcomes info r.proto (sent ++ r.sent) parts)) :
    ∃ fuel, pktSendLoopAt env outcomes info fuel offset p sent =
      some (sendParts env outcomes info p sent
        ((fragFlagAt env.cfg info offset,
          slice info.data offset (fragLen env.cfg info offset)) :: parts)) := by
  rw [sendParts]
  cases hw : aiPacketWrite (env.at (outcomes sent.length)) p info
      (slice info.data offset (fragLen env.cfg info offset)) (fragFlagAt env.cfg info offset)
      info.data.length with
  | error f => exact ⟨1, by rw [pktSendLoopAt, if_pos hlt, hw]⟩
  | ok r =>
    obtain ⟨fuel, hfuel⟩ := hrest r
    refine ⟨fuel + 1, ?_⟩
    rw [pktSendLoopAt, if_pos hlt, hw]
    dsimp only
    rw [hfuel]
    split_ifs <;> rfl

theorem pktSendLoopAt_later {n : Nat} (hpos : 0 < offset) (hlt : offset < info.data.length)
    (hn : info.data.length - offset ≤ n) :
    ∃ fuel, pktSendLoopAt env outcomes info fuel offset p sent =
      some (sendParts env outcomes info p sent
        (laterParts (env.cfg.maxFragmentLength - minPktLen) n (info.data.drop offset))) := by
  have hmin := env.cfg.le_maxFragmentLength
  induction n generalizing offset p sent with
  | zero => omega
  | succ n ih =>
    have hone : onePacketLen env.cfg info.attrs offset = env.cfg.maxFragmentLength - minPktLen :=
      if_neg (by omega)
    have hfrag : fragLen env.cfg info offset =
        min (info.data.length - offset) (env.cfg.maxFragmentLength - minPktLen) := by
      rw [fragLen, hone]
    have honepos : 0 < env.cfg.maxFragmentLength - minPktLen := by
      simp only [minPktLen, packetHeadSize, aiAddPktLen]
      omega
    rw [laterParts, List.length_drop]
    by_cases hlast : info.data.length - offset ≤ env.cfg.maxFragmentLength - minPktLen
    · rw [if_pos hlast]
      have hlen : fragLen env.cfg info offset = info.data.length - offset := by omega
      have hround := @exists_pktSendLoopAt_cons env outcomes p info offset sent [] hlt
        fun r => ⟨1, by rw [pktSendLoopAt, if_neg (by omega), sendParts]⟩
      have hflag : fragFlagAt env.cfg info offset = .fragEnd := by
        rw [fragFlagAt, if_neg (by omega), if_pos (by omega)]
      have hslice : slice info.data offset (info.data.length - offset) = info.data.drop offset := by
        rw [slice, List.take_of_length_le (by rw [List.length_drop])]
      rwa [hflag, hlen, hslice] at hround
    · rw [if_neg hlast]
      have hlen : fragLen env.cfg info offset = env.cfg.maxFragmentLength - minPktLen := by omega
      have hround := @exists_pktSendLoopAt_cons env outcomes p info offset sent
        (laterParts (env.cfg.maxFragmentLength - minPktLen) n
          (info.data.drop (offset + (env.cfg.maxFragmentLength - minPktLen)))) hlt
        fun r => by
          rw [hlen]
          exact ih (by omega) (by omega) (by omega)
      have hflag : fragFlagAt env.cfg info offset = .fragIng := by
        rw [fragFlagAt, if_neg (by omega), if_neg (by omega)]
      rw [hflag, hlen, slice] at hround
      rwa [List.drop_drop]

theorem Sendable.exists_eq_sendParts (h : Sendable env.cfg info) (hconn : p.connected = true) :
    ∃ fuel, tuyaAiBasicPktSendAt env outcomes fuel p info =
      some (sendParts env outcomes info p [] (groupParts env.cfg info)) := by
  have hmax := env.cfg.maxFragmentLength_le
  have hsize := aiGetSendPktLen_of_lt h.length_lt
  simp only [tuyaAiBasicPktSendAt, hconn, Bool.not_true, Bool.false_eq_true, if_false, hsize]
  rw [groupParts]
  split_ifs with hbig
  · rw [sendParts, List.length_nil]
    refine ⟨0, congrArg some ?_⟩
    cases aiPacketWrite (env.at (outcomes 0)) p info info.data .noFrag info.data.length with
    | error f => rfl
    | ok r =>
      dsimp only
      split_ifs with hrt
      · rw [sendParts, List.nil_append, ← hrt]
      · rfl
  · obtain ⟨hpos, hlt⟩ := h.firstLen_pos hbig
    obtain ⟨-, hroom⟩ := h.room.resolve_left hbig
    have hattr : aiGetSendAttrLen info.attrs = attrTotal info.attrs := u32_of_lt (by omega)
    have hone : onePacketLen env.cfg info.attrs 0 = firstLen env.cfg info := by
      rw [onePacketLen, if_pos rfl, hattr, u32Sub_of_le (by omega) (by omega), firstLen]
    have hlen : fragLen env.cfg info 0 = firstLen env.cfg info := by
      rw [fragLen, hone]
      omega
    have hround := @exists_pktSendLoopAt_cons env outcomes p info 0 []
      (laterParts (env.cfg.maxFragmentLength - minPktLen) info.data.length
        (info.data.drop (firstLen env.cfg info))) (by omega)
      fun r => by
        rw [hlen, Nat.zero_add]
        exact pktSendLoopAt_later hpos hlt (by omega)
    have hflag : fragFlagAt env.cfg info 0 = .fragStart := if_pos rfl
    rwa [hflag, hlen, slice_zero] at hround

theorem pktSendLoopAt_mono {fuel' : Nat}
    (h : pktSendLoopAt env outcomes info fuel offset p sent = some x) (hle : fuel ≤ fuel') :
    pktSendLoopAt env outcomes info fuel' offset p sent = some x := by
  induction fuel generalizing fuel' offset p sent with
  | zero => cases h
  | succ fuel ih =>
    obtain ⟨fuel', rfl⟩ := Nat.exists_eq_add_of_lt hle
    rw [pktSendLoopAt]
    rw [pktSendLoopAt] at h
    split_ifs at h ⊢ with hlt
    · split at h
      · exact h
      · split_ifs at h ⊢
        · exact ih h (by omega)
        · exact h
    · exact h

theorem tuyaAiBasicPktSendAt_unique {fuel' : Nat} {y : Except MemFault AiSendResult}
    (h : tuyaAiBasicPktSendAt env outcomes fuel p info = some x)
    (h' : tuyaAiBasicPktSendAt env outcomes fuel' p info = some y) : x = y := by
  rw [tuyaAiBasicPktSendAt] at h h'
  split_ifs at h h'
  · exact Option.some.inj (h.symm.trans h')
  · exact Option.some.inj (h.symm.trans h')
  · have hmax := pktSendLoopAt_mono h (Nat.le_max_left fuel fuel')
    have hmax' := pktSendLoopAt_mono h' (Nat.le_max_right fuel fuel')
    exact Option.some.inj (hmax.symm.trans hmax')

end Loop

/-! ### Truthful calls -/

section Truthful

variable {env : AiEnv} {outcomes : Nat → Taken} {p : AiBasicProto} {info : AiSendPacket}
  {cfg : AiConfig} {fuel : Nat} {r : AiSendResult}

theorem length_pos_of_carries {parts : List (AiFragFlag × Bytes)} {pkts : List Bytes}
    (h : List.Forall₂ (Carries env info p) parts pkts) : ∀ pkt ∈ pkts, 0 < pkt.length := by
  induction h with
  | nil =>
    intro pkt hmem
    cases hmem
  | cons hcarries _ ih =>
    intro pkt hmem
    rcases List.mem_cons.mp hmem with rfl | hrest
    · exact hcarries.length_pos
    · exact ih pkt hrest

theorem truthful_of_sendable (h : Sendable env.cfg info) (hconn : p.connected = true)
    (hzero : ∀ i < (groupParts env.cfg info).length, outcomes i ≠ .other 0) :
    Truthful env outcomes p info := by
  obtain ⟨fuel, hfuel⟩ := @Sendable.exists_eq_sendParts env outcomes p info h hconn
  obtain ⟨r, new, hr, hnew, hall, hgood, hbad⟩ := @sendParts_spec env outcomes p info
    (groupParts env.cfg info) [] h.readable (fun _ => h.fits) (p.transporter_of_connected hconn)
  rw [List.nil_append] at hnew
  subst hnew
  refine ⟨fuel, r, groupParts env.cfg info, by rw [hfuel, hr], h.isGroup, hall, fun hrt => ?_,
    fun hrt hworks htaken => hbad hrt hworks fun i pkt hi => Or.inl ?_⟩
  · obtain ⟨hlen, haccepted⟩ := hgood hrt
    refine ⟨hlen, fun i pkt hi => ?_⟩
    have hlt := (List.getElem?_eq_some_iff.mp hi).1
    have hpos := length_pos_of_carries hall pkt (List.mem_of_getElem? hi)
    have hresult := haccepted i pkt hi
    rw [List.length_nil, Nat.zero_add] at hresult
    refine hresult.resolve_right fun hok => ?_
    cases ho : outcomes i with
    | whole =>
      rw [ho, Taken.result] at hok
      have hnil : pkt.length = 0 := Int.natCast_eq_zero.mp hok
      omega
    | other rt =>
      rw [ho, Taken.result, oprtOk] at hok
      exact hzero i (hlen ▸ hlt) (by rw [ho, hok])
  · rw [List.length_nil, Nat.zero_add]
    exact htaken i pkt hi

theorem IsGroup.length_pos {data : Bytes} {parts : List (AiFragFlag × Bytes)}
    (h : IsGroup data parts) : 0 < parts.length := by
  rw [← List.length_map Prod.fst]
  rcases h.1 with hone | ⟨n, hmany⟩
  · rw [hone]
    exact Nat.one_pos
  · rw [hmany]
    exact Nat.succ_pos _

/-- A packet without data that does not fit into one piece is reported as sent, although nothing
has been handed over. -/
theorem not_truthful_of_nil (hconn : p.connected = true) (hdata : info.data = [])
    (hbig : env.cfg.maxFragmentLength <
      aiGetSendPktLen env.cfg info info.data.length .noFrag) :
    ¬Truthful env outcomes p info := by
  rintro ⟨fuel, r, parts, hr, hgroup, -, hgood, -⟩
  simp only [tuyaAiBasicPktSendAt, hconn, Bool.not_true, Bool.false_eq_true, if_false,
    if_neg (Nat.not_le.mpr hbig)] at hr
  cases fuel with
  | zero => cases hr
  | succ fuel =>
    rw [pktSendLoopAt, hdata, List.length_nil, if_neg (Nat.lt_irrefl 0)] at hr
    obtain rfl := Except.ok.inj (Option.some.inj hr)
    obtain ⟨hlen, -⟩ := hgood rfl
    have hpos := hgroup.length_pos
    rw [← hlen] at hpos
    exact absurd hpos (Nat.lt_irrefl 0)

theorem aiGetSendPktLen_eq_mod (cfg : AiConfig) (info : AiSendPacket) (len : Nat)
    (frag : AiFragFlag) :
    aiGetSendPktLen cfg info len frag = wholePktLen cfg info len frag % 4294967296 := by
  rw [wholePktLen, aiGetSendPktLen, aiGetSendPayloadLen, aiGetSendAttrLen, u32, u32, u32]
  split_ifs <;> omega

theorem wholePktLen_add (cfg : AiConfig) (info : AiSendPacket) (len : Nat) (frag : AiFragFlag) :
    wholePktLen cfg info len frag = wholePktLen cfg info 0 frag + len := by
  rw [wholePktLen_eq, wholePktLen_eq]
  omega

/-- When the first fragment of a packet that is too long for one piece fits, it has no data or
the packet can be sent. -/
theorem room_of_fragLen
    (hbig : cfg.maxFragmentLength < aiGetSendPktLen cfg info info.data.length .noFrag)
    (hle : wholePktLen cfg info (fragLen cfg info 0) .fragStart ≤ cfg.maxFragmentLength) :
    fragLen cfg info 0 = 0 ∨
      wholePktLen cfg info info.data.length .noFrag < 4294967296 ∧
        attrTotal info.attrs + minPktLen < cfg.maxFragmentLength := by
  have hmin := cfg.le_maxFragmentLength
  have hmax := cfg.maxFragmentLength_le
  have hlen := info.length_data_lt
  have hbounds := wholePktLen_bounds cfg info 0 .noFrag
  rw [prefixLen_of_need info .noFrag rfl] at hbounds
  rw [aiGetSendPktLen_eq_mod, wholePktLen_add] at hbig
  rw [wholePktLen_fragStart, wholePktLen_add] at hle
  rw [wholePktLen_add cfg info info.data.length]
  set whole := wholePktLen cfg info 0 .noFrag with hwhole
  have hattr : aiGetSendAttrLen info.attrs = attrTotal info.attrs := u32_of_lt (by omega)
  have hfrag : fragLen cfg info 0 = min info.data.length
      (u32Sub (cfg.maxFragmentLength - minPktLen) (attrTotal info.attrs)) := by
    rw [fragLen, onePacketLen, if_pos rfl, hattr, Nat.sub_zero]
  simp only [minPktLen, packetHeadSize, aiAddPktLen] at hfrag ⊢
  by_cases hroom : attrTotal info.attrs ≤ cfg.maxFragmentLength - 261
  · rw [u32Sub_of_le (by omega) (by omega)] at hfrag
    omega
  · -- The subtraction wraps, and then either all the data or too much goes into the fragment.
    rw [u32Sub_of_lt (by omega) (by omega)] at hfrag
    omega

theorem pktSendLoopAt_stuck (hdata : 0 < info.data.length) (hzero : fragLen env.cfg info 0 = 0)
    (hpass : ∀ (taken : Taken) (q : AiBasicProto) (r : AiSendResult), q.transporter = true →
      (∃ i, taken = outcomes i) →
      aiPacketWrite (env.at taken) q info (slice info.data 0 0) .fragStart info.data.length =
        .ok r →
      r.rt = oprtOk ∧ r.proto.transporter = true)
    {sent : List Bytes} (htrans : p.transporter = true) :
    pktSendLoopAt env outcomes info fuel 0 p sent ≠ some (.ok r) := by
  induction fuel generalizing p sent with
  | zero => rintro ⟨⟩
  | succ fuel ih =>
    intro h
    have hflag : fragFlagAt env.cfg info 0 = .fragStart := if_pos rfl
    rw [pktSendLoopAt, if_pos hdata, hzero, hflag] at h
    split at h
    · cases h
    · next r₁ hw =>
      obtain ⟨hrt, htrans₁⟩ := hpass _ p r₁ htrans ⟨_, rfl⟩ hw
      rw [if_pos hrt] at h
      exact ih htrans₁ h

theorem sendable_of_truthful (hworks : Works env info)
    (htaken : ∀ i, outcomes i = .whole ∨ outcomes i = .other 0) (hconn : p.connected = true)
    (h : Truthful env outcomes p info) : Sendable env.cfg info := by
  have hmax := env.cfg.maxFragmentLength_le
  have htrans := p.transporter_of_connected hconn
  have hread : ∀ a ∈ info.attrs, ∀ f, a.valueBytes ≠ .error (.fault f) := by
    intro a ha f hf
    obtain ⟨v, hv⟩ := hworks.attrs a ha
    rw [hf] at hv
    cases hv
  by_cases hbig : aiGetSendPktLen env.cfg info info.data.length .noFrag ≤ env.cfg.maxFragmentLength
  · obtain ⟨fuel, r, parts, hr, -⟩ := h
    simp only [tuyaAiBasicPktSendAt, hconn, Bool.not_true, Bool.false_eq_true, if_false,
      if_pos hbig] at hr
    have hle := wholePktLen_le_of_write hworks (Option.some.inj hr) hbig
    exact ⟨hread, by omega, Or.inl hle⟩
  by_cases hdata : info.data = []
  · exact absurd h (not_truthful_of_nil hconn hdata (by omega))
  have hpos := List.length_pos_of_ne_nil hdata
  have hflag : fragFlagAt env.cfg info 0 = .fragStart := if_pos rfl
  obtain ⟨fuel, r, parts, hr, -, -, -, hbad⟩ := h
  simp only [tuyaAiBasicPktSendAt, hconn, Bool.not_true, Bool.false_eq_true, if_false,
    if_neg hbig] at hr
  have hslice : (slice info.data 0 (fragLen env.cfg info 0)).length = fragLen env.cfg info 0 :=
    length_slice (by rw [fragLen]; omega)
  -- The first fragment fits, else it is refused before anything has been handed over.
  have hfirst : wholePktLen env.cfg info (fragLen env.cfg info 0) .fragStart ≤
      env.cfg.maxFragmentLength := by
    cases fuel with
    | zero => cases hr
    | succ fuel =>
      rw [pktSendLoopAt, if_pos hpos, hflag] at hr
      split at hr
      · cases hr
      · next r₁ hw =>
        by_cases hsize : aiGetSendPktLen env.cfg info (fragLen env.cfg info 0) .fragStart ≤
            env.cfg.maxFragmentLength
        · have hle := wholePktLen_le_of_write hworks hw (by rwa [hslice])
          rwa [hslice] at hle
        · have hw' := hw
          rw [aiPacketWrite, hslice] at hw'
          have hcfg : (env.at (outcomes 0)).cfg = env.cfg := rfl
          simp only [List.length_nil, hcfg, if_pos (Nat.not_le.mp hsize)] at hw'
          obtain rfl := Except.ok.inj hw'
          rw [if_neg oprtComError_ne_ok] at hr
          obtain rfl := Except.ok.inj (Option.some.inj hr)
          exact absurd (fun i pkt hi => by cases hi) (hbad oprtComError_ne_ok hworks)
  rcases room_of_fragLen (by omega) hfirst with hzero | ⟨hlt, hroom⟩
  · -- The first fragment is written again and again.
    refine absurd hr (pktSendLoopAt_stuck hpos hzero ?_ htrans)
    rintro taken q r₁ hq ⟨i, rfl⟩ hw
    rw [hzero] at hfirst
    have hnone : (slice info.data 0 0).length = 0 := by rw [slice_zero, List.take_zero]; rfl
    obtain ⟨r₂, hw₂, hwritten⟩ := @aiPacketWrite_written env q info (slice info.data 0 0) .fragStart
      (outcomes i) hread hq (by rwa [hnone])
    obtain rfl := Except.ok.inj (hw.symm.trans hw₂)
    refine ⟨?_, hwritten.transporter⟩
    rcases hwritten.sent with ⟨pkt, -, -, hok⟩ | ⟨-, -, hfails⟩
    · refine hok.mpr ?_
      rcases htaken i with ho | ho <;> rw [ho]
      · exact Or.inl rfl
      · exact Or.inr rfl
    · exact absurd hworks hfails
  · exact ⟨hread, hlt, Or.inr ⟨hdata, hroom⟩⟩

/-- **Sending.** A packet that can be sent is sent truthfully by every transport that returns 0 for
none of its parts. Where memory, attributes and ciphers do not fail and the transport takes a packet
whole or returns 0, these are all the packets and transports for which that is so. -/
theorem truthful_iff (env : AiEnv) (outcomes : Nat → Taken) (p : AiBasicProto)
    (info : AiSendPacket) (hconn : p.connected = true) :
    ((Sendable env.cfg info ∧ ∀ i < (groupParts env.cfg info).length, outcomes i ≠ .other 0) →
        Truthful env outcomes p info) ∧
      (Works env info → (∀ i, outcomes i = .whole ∨ outcomes i = .other 0) →
        Truthful env outcomes p info → Sendable env.cfg info ∧
          ∀ i < (groupParts env.cfg info).length, outcomes i ≠ .other 0) := by
  refine ⟨fun h => truthful_of_sendable h.1 hconn h.2, fun hworks htaken h => ?_⟩
  have hsend := sendable_of_truthful hworks htaken hconn h
  refine ⟨hsend, fun i hi hzero => ?_⟩
  obtain ⟨fuel, r, parts, hr, -, -, hgood, -⟩ := h
  obtain ⟨fuel', hfuel'⟩ := @Sendable.exists_eq_sendParts env outcomes p info hsend hconn
  obtain ⟨r', new, hr', hnew, hall, hgood', hbad'⟩ := @sendParts_spec env outcomes p info
    (groupParts env.cfg info) [] hsend.readable (fun _ => hsend.fits)
    (p.transporter_of_connected hconn)
  obtain rfl := Except.ok.inj ((tuyaAiBasicPktSendAt_unique hr hfuel').trans hr')
  rw [List.nil_append] at hnew
  subst hnew
  have haccepted : Accepted outcomes 0 r.sent := by
    intro j pkt _
    rcases htaken (0 + j) with ho | ho <;> rw [ho]
    · exact Or.inl rfl
    · exact Or.inr rfl
  have hrt : r.rt = oprtOk := by
    by_contra hrt
    exact hbad' hrt hworks haccepted
  -- The packet for which the transport has returned 0 has not been taken whole.
  have hlt : i < r.sent.length := by
    rw [(hgood' hrt).1]
    exact hi
  have hwhole := (hgood hrt).2 i r.sent[i] (List.getElem?_eq_getElem hlt)
  rw [hzero, Taken.result] at hwhole
  have hnil : r.sent[i].length = 0 := Int.natCast_eq_zero.mp hwhole.symm
  have hpos := length_pos_of_carries hall r.sent[i] (List.getElem_mem hlt)
  omega

theorem sendable_sampleInfo : Sendable sampleConfig sampleInfo where
  readable a ha := by cases ha
  length_lt := by decide +kernel
  room := Or.inl (by decide +kernel)

theorem truthful_iff_sampleInfo : Truthful sampleEnv (fun _ => .whole) sampleProto sampleInfo :=
  (truthful_iff sampleEnv (fun _ => .whole) sampleProto sampleInfo rfl).1
    ⟨sendable_sampleInfo, fun _ _ h => by cases h⟩

/-- A packet without data whose attributes do not fit, and a transport that takes nothing. -/
theorem not_truthful_attributeInfo :
    ¬Truthful sampleEnv (fun _ => .whole) sampleProto attributeInfo ∧
      ¬Truthful sampleEnv (fun _ => .other 0) sampleProto sampleInfo := by
  refine ⟨not_truthful_of_nil rfl rfl (by decide +kernel), ?_⟩
  rintro ⟨fuel, r, parts, hr, -, -, hgood, -⟩
  have hsent : tuyaAiBasicPktSendAt sampleEnv (fun _ => .other 0) 0 sampleProto sampleInfo =
      some (.ok ⟨oprtOk, { sampleProto with sequenceOut := 2 },
        [sampleUnsigned .noFrag 1 sampleText ++ sampleTextSign]⟩) := by
    decide +kernel
  obtain rfl := Except.ok.inj (tuyaAiBasicPktSendAt_unique hr hsent)
  have hwhole := (hgood rfl).2 0 _ rfl
  exact absurd hwhole (by decide +kernel)

end Truthful

end TuyaOpen.AiProtocol
