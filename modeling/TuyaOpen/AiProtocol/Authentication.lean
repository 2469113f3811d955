import TuyaOpen.AiProtocol.Receive
import TuyaOpen.AiProtocol.Send

/-!
# Packets that are not authentic

`tuya_ai_basic_pkt_read` stores the initialization vector of a packet while it reads the head, and
its sequence before it reads the body. Only then it compares the signature, and if that is wrong
it leaves through `EXIT`, which throws away the fragments collected so far. So a packet that nobody
with the key has sent moves the receiver, unless it happens to carry what the receiver has already.
-/

namespace TuyaOpen.AiProtocol

open ChunkStream

def HmacMatches (env : AiEnv) (p : AiBasicProto) (pkt : Bytes) : Prop :=
  aiSignLen ≤ aiGetPacketLen pkt ∧ aiPacketSign env p pkt = .ok (packetSign pkt)

/-- `tal_sha256_mac` reports no error for what `tuya_ai_basic_pkt_read` signs of a packet. -/
def HmacComputed (env : AiEnv) (p : AiBasicProto) (pkt : Bytes) : Prop :=
  ∀ rt, aiPacketSign env p (recvBuf env.cfg pkt) ≠ .error (.err rt)

/-- The call of `tuya_ai_basic_pkt_read` returns and leaves `sequence_in`, `decrypt_iv` and
`recv_frag_mng` as they were before it. -/
def ReadLeavesState (env : AiEnv) (p : AiBasicProto) (es : Transport) : Prop :=
  ∃ r, tuyaAiBasicPktRead env p es = some (.ok r) ∧ r.proto.sequenceIn = p.sequenceIn ∧
    r.proto.decryptIv = p.decryptIv ∧ r.proto.recvFragMng = p.recvFragMng

/-- The initialization vector in a packet, if there is one, is the one in `decrypt_iv`. -/
def CarriesIv (p : AiBasicProto) (pkt : Bytes) : Prop :=
  headIvFlag pkt → slice pkt packetHeadSize aiIvLen = p.decryptIv

section Read

variable {env : AiEnv} {p q : AiBasicProto} {es es' : Transport} {pkt head body rest : Bytes}

theorem read_of_exit {recvLen : OperateRet} (h : recvPacket env p es = .ok (.exit recvLen q es')) :
    tuyaAiBasicPktRead env p es = some (.ok (exitRead recvLen q es')) := by
  rw [tuyaAiBasicPktRead_eq, h]

theorem read_of_fault {f : MemFault} (h : recvPacket env p es = .error f) :
    tuyaAiBasicPktRead env p es = some (.error f) := by
  rw [tuyaAiBasicPktRead_eq, h]

theorem storeIv_decryptIv_iff (hlen : aiGetHeadLen head ≤ head.length) :
    (storeIv p head).decryptIv = p.decryptIv ↔ CarriesIv p head := by
  unfold storeIv CarriesIv
  by_cases hiv : headIvFlag head = true
  · have hslice : (slice head packetHeadSize aiIvLen).length = aiIvLen := by
      refine length_slice ?_
      simp only [aiGetHeadLen, hiv, ivSize, ↓reduceIte] at hlen
      omega
    rw [if_pos hiv, AiBasicProto.decryptIv_setDecryptIv p hslice]
    exact ⟨fun h _ => h, fun h => h hiv⟩
  · rw [if_neg hiv]
    exact iff_of_true rfl fun h => absurd h hiv

/-- A call that ends at `EXIT` in the state `q` leaves the state as it was just when `q` has the
old sequence and initialization vector and nothing was collected. -/
theorem readLeavesState_of_exit {recvLen : OperateRet}
    (h : recvPacket env p es = .ok (.exit recvLen q es')) :
    ReadLeavesState env p es ↔
      q.sequenceIn = p.sequenceIn ∧ q.decryptIv = p.decryptIv ∧ p.recvFragMng = .zero := by
  constructor
  · rintro ⟨r, hr, hseq, hiv, hmng⟩
    rw [read_of_exit h] at hr
    obtain rfl := Except.ok.inj (Option.some.inj hr)
    exact ⟨hseq, hiv, hmng.symm⟩
  · rintro ⟨hseq, hiv, hmng⟩
    exact ⟨_, read_of_exit h, hseq, hiv, hmng.symm⟩

theorem not_readLeavesState_of_fault {f : MemFault} (h : recvPacket env p es = .error f) :
    ¬ReadLeavesState env p es := by
  rintro ⟨r, hr, -⟩
  rw [read_of_fault h] at hr
  cases hr

theorem recvCheck_of_short (recvLen : OperateRet) (es : Transport) (h : IsFramed pkt)
    (hfit : pkt.length ≤ env.cfg.recvBufSize) (hshort : aiGetPacketLen pkt < aiSignLen)
    (hmac : HmacComputed env p pkt) : ∃ f, recvCheck env p pkt recvLen es = .error f := by
  have hM := env.cfg.maxFragmentLength_le
  obtain ⟨hhead, -, hpayload, -⟩ := h.recvBuf env.cfg
  have hpl : aiGetPayloadLen pkt = aiGetPacketLen pkt + 4294967296 - aiSignLen :=
    u32Sub_of_lt (by decide) hshort
  simp only [aiSignLen] at hpl
  have hnone : readSpan (recvBuf env.cfg pkt) (aiGetHeadLen pkt + aiGetPayloadLen pkt) aiSignLen =
      none := by
    refine readSpan_eq_none ?_
    rw [length_recvBuf hfit]
    simp only [AiConfig.recvBufSize, aiAddPktLen]
    omega
  simp only [recvCheck, hhead, hpayload, hnone]
  split
  · exact ⟨_, rfl⟩
  · next rt hrt => exact absurd hrt (hmac rt)
  · exact ⟨_, rfl⟩

theorem recvCheck_of_mismatch (recvLen : OperateRet) (es : Transport) (h : IsFramed pkt)
    (hsign : aiSignLen ≤ aiGetPacketLen pkt) (hfit : pkt.length ≤ env.cfg.recvBufSize)
    (hbad : ¬HmacMatches env p pkt) :
    ∃ rt, recvCheck env p pkt recvLen es = .ok (.exit rt p es) := by
  have hpl := aiGetPayloadLen_add hsign
  have hM := env.cfg.maxFragmentLength_le
  have hframe : pkt.length = aiGetHeadLen pkt + aiGetPacketLen pkt := h
  rw [recvCheck_of_isFramed recvLen h hsign hfit]
  cases hs : aiPacketSign env p pkt with
  | error e =>
    cases e with
    | err rt => exact ⟨_, rfl⟩
    | fault f =>
      -- All the signed spans lie inside the packet.
      have hnone := (fault_of_aiPacketSign hs).2
      rw [signData, Option.map_eq_none_iff, ← Option.not_isSome_iff_eq_none,
        readSpans_isSome_iff] at hnone
      refine absurd (fun s hs => ?_) hnone
      simp only [AiConfig.recvBufSize, aiAddPktLen] at hfit
      have := signSpans_le (by omega) hs
      omega
  | ok calcSign =>
    have hne : calcSign ≠ packetSign pkt := fun heq => hbad ⟨hsign, by rw [hs, heq]⟩
    simp only [if_pos hne]
    exact ⟨_, rfl⟩

theorem nextSequenceIn_eq_iff {s sequenceIn : Nat} (hlt : sequenceIn < s) (hs : s < 65536) :
    nextSequenceIn s = sequenceIn ↔ s = 0xFFFF ∧ sequenceIn = 0 := by
  unfold nextSequenceIn
  split_ifs <;> omega

theorem headSequence_lt (head : Bytes) : headSequence head < 65536 := by
  have hlt := beNat_lt (slice head 1 2)
  have hlen : (slice head 1 2).length ≤ 2 := by
    simp only [slice, List.length_take]
    omega
  have hpow : 256 ^ (slice head 1 2).length ≤ 256 ^ 2 := Nat.pow_le_pow_right (by decide) hlen
  rw [headSequence]
  omega

theorem storeIv_signKey (p : AiBasicProto) (head : Bytes) :
    (storeIv p head).signKey = p.signKey := by
  unfold storeIv
  split <;> rfl

/-- A packet whose length wraps around is not read: the signature of its head alone is computed, and
that leaves `recv_buf`. -/
theorem recvPacket_of_wrap (hq : Quiet retryRead es) (hs : StartsWithData es)
    (hc : content es = pkt ++ rest) (hpkt : IsFramed pkt)
    (hsize : u32 (aiGetPacketLen pkt + aiGetHeadLen pkt) ≤ env.cfg.recvBufSize)
    (hseq : p.sequenceIn < headSequence pkt)
    (hwrap : 4294967296 ≤ aiGetHeadLen pkt + aiGetPacketLen pkt) :
    recvPacket env p es = .error .signSlice := by
  obtain ⟨-, -, -, hhead, hhl, hpl, hheadseq, -⟩ := exists_head_of_isFramed hpkt
  obtain ⟨body, es₁, -, hrecv, -, hq₁, -⟩ :=
    @exists_recvBody_of_isFramed env p es pkt rest hq hs hc hpkt
  set head := pkt.take (aiGetHeadLen pkt) with hheaddef
  rw [← hhl, ← hpl] at hsize hwrap
  rw [← hheadseq, ← storeIv_sequenceIn p pkt] at hseq
  have hneed : ([] : Bytes).length = bodyNeed head := by
    have hlt := aiGetPacketLen_lt head
    have hle := aiGetHeadLen_le head
    rw [bodyNeed, u32, List.length_nil]
    omega
  obtain ⟨last, es₂, -, -, -, -, hbodyeq⟩ := recvBody_of_quiet hq₁ hsize hseq hneed
    (List.nil_append _).symm
  rw [hrecv, hbodyeq, List.append_nil, recvCheck_of_wrap _ hhead hwrap]

/-- A packet that is read, with its new sequence, leaves the state as it was just when it is dropped
at the signature check and `sequence_in` comes back to where it is. -/
theorem readLeavesState_iff_of_new (hq : Quiet retryRead es) (hs : StartsWithData es)
    (hc : content es = pkt ++ rest) (hpkt : IsFramed pkt) (hbad : ¬HmacMatches env p pkt)
    (hmac : HmacComputed env p pkt)
    (hsize : u32 (aiGetPacketLen pkt + aiGetHeadLen pkt) ≤ env.cfg.recvBufSize)
    (hseq : p.sequenceIn < headSequence pkt) :
    ReadLeavesState env p es ↔
      CarriesIv p pkt ∧ p.recvFragMng = .zero ∧
        headSequence pkt = 0xFFFF ∧ p.sequenceIn = 0 ∧ aiSignLen ≤ aiGetPacketLen pkt ∧
          aiGetHeadLen pkt + aiGetPacketLen pkt < 4294967296 := by
  by_cases hwrap : aiGetHeadLen pkt + aiGetPacketLen pkt < 4294967296
  · have hframe : pkt.length = aiGetHeadLen pkt + aiGetPacketLen pkt := hpkt
    have hfit : pkt.length ≤ env.cfg.recvBufSize := by
      rw [u32_of_lt (by omega)] at hsize
      omega
    obtain ⟨last, es', -, -, -, hrecv⟩ := (recvPacket_of_isFramed hq hs hc hpkt hfit).2 hseq
    set q := storeSequence (storeIv p pkt) (headSequence pkt) with hqdef
    have hkey : q.signKey = p.signKey := storeIv_signKey p pkt
    by_cases hsign : aiSignLen ≤ aiGetPacketLen pkt
    · have hbad' : ¬HmacMatches env q pkt := fun h =>
        hbad ⟨h.1, by rw [← h.2, aiPacketSign_of_signKey_eq hkey]⟩
      obtain ⟨rt, hcheck⟩ := recvCheck_of_mismatch (last : Nat) es' hpkt hsign hfit hbad'
      have hqseq : q.sequenceIn = nextSequenceIn (headSequence pkt) := rfl
      have hqiv : q.decryptIv = (storeIv p pkt).decryptIv := rfl
      rw [readLeavesState_of_exit (hrecv.trans hcheck), hqseq, hqiv,
        storeIv_decryptIv_iff hpkt.le_length, nextSequenceIn_eq_iff hseq (headSequence_lt pkt)]
      constructor
      · rintro ⟨⟨h1, h2⟩, h3, h4⟩
        exact ⟨h3, h4, h1, h2, hsign, hwrap⟩
      · rintro ⟨h3, h4, h1, h2, -⟩
        exact ⟨⟨h1, h2⟩, h3, h4⟩
    · have hmac' : HmacComputed env q pkt := fun rt h =>
        hmac rt (by rw [← h, aiPacketSign_of_signKey_eq hkey])
      obtain ⟨f, hcheck⟩ :=
        recvCheck_of_short (last : Nat) es' hpkt hfit (Nat.not_le.mp hsign) hmac'
      refine iff_of_false (not_readLeavesState_of_fault (hrecv.trans hcheck)) ?_
      rintro ⟨-, -, -, -, h, -⟩
      exact hsign h
  · have hfault := recvPacket_of_wrap hq hs hc hpkt hsize hseq (Nat.not_lt.mp hwrap)
    refine iff_of_false (not_readLeavesState_of_fault hfault) ?_
    rintro ⟨-, -, -, -, -, h⟩
    exact hwrap h

/-- **When a packet that is not authentic has no effect.** A whole packet arrives, in any chunks,
and its signature does not match. The call that reads it leaves `sequence_in`, `decrypt_iv` and
`recv_frag_mng` as they were just when the packet brings no initialization vector but the one that
is there, nothing has been collected, and the packet is dropped for its size or its sequence or
has the one sequence that takes `sequence_in` back to where it is. -/
theorem readLeavesState_iff (hq : Quiet retryRead es) (hs : StartsWithData es)
    (hc : content es = pkt ++ rest) (hpkt : IsFramed pkt) (hbad : ¬HmacMatches env p pkt)
    (hmac : HmacComputed env p pkt) :
    ReadLeavesState env p es ↔
      CarriesIv p pkt ∧ p.recvFragMng = .zero ∧
        (env.cfg.recvBufSize < u32 (aiGetPacketLen pkt + aiGetHeadLen pkt) ∨
          headSequence pkt ≤ p.sequenceIn ∨
            headSequence pkt = 0xFFFF ∧ p.sequenceIn = 0 ∧ aiSignLen ≤ aiGetPacketLen pkt ∧
              aiGetHeadLen pkt + aiGetPacketLen pkt < 4294967296) := by
  have hiv := storeIv_decryptIv_iff (p := p) hpkt.le_length
  have hseq := storeIv_sequenceIn p pkt
  by_cases hsize : env.cfg.recvBufSize < u32 (aiGetPacketLen pkt + aiGetHeadLen pkt)
  · obtain ⟨es', hexit⟩ := recvPacket_of_oversize (p := p) hq hs hc hpkt hsize
    rw [readLeavesState_of_exit hexit, hiv]
    exact ⟨fun h => ⟨h.2.1, h.2.2, .inl hsize⟩, fun h => ⟨hseq, h.1, h.2.1⟩⟩
  by_cases hle : headSequence pkt ≤ p.sequenceIn
  · obtain ⟨es', hexit⟩ := recvPacket_of_sequence_le hq hs hc hpkt (Nat.not_lt.mp hsize) hle
    rw [readLeavesState_of_exit hexit, hiv]
    exact ⟨fun h => ⟨h.2.1, h.2.2, .inr (.inl hle)⟩, fun h => ⟨hseq, h.1, h.2.1⟩⟩
  rw [readLeavesState_iff_of_new hq hs hc hpkt hbad hmac (Nat.not_lt.mp hsize) (Nat.not_le.mp hle)]
  constructor
  · rintro ⟨hcarries, hzero, hback⟩
    exact ⟨hcarries, hzero, .inr (.inr hback)⟩
  · rintro ⟨hcarries, hzero, h | h | hback⟩
    · exact absurd h hsize
    · exact absurd h hle
    · exact ⟨hcarries, hzero, hback⟩

end Read

def forgedPacket : Bytes := sampleUnsigned .noFrag 1 sampleText ++ List.replicate 32 0

def forgedStream : Transport := pushBack forgedPacket []

theorem forgedStream_facts : Quiet retryRead forgedStream ∧ StartsWithData forgedStream ∧
    content forgedStream = forgedPacket ++ [] := by
  refine ⟨fun s hs => ?_, ⟨_, _, _, rfl⟩, content_pushBack _ _⟩
  cases hs with
  | tail _ hs => cases hs

theorem forgedPacket_facts (p : AiBasicProto) (hkey : p.signKey = sampleProto.signKey) :
    IsFramed forgedPacket ∧ ¬HmacMatches sampleEnv p forgedPacket ∧
      HmacComputed sampleEnv p forgedPacket := by
  have hbuf : aiPacketSign sampleEnv sampleProto (recvBuf sampleConfig forgedPacket) =
      .ok sampleTextSign := by
    decide +kernel
  have hsign : aiPacketSign sampleEnv sampleProto forgedPacket ≠ .ok (packetSign forgedPacket) := by
    decide +kernel
  refine ⟨by unfold IsFramed; decide +kernel, fun h => hsign ?_, fun rt h => ?_⟩
  · rw [← h.2, aiPacketSign_of_signKey_eq hkey]
  · rw [aiPacketSign_of_signKey_eq hkey] at h
    cases hbuf.symm.trans h

/-- A forged packet has no effect on a receiver that already has its sequence and vector. -/
theorem readLeavesState_forgedStream :
    ReadLeavesState sampleEnv
      (storeSequence (sampleProto.setDecryptIv sampleProto.encryptIv) 1) forgedStream := by
  obtain ⟨hframed, hbad, hmac⟩ := forgedPacket_facts
    (storeSequence (sampleProto.setDecryptIv sampleProto.encryptIv) 1) rfl
  obtain ⟨hquiet, hstart, hcontent⟩ := forgedStream_facts
  refine (readLeavesState_iff hquiet hstart hcontent hframed hbad hmac).mpr
    ⟨fun _ => ?_, rfl, .inr (.inl ?_)⟩
  · decide +kernel
  · decide +kernel

/-- A forged packet on a new connection: `sequence_in` goes from 0 to 1. -/
theorem exists_forged_effect :
    ¬∀ env p es pkt rest, Quiet retryRead es → StartsWithData es → content es = pkt ++ rest →
      IsFramed pkt → ¬HmacMatches env p pkt → HmacComputed env p pkt → ReadLeavesState env p es := by
  intro h
  obtain ⟨hframed, hbad, hmac⟩ := forgedPacket_facts sampleProto rfl
  obtain ⟨hquiet, hstart, hcontent⟩ := forgedStream_facts
  obtain ⟨r, hr, hseq, -⟩ := h sampleEnv sampleProto forgedStream forgedPacket [] hquiet hstart
    hcontent hframed hbad hmac
  have hafter : (tuyaAiBasicPktRead sampleEnv sampleProto forgedStream).map
      (fun r => r.map fun r => r.proto.sequenceIn) = some (.ok 1) := by
    decide +kernel
  rw [hr] at hafter
  simp only [Option.map_some, Option.some.injEq, Except.map, Except.ok.injEq] at hafter
  rw [hafter] at hseq
  cases hseq

end TuyaOpen.AiProtocol
