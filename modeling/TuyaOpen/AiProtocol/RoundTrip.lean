import TuyaOpen.AiProtocol.Receive
import TuyaOpen.AiProtocol.Send

/-!
# Reassembly of what was sent

The packets that `tuya_ai_basic_pkt_send` hands to the transport, read in order by
`tuya_ai_basic_pkt_read` on a receiver with the same keys. Sender and receiver keep in step from
packet to packet: their vectors agree and the last accepted sequence is the last one assigned.

A packet that is sent in one piece always arrives. A packet that is sent in fragments does not

* if it has no data: the fragment loop does not run at all and still reports success;
* if its data alone would not exceed the decrypted first fragment, although attributes and data
  together were too long for one piece: the receiver takes the declared length for a mistake;
* if the sequence wraps inside the group;
* if the size of the reassembly buffer wraps.

## Main results

* `recvPacket_of_write`: a packet that was written is decrypted by a receiver in step.
* `delivers_tail_iff`: the later fragments of a group.
* `delivers_start_iff`: a whole group.
* `readDelivers_iff`: a packet of any size.
-/

namespace TuyaOpen.AiProtocol

open ChunkStream

/-! ### One packet -/

/-- A receiver that has accepted all packets of a sender so far, since the last one with an
initialization vector. -/
structure InStep (p q : AiBasicProto) : Prop where
  cryptKey : q.cryptKey = p.cryptKey
  signKey : q.signKey = p.signKey
  decryptIv : q.decryptIv = p.encryptIv
  sequenceOut : p.sequenceOut = q.sequenceIn + 1
  sequenceIn_lt : q.sequenceIn < 0xFFFF

theorem InStep.setRecvFragMng {p q : AiBasicProto} (h : InStep p q) (mng : AiRecvFragMng) :
    InStep p { q with recvFragMng := mng } :=
  ⟨h.cryptKey, h.signKey, h.decryptIv, h.sequenceOut, h.sequenceIn_lt⟩

section Packet

variable {env : AiEnv} {p q : AiBasicProto} {info : AiSendPacket} {data : Bytes}
  {frag : AiFragFlag} {originLen : Nat} {r : AiSendResult} {es : Transport} {rest : Bytes}

theorem nextSequence_lt (sequenceOut : Nat) : nextSequence sequenceOut < 0xFFFF := by
  unfold nextSequence
  split_ifs <;> omega

theorem isFramed_unsignedPacket {cfg : AiConfig} {type : UInt8} {sequence : Nat}
    {iv payload sign : Bytes} (hiv : iv.length = aiIvLen) (hsign : sign.length = aiSignLen)
    (h : payload.length + aiSignLen < 4294967296) :
    IsFramed (unsignedPacket cfg type frag sequence iv payload ++ sign) := by
  rw [IsFramed, aiGetHeadLen_unsignedPacket, aiGetPacketLen_unsignedPacket hiv h,
    List.length_append, length_unsignedPacket hiv, hsign]
  omega

theorem packetSign_unsignedPacket {cfg : AiConfig} {type : UInt8} {sequence : Nat}
    {iv payload : Bytes} (hiv : iv.length = aiIvLen)
    (h : payload.length + aiSignLen < 4294967296) (sign : Bytes) :
    packetSign (unsignedPacket cfg type frag sequence iv payload ++ sign) = sign := by
  rw [packetSign, aiGetHeadLen_unsignedPacket, aiGetPayloadLen_unsignedPacket hiv h,
    ← length_unsignedPacket hiv, List.drop_left]

theorem startsWithData_of_isFramed {pkt : Bytes} (hall : AllData es)
    (hc : content es = pkt ++ rest) (hframed : IsFramed pkt) : StartsWithData es := by
  have hpos := nine_le_aiGetHeadLen pkt
  have hlen : pkt.length = aiGetHeadLen pkt + aiGetPacketLen pkt := hframed
  refine startsWithData_of_allData hall fun hnil => ?_
  have hzero := congrArg List.length (hc.symm.trans hnil)
  rw [List.length_append, List.length_nil] at hzero
  omega

theorem decryptIv_storeIv {cfg : AiConfig} {type : UInt8} {sequence : Nat} {iv payload : Bytes}
    (hiv : iv.length = aiIvLen) (h : aiIsNeedIv type frag = true ∨ q.decryptIv = iv)
    (rest : Bytes) :
    storeIv q (unsignedPacket cfg type frag sequence iv payload ++ rest) = q.setDecryptIv iv := by
  rw [storeIv, headIvFlag_unsignedPacket]
  by_cases hneed : aiIsNeedIv type frag = true
  · have hspan := slice_append_right (packetHead sequence true (aiGetSl cfg type) frag) iv
      (beBytes 4 (payload.length + aiSignLen) ++ payload ++ rest)
    rw [length_packetHead, hiv] at hspan
    rw [if_pos hneed]
    simp only [unsignedPacket, hneed, ↓reduceIte, List.append_assoc] at hspan ⊢
    rw [hspan]
  · rw [if_neg hneed, ← h.resolve_left hneed, AiBasicProto.setDecryptIv_self]

theorem written_facts (htrans : p.transporter = true)
    (hw : aiPacketWrite env p info data frag originLen = .ok r) (hrt : r.rt = oprtOk) :
    ∃ pkt, r.sent = [pkt] ∧ IsFramed pkt ∧ pkt.length ≤ env.cfg.recvBufSize ∧
      headSequence pkt = nextSequence p.sequenceOut := by
  obtain ⟨ct, sign, -, hsign, hsent, hsize, hM⟩ := aiPacketWrite_ok htrans hw hrt
  have hslen := length_of_aiPacketSign hsign
  have hmax := env.cfg.maxFragmentLength_le
  have hseq : nextSequence p.sequenceOut < 65536 := by
    have hlt := nextSequence_lt p.sequenceOut
    omega
  refine ⟨_, hsent, isFramed_unsignedPacket p.length_encryptIv hslen (by omega), ?_,
    headSequence_unsignedPacket hseq sign⟩
  rw [List.length_append, length_unsignedPacket p.length_encryptIv, hslen]
  simp only [AiConfig.recvBufSize, aiAddPktLen]
  omega

theorem recvPacket_of_write_le (htrans : p.transporter = true)
    (hw : aiPacketWrite env p info data frag originLen = .ok r) (hrt : r.rt = oprtOk)
    (hseq : nextSequence p.sequenceOut ≤ q.sequenceIn) (hall : AllData es)
    (hc : content es = r.sent.flatten ++ rest) :
    ∃ recvLen q' es', recvPacket env q es = .ok (.exit recvLen q' es') := by
  obtain ⟨pkt, hsent, hframed, hfit, hhead⟩ := written_facts htrans hw hrt
  rw [hsent, List.flatten_singleton] at hc
  have hs := startsWithData_of_isFramed hall hc hframed
  obtain ⟨es', hexit⟩ := (recvPacket_of_isFramed (p := q) hall.quiet hs hc hframed hfit).1
    (hhead ▸ hseq)
  exact ⟨_, _, es', hexit⟩

/-- A packet that is ahead of `sequence_in` is decrypted by a receiver with the same keys, which
is in step with the sender then. -/
theorem recvPacket_of_write (hcrypt : CryptInvertible env) (hmalloc : ∀ n, env.malloc n = true)
    (htype : info.type ≠ aiPtClientHello) (htrans : p.transporter = true)
    (hw : aiPacketWrite env p info data frag originLen = .ok r) (hrt : r.rt = oprtOk)
    (hkey : q.cryptKey = p.cryptKey) (hsignKey : q.signKey = p.signKey)
    (hiv : aiIsNeedIv info.type frag = true ∨ q.decryptIv = p.encryptIv)
    (hseq : q.sequenceIn < nextSequence p.sequenceOut) (hall : AllData es)
    (hc : content es = r.sent.flatten ++ rest) :
    ∃ buf recvLen q' es',
      recvPacket env q es =
        .ok (.packet ⟨frag, buf, (fragImage info data frag originLen).length⟩ recvLen q' es') ∧
      buf.take (fragImage info data frag originLen).length = fragImage info data frag originLen ∧
      (fragImage info data frag originLen).length ≤ buf.length ∧
      AllData es' ∧ content es' = rest ∧ InStep r.proto q' ∧ r.proto.transporter = true ∧
      q'.sequenceIn = nextSequence p.sequenceOut ∧ q'.recvFragMng = q.recvFragMng ∧
      q'.fragFlag = q.fragFlag := by
  have hlt := nextSequence_lt p.sequenceOut
  have hmax := env.cfg.maxFragmentLength_le
  obtain ⟨ct, sign, hpack, hsign, hsent, hsize, hM⟩ := aiPacketWrite_ok htrans hw hrt
  obtain ⟨henc, -, -⟩ := aiPackPayload_ok hpack
  obtain ⟨iv', hproto⟩ := aiEncryptPacket_frame henc
  have hslen := length_of_aiPacketSign hsign
  have hctlen := length_le_of_aiEncryptPacket henc
  set image := fragImage info data frag originLen with himage
  set pkt := unsignedPacket env.cfg info.type frag (nextSequence p.sequenceOut) p.encryptIv ct
    ++ sign with hpktdef
  rw [hsent, List.flatten_singleton] at hc
  have hct : ct.length + aiSignLen < 4294967296 := by omega
  have hframed : IsFramed pkt := isFramed_unsignedPacket p.length_encryptIv hslen hct
  have hpktlen : pkt.length = aiGetHeadLen pkt + aiGetPacketLen pkt := hframed
  have hhl : aiGetHeadLen pkt = packetHeadSize + ivSize (aiIsNeedIv info.type frag) + 4 :=
    aiGetHeadLen_unsignedPacket sign
  have hpl : aiGetPacketLen pkt = ct.length + aiSignLen :=
    aiGetPacketLen_unsignedPacket p.length_encryptIv hct sign
  have hpay : aiGetPayloadLen pkt = ct.length :=
    aiGetPayloadLen_unsignedPacket p.length_encryptIv hct sign
  have hheadseq : headSequence pkt = nextSequence p.sequenceOut :=
    headSequence_unsignedPacket (by omega) sign
  have hfit : pkt.length ≤ env.cfg.recvBufSize := by
    simp only [AiConfig.recvBufSize, aiAddPktLen]
    omega
  have hs := startsWithData_of_isFramed hall hc hframed
  obtain ⟨last, es', -, hc', hall', hrecv⟩ :=
    (recvPacket_of_isFramed (p := q) hall.quiet hs hc hframed hfit).2 (hheadseq ▸ hseq)
  rw [hheadseq, hpktdef, decryptIv_storeIv p.length_encryptIv hiv, ← hpktdef,
    recvCheck_of_isFramed _ hframed (by rw [hpl]; omega) hfit] at hrecv
  set q₁ := storeSequence (q.setDecryptIv p.encryptIv) (nextSequence p.sequenceOut) with hq₁
  -- The receiver computes the signature that the sender has sent.
  have hcalc : aiPacketSign env q₁ pkt = .ok sign := by
    have hsame : q₁.signKey = r.proto.signKey := by
      rw [hproto]
      exact hsignKey
    rw [aiPacketSign_of_signKey_eq hsame, hpktdef,
      aiPacketSign_unsignedPacket p.length_encryptIv hct, hsign]
  have hpktsign : packetSign pkt = sign := packetSign_unsignedPacket p.length_encryptIv hct sign
  have hslice : slice pkt (aiGetHeadLen pkt) (aiGetPayloadLen pkt) = ct := by
    rw [hhl, hpay]
    exact slice_unsignedPacket p.length_encryptIv sign
  obtain ⟨buf, hdec, hbuflen, hbuf⟩ := hcrypt (takeSequence p) q₁ info.type image ct r.proto
    (pkt.length + aiAddPktLen) htype hkey
    (AiBasicProto.decryptIv_setDecryptIv q p.length_encryptIv) henc (by omega)
    (by simp only [aiAddPktLen]; omega)
  have hfrag : headFragFlag pkt = frag := headFragFlag_unsignedPacket sign
  have hnext : nextSequenceIn (nextSequence p.sequenceOut) = nextSequence p.sequenceOut :=
    if_neg (by omega)
  simp only [hcalc, hpktsign, ne_eq, not_true_eq_false, if_false, hmalloc, if_true, hslice, hdec,
    hfrag] at hrecv
  refine ⟨buf, last, _, es', hrecv, hbuf, by omega, hall' hall, hc', ?_, ?_, hnext, rfl, rfl⟩
  · have hivlen : r.proto.encryptIv.length = aiIvLen := r.proto.length_encryptIv
    have hkeys : r.proto.cryptKey = p.cryptKey ∧ r.proto.signKey = p.signKey ∧
        r.proto.sequenceOut = nextSequence p.sequenceOut + 1 := by
      rw [hproto]
      exact ⟨rfl, rfl, rfl⟩
    refine ⟨hkey.trans hkeys.1.symm, hsignKey.trans hkeys.2.1.symm,
      AiBasicProto.decryptIv_setDecryptIv q₁ hivlen, ?_, lt_of_eq_of_lt hnext hlt⟩
    rw [hkeys.2.2]
    exact congrArg (· + 1) hnext.symm
  · rw [hproto]
    exact htrans

end Packet

/-! ### The sending loop -/

section SendLoop

variable {env : AiEnv} {p : AiBasicProto} {info : AiSendPacket} {r : AiSendResult}
  {fuel offset : Nat} {sent : List Bytes}

/-- The number of bytes of data in the fragment at `offset`. -/
def fragLen (cfg : AiConfig) (info : AiSendPacket) (offset : Nat) : Nat :=
  min (info.data.length - offset) (onePacketLen cfg info.attrs offset)

/-- The flag of the fragment at `offset`. -/
def fragFlagAt (cfg : AiConfig) (info : AiSendPacket) (offset : Nat) : AiFragFlag :=
  if offset = 0 then .fragStart
  else if offset + fragLen cfg info offset = info.data.length then .fragEnd
  else .fragIng

theorem pktSendLoop_round (hlt : offset < info.data.length)
    (h : pktSendLoop env info (fuel + 1) offset p sent = some (.ok r)) (hrt : r.rt = oprtOk) :
    ∃ r₁, aiPacketWrite env p info (slice info.data offset (fragLen env.cfg info offset))
        (fragFlagAt env.cfg info offset) info.data.length = .ok r₁ ∧ r₁.rt = oprtOk ∧
      pktSendLoop env info fuel (offset + fragLen env.cfg info offset) r₁.proto
        (sent ++ r₁.sent) = some (.ok r) := by
  rw [pktSendLoop, if_pos hlt] at h
  dsimp only at h
  split at h
  · cases h
  · next r₁ hw =>
    split_ifs at h with hok
    · exact ⟨r₁, hw, hok, h⟩
    · obtain rfl := Except.ok.inj (Option.some.inj h)
      exact absurd hrt hok

theorem pktSendLoop_done (hge : info.data.length ≤ offset)
    (h : pktSendLoop env info fuel offset p sent = some (.ok r)) : r.sent = sent := by
  cases fuel with
  | zero => cases h
  | succ fuel =>
    rw [pktSendLoop, if_neg (Nat.not_lt.mpr hge)] at h
    obtain rfl := Except.ok.inj (Option.some.inj h)
    rfl

theorem exists_sent_of_pktSendLoop (h : pktSendLoop env info fuel offset p sent = some (.ok r))
    (hrt : r.rt = oprtOk) : ∃ tail, r.sent = sent ++ tail := by
  induction fuel generalizing offset p sent with
  | zero => cases h
  | succ fuel ih =>
    by_cases hlt : offset < info.data.length
    · obtain ⟨r₁, -, -, hnext⟩ := pktSendLoop_round hlt h hrt
      obtain ⟨tail, htail⟩ := ih hnext
      exact ⟨r₁.sent ++ tail, by rw [htail, List.append_assoc]⟩
    · exact ⟨[], by rw [pktSendLoop_done (Nat.not_lt.mp hlt) h, List.append_nil]⟩

theorem pktSendLoop_stuck (hlen : 0 < info.data.length) (hzero : fragLen env.cfg info 0 = 0)
    (hrt : r.rt = oprtOk) : pktSendLoop env info fuel 0 p sent ≠ some (.ok r) := by
  induction fuel generalizing p sent with
  | zero => rintro ⟨⟩
  | succ fuel ih =>
    intro h
    obtain ⟨r₁, -, -, hnext⟩ := pktSendLoop_round hlen h hrt
    rw [hzero] at hnext
    exact ih hnext

end SendLoop

/-! ### Calls that deliver -/

/-- A call of `tuya_ai_basic_pkt_read`, nested at most `fuel` deep, takes the whole stream and
hands out exactly the given bytes. -/
def Delivers (env : AiEnv) (fuel : Nat) (q : AiBasicProto) (es : Transport) (bytes : Bytes) :
    Prop :=
  ∃ out q' es', pktReadLoop env fuel q es = some (.ok ⟨oprtOk, some out, q', es'⟩) ∧
    readSpan out.data 0 out.len = some bytes ∧ content es' = []

/-- A call of `tuya_ai_basic_pkt_read` takes the whole stream and hands out exactly the given
bytes. -/
def ReadDelivers (env : AiEnv) (q : AiBasicProto) (es : Transport) (bytes : Bytes) : Prop :=
  ∃ out q' es', tuyaAiBasicPktRead env q es = some (.ok ⟨oprtOk, some out, q', es'⟩) ∧
    readSpan out.data 0 out.len = some bytes ∧ content es' = []

section Delivers

variable {env : AiEnv} {q q₁ q₂ : AiBasicProto} {es es₁ : Transport} {bytes : Bytes} {fuel : Nat}
  {pkt : AiFragPacket} {recvLen : OperateRet}

theorem not_delivers_of_exit (h : recvPacket env q es = .ok (.exit recvLen q₁ es₁)) :
    ¬Delivers env fuel q es bytes := by
  rintro ⟨out, q', es', hread, -⟩
  cases fuel with
  | zero => cases hread
  | succ fuel =>
    rw [pktReadLoop, h] at hread
    cases hread

theorem not_delivers_of_fragExit (h : recvPacket env q es = .ok (.packet pkt recvLen q₁ es₁))
    (hfrag : fragProcess env q₁ pkt = .ok (.exit q₂)) : ¬Delivers env fuel q es bytes := by
  rintro ⟨out, q', es', hread, -⟩
  cases fuel with
  | zero => cases hread
  | succ fuel =>
    rw [pktReadLoop, h] at hread
    simp only [hfrag] at hread
    cases hread

theorem not_delivers_of_fault {f : MemFault}
    (h : recvPacket env q es = .ok (.packet pkt recvLen q₁ es₁))
    (hfrag : fragProcess env q₁ pkt = .error f) : ¬Delivers env fuel q es bytes := by
  rintro ⟨out, q', es', hread, -⟩
  cases fuel with
  | zero => cases hread
  | succ fuel =>
    rw [pktReadLoop, h] at hread
    simp only [hfrag] at hread
    cases hread

theorem delivers_of_deliver {out : AiReadOut}
    (h : recvPacket env q es = .ok (.packet pkt recvLen q₁ es₁))
    (hfrag : fragProcess env q₁ pkt = .ok (.deliver out q₂))
    (hout : readSpan out.data 0 out.len = some bytes) (hc : content es₁ = []) :
    Delivers env (fuel + 1) q es bytes := by
  refine ⟨out, q₂, es₁, ?_, hout, hc⟩
  rw [pktReadLoop, h]
  simp only [hfrag]

theorem delivers_succ_iff (h : recvPacket env q es = .ok (.packet pkt recvLen q₁ es₁))
    (hfrag : fragProcess env q₁ pkt = .ok (.again q₂)) :
    Delivers env (fuel + 1) q es bytes ↔ Delivers env fuel q₂ es₁ bytes := by
  unfold Delivers
  rw [pktReadLoop, h]
  simp only [hfrag]
  cases hnext : pktReadLoop env fuel q₂ es₁ with
  | none => simp
  | some res =>
    cases res with
    | error f => simp
    | ok r =>
      by_cases hok : r.rt = oprtOk
      · simp only [if_pos hok]
      · simp only [if_neg hok, exitRead]
        constructor
        · rintro ⟨out, q', es', hread, -⟩
          cases hread
        · rintro ⟨out, q', es', hread, -⟩
          obtain rfl := Except.ok.inj (Option.some.inj hread)
          exact absurd rfl hok

end Delivers

/-! ### The later fragments of a group -/

/-- The number of fragments of `one` bytes at most that `left` bytes take. -/
def fragCount (one left : Nat) : Nat := (left + one - 1) / one

theorem fragCount_of_le {one left : Nat} (hpos : 0 < left) (hle : left ≤ one) :
    fragCount one left = 1 := by
  rw [fragCount]
  exact Nat.div_eq_of_lt_le (by omega) (by omega)

theorem fragCount_of_lt {one left : Nat} (hpos : 0 < one) (hlt : one < left) :
    fragCount one left = fragCount one (left - one) + 1 := by
  have hsum : left + one - 1 = left - one + one - 1 + one := by omega
  rw [fragCount, hsum, Nat.add_div_right _ hpos, fragCount]

section Tail

variable {env : AiEnv} {p q : AiBasicProto} {info : AiSendPacket} {r : AiSendResult}
  {pkt : AiFragPacket} {image buf : Bytes} {es : Transport}

theorem copyFragment_of_room {offset : Nat} (hlen : pkt.decryptLen = image.length)
    (hsrc : pkt.decryptBuf.take image.length = image)
    (hle : image.length ≤ pkt.decryptBuf.length) (hroom : offset + image.length ≤ buf.length) :
    ∃ buf', copyFragment (some buf) offset pkt = .ok buf' ∧ buf'.length = buf.length ∧
      buf'.take (offset + image.length) = buf.take offset ++ image := by
  have hread : readSpan pkt.decryptBuf 0 image.length = some image := by
    rw [readSpan_of_le (by omega), slice_zero, hsrc]
  obtain ⟨buf', hbuf'⟩ : ∃ buf', memcpy buf offset image = some buf' := ⟨_, memcpy_of_le hroom⟩
  refine ⟨buf', ?_, length_of_memcpy hbuf', take_memcpy hbuf'⟩
  rw [copyFragment, hlen, if_neg (by omega), hread]
  simp only [hbuf']

theorem copyFragment_of_no_room {offset : Nat} (h : buf.length < offset + pkt.decryptLen) :
    copyFragment (some buf) offset pkt = .error .fragCopy := if_pos h

theorem fragProcess_of_pending {flag : AiFragFlag} {offset : Nat} (hflag : q.fragFlag = false)
    (hmng : q.recvFragMng = ⟨flag, offset, some buf⟩)
    (hfrag : pkt.fragFlag = .fragIng ∨ pkt.fragFlag = .fragEnd) :
    fragProcess env q pkt =
      match copyFragment (some buf) offset pkt with
      | .error f => .error f
      | .ok buf' =>
        if pkt.fragFlag = .fragIng then
          .ok (.again { q with recvFragMng := ⟨.fragIng, offset + pkt.decryptLen, some buf'⟩ })
        else
          .ok (.deliver ⟨buf', offset + pkt.decryptLen, .noFrag, true⟩
            { q with recvFragMng := ⟨.fragEnd, offset + pkt.decryptLen, some buf'⟩ }) := by
  have hgo : ¬(q.recvFragMng.Pending ∧ pkt.fragFlag ≠ .fragIng ∧ pkt.fragFlag ≠ .fragEnd) :=
    fun h => hfrag.elim h.2.1 h.2.2
  rw [fragProcess, if_neg (by rw [hflag]; decide), if_neg hgo]
  rcases hfrag with hfrag | hfrag
  · simp only [hfrag, appendFragment, hmng]
    cases copyFragment (some buf) offset pkt <;> rfl
  · simp only [hfrag, appendFragment, hmng]
    cases copyFragment (some buf) offset pkt <;> rfl

theorem fragImage_of_later {frag : AiFragFlag} (h : frag = .fragIng ∨ frag = .fragEnd)
    (data : Bytes) (originLen : Nat) : fragImage info data frag originLen = data := by
  refine fragImage_of_not_need ?_
  rcases h with rfl | rfl
  · decide
  · decide

theorem fragProcess_later {frag flag : AiFragFlag} {got : Nat} {dbuf piece : Bytes}
    (hflag : q.fragFlag = false) (hmng : q.recvFragMng = ⟨flag, got, some buf⟩)
    (hfrag : frag = .fragIng ∨ frag = .fragEnd) (htake : dbuf.take piece.length = piece)
    (hle : piece.length ≤ dbuf.length) :
    (buf.length < got + piece.length ∧
        fragProcess env q ⟨frag, dbuf, piece.length⟩ = .error .fragCopy) ∨
      (got + piece.length ≤ buf.length ∧ ∃ buf', buf'.length = buf.length ∧
        buf'.take (got + piece.length) = buf.take got ++ piece ∧
        fragProcess env q ⟨frag, dbuf, piece.length⟩ =
          if frag = .fragIng then
            .ok (.again { q with recvFragMng := ⟨.fragIng, got + piece.length, some buf'⟩ })
          else
            .ok (.deliver ⟨buf', got + piece.length, .noFrag, true⟩
              { q with recvFragMng := ⟨.fragEnd, got + piece.length, some buf'⟩ })) := by
  have hproc := @fragProcess_of_pending env q ⟨frag, dbuf, piece.length⟩ buf flag got hflag hmng
    hfrag
  by_cases hroom : got + piece.length ≤ buf.length
  · obtain ⟨buf', hcopy, hlen, htake'⟩ :=
      @copyFragment_of_room ⟨frag, dbuf, piece.length⟩ piece buf got rfl htake hle hroom
    simp only [hcopy] at hproc
    exact Or.inr ⟨hroom, buf', hlen, htake', hproc⟩
  · rw [copyFragment_of_no_room (by simpa using hroom)] at hproc
    exact Or.inl ⟨Nat.lt_of_not_le hroom, hproc⟩

/-- A receiver in step takes a later fragment, unless its sequence starts again at 1, which is not
ahead of the last one. -/
theorem recvPacket_later (hcrypt : CryptInvertible env) (hmalloc : ∀ n, env.malloc n = true)
    (htype : info.type ≠ aiPtClientHello) {frag : AiFragFlag} {data rest : Bytes}
    {originLen : Nat} (hlater : frag = .fragIng ∨ frag = .fragEnd)
    (hw : aiPacketWrite env p info data frag originLen = .ok r) (hrt : r.rt = oprtOk)
    (htrans : p.transporter = true) (hstep : InStep p q) (hall : AllData es)
    (hc : content es = r.sent.flatten ++ rest) :
    (q.sequenceIn + 1 = 0xFFFF ∧
        ∃ recvLen q' es', recvPacket env q es = .ok (.exit recvLen q' es')) ∨
      (q.sequenceIn + 1 < 0xFFFF ∧ ∃ dbuf recvLen q' es',
        recvPacket env q es = .ok (.packet ⟨frag, dbuf, data.length⟩ recvLen q' es') ∧
        dbuf.take data.length = data ∧ data.length ≤ dbuf.length ∧ AllData es' ∧
        content es' = rest ∧ InStep r.proto q' ∧ r.proto.transporter = true ∧
        q'.sequenceIn = q.sequenceIn + 1 ∧ q'.recvFragMng = q.recvFragMng ∧
        q'.fragFlag = q.fragFlag) := by
  have hin := hstep.sequenceIn_lt
  by_cases hwrap : q.sequenceIn + 1 = 0xFFFF
  · have hseq : nextSequence p.sequenceOut ≤ q.sequenceIn := by
      rw [hstep.sequenceOut, nextSequence, if_pos (by omega)]
      omega
    exact Or.inl ⟨hwrap, recvPacket_of_write_le htrans hw hrt hseq hall hc⟩
  · have hseq : nextSequence p.sequenceOut = q.sequenceIn + 1 := by
      rw [hstep.sequenceOut, nextSequence, if_neg (by omega)]
    have hrecv := recvPacket_of_write hcrypt hmalloc htype htrans hw hrt hstep.cryptKey
      hstep.signKey (.inr hstep.decryptIv) (by omega) hall hc
    rw [fragImage_of_later hlater, hseq] at hrecv
    exact Or.inr ⟨by omega, hrecv⟩

/-- **The later fragments of a group.** When the first `offset` bytes of the data have been
collected, the fragments that the sending loop goes on with are put together just when their
sequences do not wrap and the buffer has room for all of them. -/
theorem delivers_tail_iff (hcrypt : CryptInvertible env) (hmalloc : ∀ n, env.malloc n = true)
    (htype : info.type ≠ aiPtClientHello) {fuel n offset got : Nat} {flag : AiFragFlag}
    {sent tail : List Bytes} (hoffset : 0 < offset) (hlt : offset < info.data.length)
    (hsend : pktSendLoop env info fuel offset p sent = some (.ok r)) (hrt : r.rt = oprtOk)
    (htrans : p.transporter = true) (hstep : InStep p q) (hflag : q.fragFlag = false)
    (hmng : q.recvFragMng = ⟨flag, got, some buf⟩) (hall : AllData es)
    (htail : r.sent = sent ++ tail) (hc : content es = tail.flatten)
    (hn : (content es).length < n) :
    Delivers env n q es (buf.take got ++ info.data.drop offset) ↔
      q.sequenceIn + fragCount (env.cfg.maxFragmentLength - minPktLen)
          (info.data.length - offset) < 0xFFFF ∧
        got + (info.data.length - offset) ≤ buf.length := by
  have hM := env.cfg.le_maxFragmentLength
  set one := env.cfg.maxFragmentLength - minPktLen with hone
  have hpos : 0 < one := by
    simp only [minPktLen, packetHeadSize, aiAddPktLen] at hone
    omega
  induction fuel generalizing p q r offset got flag sent tail buf es n with
  | zero => cases hsend
  | succ fuel ih =>
    obtain ⟨r₁, hw, hrt₁, hnext⟩ := pktSendLoop_round hlt hsend hrt
    have hlen : fragLen env.cfg info offset = min (info.data.length - offset) one := by
      rw [fragLen, onePacketLen, if_neg (by omega)]
    set len := fragLen env.cfg info offset with hlendef
    have hflagAt : fragFlagAt env.cfg info offset =
        if offset + len = info.data.length then .fragEnd else .fragIng := by
      rw [fragFlagAt, if_neg (by omega)]
    have hlater : fragFlagAt env.cfg info offset = .fragIng ∨
        fragFlagAt env.cfg info offset = .fragEnd := by
      rw [hflagAt]
      split_ifs
      · exact .inr rfl
      · exact .inl rfl
    obtain ⟨tail', htail'⟩ := exists_sent_of_pktSendLoop hnext hrt
    have htaileq : tail = r₁.sent ++ tail' := by
      rw [htail', List.append_assoc, List.append_cancel_left_eq] at htail
      exact htail.symm
    rw [htaileq, List.flatten_append] at hc
    obtain ⟨n, rfl⟩ : ∃ m, n = m + 1 := ⟨n - 1, by omega⟩
    have hleft : 0 < info.data.length - offset := by omega
    have hcount : 0 < fragCount one (info.data.length - offset) :=
      Nat.div_pos (by omega) hpos
    obtain ⟨hwrap, recvLen, q', es', hexit⟩ | ⟨hwrap, dbuf, recvLen, q', es', hrecv, hdbuf,
        hdbuflen, hall', hc', hstep', htrans', hseq', hmng', hflag'⟩ :=
      recvPacket_later hcrypt hmalloc htype hlater hw hrt₁ htrans hstep hall hc
    · exact iff_of_false (not_delivers_of_exit hexit) (by omega)
    have hpiece : (slice info.data offset len).length = len := length_slice (by omega)
    rw [hflag] at hflag'
    rw [hmng] at hmng'
    obtain ⟨hroom, hproc⟩ | ⟨hroom, buf', hbuf', htake, hproc⟩ :=
      @fragProcess_later env q' buf (fragFlagAt env.cfg info offset) flag got dbuf
        (slice info.data offset len) hflag' hmng' hlater hdbuf hdbuflen
    · refine iff_of_false (not_delivers_of_fault hrecv hproc) ?_
      omega
    rw [hpiece] at hrecv hroom htake hproc
    have hbytes : buf.take got ++ info.data.drop offset =
        buf'.take (got + len) ++ info.data.drop (offset + len) := by
      rw [htake, List.append_assoc, slice, ← List.drop_drop, List.take_append_drop]
    by_cases hend : offset + len = info.data.length
    · -- The last fragment.
      rw [if_pos hend] at hflagAt
      rw [hflagAt] at hrecv hproc
      rw [if_neg (by decide)] at hproc
      have hnil : tail' = [] := by
        rw [pktSendLoop_done hend.ge hnext] at htail'
        exact List.self_eq_append_right.mp htail'
      rw [fragCount_of_le hleft (by omega)]
      refine iff_of_true (delivers_of_deliver hrecv hproc ?_ ?_) (by omega)
      · show readSpan buf' 0 (got + len) = _
        rw [readSpan_of_le (by omega), slice_zero, hbytes, hend, List.drop_length, List.append_nil]
      · rw [hc', hnil, List.flatten_nil]
    · rw [if_neg hend] at hflagAt
      rw [hflagAt] at hrecv hproc
      rw [if_pos rfl] at hproc
      have hshort : (content es').length < (content es).length := length_content_of_packet hrecv
      set q₂ : AiBasicProto := { q' with recvFragMng := ⟨.fragIng, got + len, some buf'⟩ } with hq₂
      have hstep₂ : InStep r₁.proto q₂ := hstep'.setRecvFragMng _
      have hmng₂ : q₂.recvFragMng = ⟨.fragIng, got + len, some buf'⟩ := rfl
      have hn' : (content es').length < n := by omega
      have hiff := ih (by omega) (by omega) hnext hrt htrans' hstep₂ hflag' hmng₂ hall' htail' hc'
        hn'
      rw [hbytes]
      refine (delivers_succ_iff hrecv hproc).trans (hiff.trans ?_)
      have hcount' : fragCount one (info.data.length - offset) =
          fragCount one (info.data.length - (offset + len)) + 1 := by
        have hlenone : len = one := by omega
        rw [fragCount_of_lt hpos (by omega), hlenone, Nat.sub_sub]
      have hseq₂ : q₂.sequenceIn = q.sequenceIn + 1 := hseq'
      rw [hcount', hseq₂]
      omega

end Tail

/-! ### The first fragment -/

/-- `frag_offset` of the first fragment of a packet with given attributes. -/
def startOffset (attrs : List AiAttribute) : Nat :=
  if attrs = [] then 0 else payloadHeadSize + attrTotal attrs

section Start

variable {env : AiEnv} {p q : AiBasicProto} {info : AiSendPacket} {r : AiSendResult}
  {data : Bytes} {es : Transport}

theorem payloadHead_mod_two (info : AiSendPacket) :
    (payloadHead info).toNat % 2 = if info.attrs = [] then 0 else 1 := by
  rw [payloadHead, UInt8.toNat_ofNat']
  split_ifs <;> omega

theorem startFields_of_image (hblock : (attrBlock info.attrs).length = attrTotal info.attrs)
    (hlt : attrTotal info.attrs + 1 < 4294967296) (rest : Bytes) :
    startFields (fragImage info data .fragStart info.data.length ++ rest) =
      some (startOffset info.attrs, info.data.length) := by
  have hL : beNat (beBytes 4 info.data.length) = info.data.length :=
    beNat_beBytes_of_lt info.length_data_lt
  rw [fragImage_of_need (by decide)]
  set buf := payloadHead info ::
    (attrBlock info.attrs ++ beBytes 4 info.data.length ++ data) ++ rest with hbuf
  have hflag : (buf.getD 0 0).toNat % 2 = if info.attrs = [] then 0 else 1 :=
    payloadHead_mod_two info
  -- The length of the data stands behind the attribute block.
  have horigin : readSpan buf (1 + attrTotal info.attrs) 4 =
      some (beBytes 4 info.data.length) := by
    have hspan := slice_append_right (payloadHead info :: attrBlock info.attrs)
      (beBytes 4 info.data.length) (data ++ rest)
    rw [List.length_cons, hblock, length_beBytes, Nat.add_comm] at hspan
    have hassoc : buf = payloadHead info :: attrBlock info.attrs ++
        (beBytes 4 info.data.length ++ (data ++ rest)) := by
      simp only [hbuf, List.cons_append, List.append_assoc]
    rw [readSpan_of_le, hassoc, hspan]
    rw [hassoc]
    simp only [List.length_append, List.length_cons, length_beBytes, hblock]
    omega
  rw [startFields, hflag]
  by_cases hattrs : info.attrs = []
  · have hzero : attrTotal info.attrs = 0 := by rw [attrTotal, if_pos hattrs]
    rw [hzero] at horigin
    rw [if_pos hattrs, if_neg (by decide), startOffset, if_pos hattrs]
    simp only [payloadHeadSize]
    rw [horigin, Option.map_some, hL]
  · have hwire : attrTotal info.attrs = 4 + (info.attrs.flatMap AiAttribute.wire).length := by
      rw [← hblock, attrBlock, if_neg hattrs, List.length_append, length_beBytes]
    set wire := info.attrs.flatMap AiAttribute.wire with hwiredef
    have hfield : readSpan buf 1 4 = some (beBytes 4 wire.length) := by
      have hspan := slice_append_right [payloadHead info] (beBytes 4 wire.length)
        (wire ++ beBytes 4 info.data.length ++ data ++ rest)
      rw [List.length_singleton, length_beBytes] at hspan
      have hassoc : buf = [payloadHead info] ++ (beBytes 4 wire.length ++
          (wire ++ beBytes 4 info.data.length ++ data ++ rest)) := by
        simp only [hbuf, attrBlock, if_neg hattrs, ← hwiredef, List.cons_append, List.nil_append,
          List.append_assoc]
      rw [readSpan_of_le, hassoc, hspan]
      rw [hassoc]
      simp only [List.length_append, List.length_singleton, length_beBytes]
      omega
    have hoffset : u32 (1 + 4 + beNat (beBytes 4 wire.length)) = 1 + attrTotal info.attrs := by
      rw [beNat_beBytes_of_lt (by omega), u32_of_lt (by omega)]
      omega
    rw [if_neg hattrs, if_pos rfl, startOffset, if_neg hattrs]
    simp only [payloadHeadSize, hfield, hoffset, horigin, Option.map_some, hL]

/-- The first fragment of a packet that is too long for one piece has `M - 261` bytes of
attributes and data, `M` being `AI_MAX_FRAGMENT_LENGTH`. -/
theorem fragLen_start (htype : info.type ≠ aiPtClientHello) (htrans : p.transporter = true)
    (hbig : env.cfg.maxFragmentLength < aiGetSendPktLen env.cfg info info.data.length .noFrag)
    (hw : aiPacketWrite env p info (slice info.data 0 (fragLen env.cfg info 0)) .fragStart
      info.data.length = .ok r) (hrt : r.rt = oprtOk) :
    fragLen env.cfg info 0 + attrTotal info.attrs + minPktLen = env.cfg.maxFragmentLength ∧
      fragLen env.cfg info 0 < info.data.length ∧
        (attrBlock info.attrs).length = attrTotal info.attrs := by
  have hmax := env.cfg.maxFragmentLength_le
  have hmin := env.cfg.le_maxFragmentLength
  have hlen := info.length_data_lt
  obtain ⟨ct, sign, hpack, -, -, hsize, hM⟩ := aiPacketWrite_ok htrans hw hrt
  obtain ⟨henc, hpay, hblock⟩ := aiPackPayload_ok hpack
  have hct := length_le_of_aiEncryptPacket henc
  replace hblock := hblock (by decide)
  set len := fragLen env.cfg info 0 with hlendef
  have hle : len ≤ info.data.length := by
    rw [hlendef, fragLen]
    omega
  have hslice : (slice info.data 0 len).length = len := length_slice (by omega)
  have himage := @length_fragImage info (slice info.data 0 len) .fragStart info.data.length hblock
    (by decide)
  rw [hslice] at himage hsize hM hpay
  have hsl : aiGetSl env.cfg info.type ≠ .sl0 := by
    rw [aiGetSl_of_ne _ htype]
    exact env.cfg.securityLevel_ne
  have hiv (frag : AiFragFlag) (h : tuyaAiIsNeedAttr frag) :
      ivSize (aiIsNeedIv info.type frag) = 16 := by
    have hneed : aiIsNeedIv info.type frag = true := by
      cases frag <;> simp_all [aiIsNeedIv, tuyaAiIsNeedAttr]
    rw [hneed]
    rfl
  simp only [aiGetSendPktLen, hiv .noFrag rfl, hiv .fragStart rfl, if_neg hsl, packetHeadSize,
    aiSignLen, aiAddPktLen] at hbig hsize hM
  -- The whole packet is too long, the first fragment is not.
  have hwhole : env.cfg.maxFragmentLength < 190 + attrTotal info.attrs + info.data.length := by
    have hle₁ := u32_le (5 + 16 + 4 + aiGetSendPayloadLen info.attrs info.data.length .noFrag + 32 +
      128)
    have hle₂ : aiGetSendPayloadLen info.attrs info.data.length .noFrag ≤
        5 + attrTotal info.attrs + info.data.length := by
      have hle₃ := u32_le (attrTotal info.attrs)
      refine (u32_le _).trans ?_
      rw [if_pos (by decide), aiGetSendAttrLen, payloadHeadSize]
      omega
    omega
  have hfirst : 190 + attrTotal info.attrs + len ≤ env.cfg.maxFragmentLength := by
    rw [hpay, himage] at hsize hM
    rw [u32_of_lt (by omega)] at hM
    omega
  have hattr : aiGetSendAttrLen info.attrs = attrTotal info.attrs := u32_of_lt (by omega)
  have hlen' : len = min info.data.length
      (u32Sub (env.cfg.maxFragmentLength - minPktLen) (attrTotal info.attrs)) := by
    rw [hlendef, fragLen, onePacketLen, if_pos rfl, hattr, Nat.sub_zero]
  simp only [minPktLen, packetHeadSize, aiAddPktLen] at hlen' ⊢
  by_cases hroom : attrTotal info.attrs ≤ env.cfg.maxFragmentLength - 261
  · rw [u32Sub_of_le (by omega) (by omega)] at hlen'
    omega
  · -- The subtraction wraps and all the data is put into one fragment.
    rw [u32Sub_of_lt (by omega) (by omega)] at hlen'
    omega

theorem fragProcess_of_start {dbuf : Bytes} {len : Nat} (hflag : q.fragFlag = false)
    (hidle : ¬q.recvFragMng.Pending) (hmalloc : ∀ n, env.malloc n = true)
    (hfields : startFields dbuf = some (startOffset info.attrs, info.data.length)) :
    fragProcess env q ⟨.fragStart, dbuf, len⟩ =
      if info.data.length ≤ len then .ok (.exit q)
      else
        match copyFragment
          (some (List.replicate (u32 (info.data.length + startOffset info.attrs + aiAddPktLen)) 0))
          0 ⟨.fragStart, dbuf, len⟩ with
        | .error f => .error f
        | .ok buf => .ok (.again { q with recvFragMng := ⟨.fragStart, len, some buf⟩ }) := by
  rw [fragProcess, if_neg (by rw [hflag]; decide), if_neg fun h => hidle h.1]
  dsimp only
  rw [fragStart, hfields]
  dsimp only
  by_cases hshort : info.data.length ≤ len
  · rw [if_pos hshort, if_pos hshort]
  · rw [if_neg hshort, if_neg hshort]
    exact if_pos (hmalloc _)

theorem fragImage_append_drop (info : AiSendPacket) (len : Nat) :
    fragImage info info.data .noFrag info.data.length =
      fragImage info (slice info.data 0 len) .fragStart info.data.length ++ info.data.drop len := by
  have hdata : slice info.data 0 len ++ info.data.drop len = info.data := by
    rw [slice_zero, List.take_append_drop]
  rw [fragImage_of_need (by decide), fragImage_of_need (by decide), List.cons_append,
    List.append_assoc _ (slice info.data 0 len), hdata]

theorem le_total_iff (info : AiSendPacket) :
    5 + attrTotal info.attrs + info.data.length ≤
        u32 (info.data.length + startOffset info.attrs + aiAddPktLen) ↔
      info.data.length + startOffset info.attrs + aiAddPktLen < 4294967296 := by
  have hdata := info.length_data_lt
  have hoffset : startOffset info.attrs ≤ 1 + attrTotal info.attrs ∧
      attrTotal info.attrs ≤ startOffset info.attrs := by
    unfold startOffset attrTotal
    split_ifs
    · omega
    · simp only [payloadHeadSize]
      omega
  by_cases hwrap : info.data.length + startOffset info.attrs + aiAddPktLen < 4294967296
  · rw [u32_of_lt hwrap]
    simp only [aiAddPktLen] at hwrap ⊢
    omega
  · rw [u32]
    simp only [aiAddPktLen] at hwrap ⊢
    omega

/-- **A packet that is sent in fragments.** The group is put together just when the declared
length is more than the decrypted first fragment, the sequence does not wrap inside it and the size
of the reassembly buffer does not wrap. -/
theorem delivers_start_iff (hcrypt : CryptInvertible env) (hmalloc : ∀ n, env.malloc n = true)
    (htype : info.type ≠ aiPtClientHello) {fuel n : Nat} (hpos : 0 < info.data.length)
    (hbig : env.cfg.maxFragmentLength < aiGetSendPktLen env.cfg info info.data.length .noFrag)
    (hsend : pktSendLoop env info fuel 0 p [] = some (.ok r)) (hrt : r.rt = oprtOk)
    (htrans : p.transporter = true) (hkey : q.cryptKey = p.cryptKey)
    (hsignKey : q.signKey = p.signKey) (hseq : q.sequenceIn < nextSequence p.sequenceOut)
    (hflag : q.fragFlag = false) (hidle : ¬q.recvFragMng.Pending) (hall : AllData es)
    (hc : content es = r.sent.flatten) (hn : (content es).length < n) :
    Delivers env n q es (fragImage info info.data .noFrag info.data.length) ↔
      env.cfg.maxFragmentLength < info.data.length + 2 * aiAddPktLen ∧
        nextSequence p.sequenceOut + fragCount (env.cfg.maxFragmentLength - minPktLen)
          (info.data.length - (env.cfg.maxFragmentLength - minPktLen - attrTotal info.attrs)) <
            0xFFFF ∧
        info.data.length + startOffset info.attrs + aiAddPktLen < 4294967296 := by
  have hmax := env.cfg.maxFragmentLength_le
  obtain ⟨fuel, rfl⟩ : ∃ m, fuel = m + 1 := by
    cases fuel with
    | zero => cases hsend
    | succ m => exact ⟨m, rfl⟩
  obtain ⟨r₁, hw, hrt₁, hnext⟩ := pktSendLoop_round hpos hsend hrt
  have hstart : fragFlagAt env.cfg info 0 = .fragStart := if_pos rfl
  rw [hstart] at hw
  obtain ⟨hsum, hlt, hblock⟩ := fragLen_start htype htrans hbig hw hrt₁
  have hne : fragLen env.cfg info 0 ≠ 0 := fun hzero =>
    pktSendLoop_stuck hpos hzero hrt hsend
  rw [Nat.zero_add, List.nil_append] at hnext
  set len := fragLen env.cfg info 0 with hlendef
  obtain ⟨tail, htail⟩ := exists_sent_of_pktSendLoop hnext hrt
  have hc₁ : content es = r₁.sent.flatten ++ tail.flatten := by
    rw [hc, htail, List.flatten_append]
  have hneed : aiIsNeedIv info.type .fragStart = true := by simp [aiIsNeedIv, htype]
  obtain ⟨dbuf, recvLen, q', es', hrecv, hbuf, hbuflen, hall', hc', hstep, htrans', hseq', hmng,
    hflag'⟩ := recvPacket_of_write hcrypt hmalloc htype htrans hw hrt₁ hkey hsignKey (.inl hneed)
      hseq hall hc₁
  have hslice : (slice info.data 0 len).length = len := length_slice (by omega)
  set image := fragImage info (slice info.data 0 len) .fragStart info.data.length with himagedef
  have himage : image.length = 5 + attrTotal info.attrs + len := by
    rw [himagedef, length_fragImage hblock (by decide), hslice]
  have hbytes : fragImage info info.data .noFrag info.data.length = image ++ info.data.drop len :=
    fragImage_append_drop info len
  rw [hflag] at hflag'
  rw [← hmng] at hidle
  have hfields : startFields dbuf = some (startOffset info.attrs, info.data.length) := by
    have hsplit : dbuf = image ++ dbuf.drop image.length := by
      conv_lhs => rw [← List.take_append_drop image.length dbuf, hbuf]
    rw [hsplit]
    exact startFields_of_image hblock (by omega) _
  have hproc := @fragProcess_of_start env q' info dbuf image.length hflag' hidle hmalloc hfields
  have hthresh : image.length + 2 * aiAddPktLen = env.cfg.maxFragmentLength := by
    simp only [minPktLen, packetHeadSize] at hsum
    omega
  by_cases horigin : info.data.length ≤ image.length
  · rw [if_pos horigin] at hproc
    refine iff_of_false (not_delivers_of_fragExit hrecv hproc) ?_
    omega
  rw [if_neg horigin] at hproc
  set total := u32 (info.data.length + startOffset info.attrs + aiAddPktLen) with htotal
  have hroom : 5 + attrTotal info.attrs + info.data.length ≤ total ↔
      info.data.length + startOffset info.attrs + aiAddPktLen < 4294967296 :=
    le_total_iff info
  by_cases hcopyroom : image.length ≤ total
  swap
  · rw [copyFragment_of_no_room (by simpa using hcopyroom)] at hproc
    refine iff_of_false (not_delivers_of_fault hrecv hproc) ?_
    omega
  obtain ⟨buf, hcopy, hlen', htake⟩ := @copyFragment_of_room ⟨.fragStart, dbuf, image.length⟩ image
    (List.replicate total 0) 0 rfl hbuf hbuflen (by simpa using hcopyroom)
  simp only [hcopy] at hproc
  rw [List.take_zero, List.nil_append, Nat.zero_add] at htake
  rw [List.length_replicate] at hlen'
  obtain ⟨n, rfl⟩ : ∃ m, n = m + 1 := ⟨n - 1, by omega⟩
  have hshort : (content es').length < (content es).length := length_content_of_packet hrecv
  set q₂ : AiBasicProto := { q' with recvFragMng := ⟨.fragStart, image.length, some buf⟩ } with hq₂
  have hstep₂ : InStep r₁.proto q₂ := hstep.setRecvFragMng _
  have hmng₂ : q₂.recvFragMng = ⟨.fragStart, image.length, some buf⟩ := rfl
  have hn' : (content es').length < n := by omega
  have hiff := delivers_tail_iff hcrypt hmalloc htype (Nat.pos_of_ne_zero hne) hlt hnext hrt htrans'
    hstep₂ hflag' hmng₂ hall' htail hc' hn'
  rw [htake, ← hbytes] at hiff
  refine (delivers_succ_iff hrecv hproc).trans (hiff.trans ?_)
  have hseq₂ : q₂.sequenceIn = nextSequence p.sequenceOut := hseq'
  have hlenval : env.cfg.maxFragmentLength - minPktLen - attrTotal info.attrs = len := by omega
  rw [hseq₂, hlen', hlenval]
  omega

end Start

/-! ### Packets of any size -/

/-- What a packet that is sent in fragments, the first of them with the given sequence, has to
satisfy: it has data, more than the decrypted first fragment has bytes, and neither the sequence
nor the size of the reassembly buffer wraps. -/
def FragmentsReadable (cfg : AiConfig) (info : AiSendPacket) (sequence : Nat) : Prop :=
  0 < info.data.length ∧ cfg.maxFragmentLength < info.data.length + 2 * aiAddPktLen ∧
    sequence + fragCount (cfg.maxFragmentLength - minPktLen)
      (info.data.length - (cfg.maxFragmentLength - minPktLen - attrTotal info.attrs)) < 0xFFFF ∧
    info.data.length + startOffset info.attrs + aiAddPktLen < 4294967296

section RoundTrip

variable {env : AiEnv} {p q : AiBasicProto} {info : AiSendPacket} {r : AiSendResult}
  {es : Transport}

theorem delivers_of_onePacket (hcrypt : CryptInvertible env) (hmalloc : ∀ n, env.malloc n = true)
    (htype : info.type ≠ aiPtClientHello) {n : Nat}
    (hsend : aiPacketWrite env p info info.data .noFrag info.data.length = .ok r)
    (hrt : r.rt = oprtOk) (htrans : p.transporter = true) (hkey : q.cryptKey = p.cryptKey)
    (hsignKey : q.signKey = p.signKey) (hseq : q.sequenceIn < nextSequence p.sequenceOut)
    (hflag : q.fragFlag = false) (hidle : ¬q.recvFragMng.Pending) (hall : AllData es)
    (hc : content es = r.sent.flatten) :
    Delivers env (n + 1) q es (fragImage info info.data .noFrag info.data.length) := by
  have hneed : aiIsNeedIv info.type .noFrag = true := by simp [aiIsNeedIv, htype]
  obtain ⟨buf, recvLen, q', es', hrecv, hbuf, hbuflen, -, hc', -, -, -, hmng, hflag'⟩ :=
    recvPacket_of_write hcrypt hmalloc htype htrans hsend hrt hkey hsignKey (.inl hneed) hseq hall
      (hc.trans (List.append_nil _).symm)
  set image := fragImage info info.data .noFrag info.data.length
  have hproc : fragProcess env q' ⟨.noFrag, buf, image.length⟩ =
      .ok (.deliver ⟨buf, image.length, .noFrag, false⟩ q') := by
    rw [fragProcess, if_neg (by rw [hflag', hflag]; decide),
      if_neg fun h => hidle (hmng ▸ h.1)]
  refine delivers_of_deliver hrecv hproc ?_ hc'
  show readSpan buf 0 image.length = some image
  rw [readSpan_of_le (by omega), slice_zero, hbuf]

/-- **Which packets arrive.** A packet has been sent without an error, and a receiver with the same
keys, nothing collected and an older `sequence_in` reads what was sent, in any chunks. One call
hands out payload head, attributes, length and data exactly as they were just when the packet was
sent in one piece or its fragments are readable. -/
theorem readDelivers_iff {fuel : Nat} (hcrypt : CryptInvertible env)
    (hmalloc : ∀ n, env.malloc n = true) (htype : info.type ≠ aiPtClientHello)
    (hsend : tuyaAiBasicPktSend env fuel p info = some (.ok r)) (hrt : r.rt = oprtOk)
    (hkey : q.cryptKey = p.cryptKey) (hsignKey : q.signKey = p.signKey)
    (hflag : q.fragFlag = false) (hidle : ¬q.recvFragMng.Pending)
    (hseq : q.sequenceIn < nextSequence p.sequenceOut) (hall : AllData es)
    (hc : content es = r.sent.flatten) :
    ReadDelivers env q es (fragImage info info.data .noFrag info.data.length) ↔
      aiGetSendPktLen env.cfg info info.data.length .noFrag ≤ env.cfg.maxFragmentLength ∨
        FragmentsReadable env.cfg info (nextSequence p.sequenceOut) := by
  change Delivers env ((content es).length + 1) q es _ ↔ _
  unfold tuyaAiBasicPktSend at hsend
  by_cases hconn : p.connected = true
  swap
  · rw [if_pos (by simp [hconn])] at hsend
    obtain rfl := Except.ok.inj (Option.some.inj hsend)
    have hcom : oprtComError = oprtOk := hrt
    exact absurd hcom (by decide)
  have htrans := p.transporter_of_connected hconn
  rw [if_neg (by simp [hconn])] at hsend
  by_cases hone : aiGetSendPktLen env.cfg info info.data.length .noFrag ≤ env.cfg.maxFragmentLength
  · rw [if_pos hone] at hsend
    exact iff_of_true (delivers_of_onePacket hcrypt hmalloc htype (Option.some.inj hsend) hrt htrans
      hkey hsignKey hseq hflag hidle hall hc) (.inl hone)
  rw [if_neg hone] at hsend
  rw [or_iff_right hone, FragmentsReadable]
  by_cases hpos : 0 < info.data.length
  · rw [delivers_start_iff hcrypt hmalloc htype hpos (Nat.lt_of_not_le hone) hsend hrt htrans hkey
      hsignKey hseq hflag hidle hall hc (Nat.lt_succ_self _), and_iff_right hpos]
  · -- Nothing has been sent.
    rw [pktSendLoop_done (Nat.not_lt.mp hpos) hsend, List.flatten_nil] at hc
    refine iff_of_false ?_ fun h => hpos h.1
    rintro ⟨out, q', es', hread, -⟩
    have hnil : es = [] := by
      by_contra hne
      obtain ⟨e, es₁, rfl⟩ := List.exists_cons_of_ne_nil hne
      obtain ⟨x, xs, rfl⟩ := hall e List.mem_cons_self
      cases hc
    rw [hnil] at hread
    cases hread

end RoundTrip

/-- The text of the sample connection is read back. -/
theorem readDelivers_sampleInfo :
    ReadDelivers sampleEnv sampleProto
      (pushBack (sampleUnsigned .noFrag 1 sampleText ++ sampleTextSign) [])
      [0x44, 0, 0, 0, 2, 0x68, 0x69] := by
  have hsend : tuyaAiBasicPktSend sampleEnv 1 sampleProto sampleInfo =
      some (.ok ⟨oprtOk, { sampleProto with sequenceOut := 2 },
        [sampleUnsigned .noFrag 1 sampleText ++ sampleTextSign]⟩) := by
    decide +kernel
  have hall : AllData (pushBack (sampleUnsigned .noFrag 1 sampleText ++ sampleTextSign) [] :
      Transport) := AllData.pushBack fun e he => by cases he
  have hiff := readDelivers_iff (q := sampleProto) (cryptInvertible_of_sl4 rfl) (fun _ => rfl)
    (by decide) hsend rfl rfl rfl rfl (by decide) (by decide +kernel) hall
    (by rw [content_pushBack, List.flatten_singleton, content_nil, List.append_nil])
  exact hiff.mpr (.inl (by decide +kernel))

def attributeInfo : AiSendPacket := ⟨34, [⟨1, 6, 830, 0, List.replicate 830 0⟩], [], by decide⟩

/-- A packet whose attributes do not fit into one piece and that has no data: sending it succeeds
without sending anything. -/
theorem exists_undelivered :
    ¬∀ env fuel p q info r es, CryptInvertible env → (∀ n, env.malloc n = true) →
      info.type ≠ aiPtClientHello → info.attrs.length ≤ env.cfg.maxAttrNum →
      (∀ a ∈ info.attrs, ∃ v, a.valueBytes = .ok v) →
      tuyaAiBasicPktSend env fuel p info = some (.ok r) → r.rt = oprtOk →
      q.cryptKey = p.cryptKey → q.signKey = p.signKey → q.fragFlag = false →
      ¬q.recvFragMng.Pending → q.sequenceIn < nextSequence p.sequenceOut → AllData es →
      content es = r.sent.flatten →
      ReadDelivers env q es (fragImage info info.data .noFrag info.data.length) := by
  intro h
  have hsend : tuyaAiBasicPktSend sampleEnv 1 sampleProto attributeInfo =
      some (.ok ⟨oprtOk, sampleProto, []⟩) := by
    decide +kernel
  have hvalue : ∀ a ∈ attributeInfo.attrs, ∃ v, a.valueBytes = .ok v := by
    intro a ha
    rw [List.mem_singleton.mp ha]
    exact ⟨List.replicate 830 0, by decide +kernel⟩
  obtain ⟨out, q', es', hread, -⟩ := h sampleEnv 1 sampleProto sampleProto attributeInfo _ []
    (cryptInvertible_of_sl4 rfl) (fun _ => rfl) (by decide) (by decide) hvalue hsend rfl rfl rfl rfl
    (by decide) (by decide +kernel) (fun e he => by cases he) rfl
  cases hread

end TuyaOpen.AiProtocol
