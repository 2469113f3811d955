import TuyaOpen.Ble.Packet
import TuyaOpen.Ble.TransmitterRoundTrip

/-!
# Sending BLE responses

`ble_packet_resp` of `ble_mgr.c`: a packet is encoded, and the subpackets of its frame are handed to
`tal_ble_server_common_send` in a loop that runs while `rt` is `CONTINUE`. The result of the send is
assigned to the same variable, so the loop ends with the first subpacket.

## Main results

* `length_of_blePacketEncode`: the frame that `ble_packet_encode` makes.
* `blePacketResp_of_encode`: what a response sends.
* `sentWhole_iff`: a response is sent whole just when its frame fits in one subpacket.
-/

namespace TuyaOpen.Ble

/-! ### The response -/

/-- `sizeof(ble_frame_trsmitr_t)`, with pointers of 64 bits. -/
def sizeofBleFrameTrsmitr : Nat := 32

/-- What `ble_packet_resp` leaves behind: its return value, the state, the new value of
`s_ble_frame_seq`, and what has been handed to `tal_ble_server_common_send`. -/
structure RespRun where
  rt : OperateRet
  ble : BleMgr
  frameSeq : Nat
  sent : List Bytes
  deriving DecidableEq

/-- The `do` loop of `ble_packet_resp`, in at most `fuel` rounds. The buffer `pbuf` is as long as
`subpkg`, so it holds what `subpkg` holds. -/
def respLoop (env : BleEnv) (packetLen : Nat) (ble : BleMgr) (outbuf : Bytes) :
    Nat → Nat → BleFrameTrsmitr → List Bytes → Option (Except MemFault RespRun)
  | 0, _, _, _ => none
  | fuel + 1, frameSeq, t, sent =>
    match bleFrameTrsmitrSendPkgEncode packetLen frameSeq t tuyaBleProtocolVersionHign outbuf
        outbuf.length with
    | .error f => some (.error f)
    | .ok (rt, t, frameSeq) =>
      if rt ≠ oprtOk ∧ rt ≠ oprtSvcBtApiTrsmitrContinue then some (.ok ⟨rt, ble, frameSeq, sent⟩)
      else
        let sent := sent ++ [bleFrameSubpacket t]
        -- `TUYA_CALL_ERR_GOTO` assigns the result of the send to `rt`.
        let rt := env.commonSend (bleFrameSubpacket t)
        if rt ≠ oprtOk then some (.ok ⟨rt, ble, frameSeq, sent⟩)
        else if rt = oprtSvcBtApiTrsmitrContinue then
          respLoop env packetLen ble outbuf fuel frameSeq t sent
        else some (.ok ⟨rt, ble, frameSeq, sent⟩)

/-- `ble_packet_resp`, when `uni_random_bytes` gives `iv` and `ble_frame_packet_len_get` gives
`packetLen`. -/
def blePacketResp (env : BleEnv) (packetLen frameSeq : Nat) (ble : BleMgr) (iv : Bytes)
    (resp : BlePacket) (fuel : Nat) : Option (Except MemFault RespRun) :=
  match blePacketEncode env ble iv resp with
  | .error f => some (.error f)
  | .ok (rt, none, ble) => some (.ok ⟨rt, ble, frameSeq, []⟩)
  | .ok (_, some outbuf, ble) =>
    if env.malloc packetLen ∧ env.malloc sizeofBleFrameTrsmitr then
      respLoop env packetLen ble outbuf fuel frameSeq (bleFrameTrsmitrCreate packetLen) []
    else some (.ok ⟨oprtMallocFailed, ble, frameSeq, []⟩)

/-- The response `resp`, whose frame is `frame`, is sent whole: the function ends, has handed the
subpackets that `ble_frame_trsmitr_send_pkg_encode` makes of the frame to the transport, all of
them and in order, and reports success. -/
def SentWhole (env : BleEnv) (packetLen frameSeq : Nat) (ble : BleMgr) (iv : Bytes)
    (resp : BlePacket) (frame : Bytes) : Prop :=
  ∃ fuel r fuel' run, blePacketResp env packetLen frameSeq ble iv resp fuel = some (.ok r) ∧
    sendPkgs packetLen tuyaBleProtocolVersionHign frame frame.length fuel' frameSeq
      (bleFrameTrsmitrCreate packetLen) = some (.ok run) ∧
    run.rt = oprtOk ∧ r.sent = run.subpkgs ∧ r.rt = oprtOk

/-! ### The length of a frame -/

/-- The length of the frame of a packet: mode, vector, and the plain frame, which is padded to whole
blocks when it is encrypted. -/
def airFrameLen (packet : BlePacket) : Nat :=
  17 + if packet.encryptMode = encryptionModeNone then 14 + packet.data.length
    else (14 + packet.data.length + 15) / 16 * 16

def firstHeadLen (len : Nat) : Nat := if len < 128 then 3 else 4

section Length

variable {env : BleEnv} {ble ble' : BleMgr} {iv frame : Bytes} {packet : BlePacket}

theorem length_of_tuyaBleEncryption {st st' : BleCryptState} {p : BleCryptoParam} {mode : UInt8}
    {data out : Bytes} (hiv : iv.length = 16)
    (h : tuyaBleEncryption env st p mode iv data = .ok (out, st')) :
    out.length =
      if mode = encryptionModeNone then data.length else (data.length + 15) / 16 * 16 := by
  rw [tuyaBleEncryption] at h
  split_ifs at h with hmax hmode
  · obtain ⟨rfl, -⟩ := Prod.mk.inj (Except.ok.inj h)
    rw [if_pos hmode]
  · rw [if_neg hmode]
    split at h
    · cases h
    · next key st _ =>
      obtain ⟨rfl, -⟩ := Prod.mk.inj (Except.ok.inj h)
      have hpad := length_bleAddPkcs data
      rw [(length_cbcEncrypt hiv (by omega)).1]
      omega

/-- A packet that `ble_packet_encode` accepts has a frame of the length of its mode, in at most
`TUYA_BLE_AIR_FRAME_MAX` bytes. -/
theorem length_of_blePacketEncode (hiv : iv.length = 16)
    (h : blePacketEncode env ble iv packet = .ok (oprtOk, some frame, ble')) :
    frame.length = airFrameLen packet ∧ frame.length ≤ tuyaBleAirFrameMax := by
  simp only [blePacketEncode] at h
  split_ifs at h with hmalloc hframe hpadding
  · cases h
  · split at h
    · cases h
    · next out st hout =>
      simp only [Except.ok.injEq, Prod.mk.injEq, Option.some.injEq] at h
      obtain ⟨-, rfl, -⟩ := h
      have hlen := length_of_tuyaBleEncryption hiv hout
      rw [length_bleFrame] at hlen hpadding
      have htotal : (packet.encryptMode :: iv ++ out).length = 17 + out.length := by
        rw [List.length_append, List.length_cons, hiv]
      have hpad : 14 + packet.data.length + paddingLen (14 + packet.data.length) =
          17 + (14 + packet.data.length + 15) / 16 * 16 := by
        rw [paddingLen]
        split_ifs <;> omega
      refine ⟨by rw [htotal, hlen, airFrameLen], ?_⟩
      rw [htotal, hlen]
      split_ifs <;> omega
  · cases h

theorem length_firstHead_of_le {version seq len : Nat} (hlen : len ≤ tuyaBleAirFrameMax) :
    (firstHead version seq len).length = firstHeadLen len := by
  have hle : len ≤ 1024 := hlen
  have hencode : (Varint.encode 4 len).length = if len < 128 then 1 else 2 := by
    by_cases h : len < 128
    · rw [Varint.encode, if_pos (by omega), if_pos h, List.length_singleton]
    · rw [Varint.encode, if_neg (by omega), if_neg h, Varint.encode, if_pos (by omega)]
      rfl
  rw [length_firstHead, hencode, firstHeadLen]
  split_ifs <;> rfl

end Length

/-! ### What is sent -/

section Sent

variable {env : BleEnv} {packetLen frameSeq : Nat} {ble ble' : BleMgr} {iv frame : Bytes}
  {resp : BlePacket}

theorem subpkgs_ne_nil_of_sendPkgs {version fuel : Nat} {buf : Bytes} {len : Nat}
    {t : BleFrameTrsmitr} {run : SendRun}
    (h : sendPkgs packetLen version buf len fuel frameSeq t = some (.ok run))
    (hrt : run.rt = oprtOk) : run.subpkgs ≠ [] := by
  cases fuel with
  | zero => cases h
  | succ fuel =>
    rw [sendPkgs] at h
    split at h
    · cases h
    · split_ifs at h with hcont hok
      · split at h
        · obtain rfl := Except.ok.inj (Option.some.inj h)
          exact List.cons_ne_nil _ _
        · next hno =>
          exact absurd h (hno run)
      · obtain rfl := Except.ok.inj (Option.some.inj h)
        exact List.cons_ne_nil _ _
      · obtain rfl := Except.ok.inj (Option.some.inj h)
        exact absurd hrt hok

/-- **What a response sends.** With a transport and memory that do not fail, the first subpacket
and nothing else, whatever the length of the frame. -/
theorem blePacketResp_of_encode (hpacket : 10 ≤ packetLen) (hpacket' : packetLen < 65536)
    (hiv : iv.length = 16)
    (hencode : blePacketEncode env ble iv resp = .ok (oprtOk, some frame, ble'))
    (hsend : ∀ raw, env.commonSend raw = oprtOk)
    (hmalloc : env.malloc packetLen ∧ env.malloc sizeofBleFrameTrsmitr) :
    ∃ t rt, bleFrameTrsmitrSendPkgEncode packetLen frameSeq (bleFrameTrsmitrCreate packetLen)
        tuyaBleProtocolVersionHign frame frame.length = .ok (rt, t, (bleFrameSeqGet frameSeq).2) ∧
      (∀ fuel, blePacketResp env packetLen frameSeq ble iv resp (fuel + 1) =
        some (.ok ⟨oprtOk, ble', (bleFrameSeqGet frameSeq).2, [bleFrameSubpacket t]⟩)) ∧
      (frame.length + firstHeadLen frame.length ≤ packetLen ∧ rt = oprtOk ∨
        packetLen < frame.length + firstHeadLen frame.length ∧
          rt = oprtSvcBtApiTrsmitrContinue) := by
  obtain ⟨-, hmax⟩ := length_of_blePacketEncode hiv hencode
  have hlimit : tuyaBleAirFrameMax < bleFrameLimit := by decide
  obtain ⟨n, t, hn, -, -, -, -, -, -, -, hres⟩ :=
    @sendPkgEncode_of_init packetLen (bleFrameTrsmitrCreate packetLen) frame frameSeq
      tuyaBleProtocolVersionHign (Nat.le_trans (length_firstHead_le _ _ _) (by omega)) hpacket'
      List.length_replicate rfl
      (Nat.lt_of_le_of_lt hmax hlimit)
  rw [length_firstHead_of_le hmax] at hn
  have hhead : firstHeadLen frame.length ≤ 4 := by
    unfold firstHeadLen
    split_ifs <;> omega
  have hne : (oprtOk : OperateRet) ≠ oprtSvcBtApiTrsmitrContinue := by decide
  have hloop (fuel : Nat) {rt : OperateRet}
      (hcall : bleFrameTrsmitrSendPkgEncode packetLen frameSeq (bleFrameTrsmitrCreate packetLen)
        tuyaBleProtocolVersionHign frame frame.length = .ok (rt, t, (bleFrameSeqGet frameSeq).2))
      (hrt : rt = oprtOk ∨ rt = oprtSvcBtApiTrsmitrContinue) :
      blePacketResp env packetLen frameSeq ble iv resp (fuel + 1) =
        some (.ok ⟨oprtOk, ble', (bleFrameSeqGet frameSeq).2, [bleFrameSubpacket t]⟩) := by
    have hgo : ¬(rt ≠ oprtOk ∧ rt ≠ oprtSvcBtApiTrsmitrContinue) := by
      rintro ⟨h1, h2⟩
      exact hrt.elim h1 h2
    simp only [blePacketResp, hencode, if_pos hmalloc, respLoop, hcall, if_neg hgo, hsend,
      ne_eq, not_true_eq_false, if_false, if_neg hne, List.nil_append]
  rcases hres with ⟨hmore, -, hcall⟩ | ⟨hdone, hcall⟩
  · exact ⟨t, _, hcall, fun fuel => hloop fuel hcall (.inr rfl), .inr ⟨by omega, rfl⟩⟩
  · exact ⟨t, _, hcall, fun fuel => hloop fuel hcall (.inl rfl), .inl ⟨by omega, rfl⟩⟩

theorem subpkgs_ne_singleton_of_continue {version : Nat} {t t' : BleFrameTrsmitr} {fuel seq : Nat}
    {run : SendRun} (hcall : bleFrameTrsmitrSendPkgEncode packetLen frameSeq t version frame
      frame.length = .ok (oprtSvcBtApiTrsmitrContinue, t', seq))
    (hrun : sendPkgs packetLen version frame frame.length fuel frameSeq t = some (.ok run))
    (hrt : run.rt = oprtOk) : run.subpkgs ≠ [bleFrameSubpacket t'] := by
  cases fuel with
  | zero => cases hrun
  | succ fuel =>
    simp only [sendPkgs, hcall, ↓reduceIte] at hrun
    split at hrun
    · next run' hrun' =>
      obtain rfl := Except.ok.inj (Option.some.inj hrun)
      intro hsingle
      exact subpkgs_ne_nil_of_sendPkgs hrun' hrt (List.cons.inj hsingle).2
    · next hno =>
      exact absurd hrun (hno run)

theorem not_sentWhole_of_lt (hpacket : 10 ≤ packetLen) (hpacket' : packetLen < 65536)
    (hiv : iv.length = 16)
    (hencode : blePacketEncode env ble iv resp = .ok (oprtOk, some frame, ble'))
    (hsend : ∀ raw, env.commonSend raw = oprtOk)
    (hmalloc : env.malloc packetLen ∧ env.malloc sizeofBleFrameTrsmitr)
    (hlong : packetLen < frame.length + firstHeadLen frame.length) :
    ¬SentWhole env packetLen frameSeq ble iv resp frame := by
  obtain ⟨t, rt, hcall, hresp, hfits⟩ :=
    @blePacketResp_of_encode env packetLen frameSeq ble ble' iv frame resp hpacket hpacket' hiv
      hencode hsend hmalloc
  rintro ⟨fuel, r, fuel', run, hr, hrun, hrunrt, hsent, -⟩
  obtain ⟨-, rfl⟩ := hfits.resolve_left fun h => Nat.not_le.mpr hlong h.1
  have hfirst : r.sent = [bleFrameSubpacket t] := by
    cases fuel with
    | zero =>
      simp only [blePacketResp, hencode, if_pos hmalloc, respLoop] at hr
      cases hr
    | succ fuel =>
      rw [hresp fuel] at hr
      rw [← Except.ok.inj (Option.some.inj hr)]
  exact subpkgs_ne_singleton_of_continue hcall hrun hrunrt (hsent.symm.trans hfirst)

/-- **Which responses are sent whole.** When the transport does not fail, those for which there is
memory and whose frame fits in one subpacket. -/
theorem sentWhole_iff (hpacket : 10 ≤ packetLen) (hpacket' : packetLen < 65536)
    (hiv : iv.length = 16)
    (hencode : blePacketEncode env ble iv resp = .ok (oprtOk, some frame, ble'))
    (hsend : ∀ raw, env.commonSend raw = oprtOk) :
    SentWhole env packetLen frameSeq ble iv resp frame ↔
      (env.malloc packetLen ∧ env.malloc sizeofBleFrameTrsmitr) ∧
        airFrameLen resp + firstHeadLen (airFrameLen resp) ≤ packetLen := by
  obtain ⟨hair, -⟩ := length_of_blePacketEncode hiv hencode
  rw [← hair]
  by_cases hmalloc : env.malloc packetLen ∧ env.malloc sizeofBleFrameTrsmitr
  · rw [and_iff_right hmalloc]
    constructor
    · intro hwhole
      by_contra hlong
      exact not_sentWhole_of_lt hpacket hpacket' hiv hencode hsend hmalloc (Nat.not_le.mp hlong)
        hwhole
    · intro hle
      obtain ⟨t, rt, hcall, hresp, hfits⟩ :=
        @blePacketResp_of_encode env packetLen frameSeq ble ble' iv frame resp hpacket hpacket' hiv
          hencode hsend hmalloc
      obtain ⟨-, rfl⟩ := hfits.resolve_right fun h => Nat.not_le.mpr h.1 hle
      have hrun : sendPkgs packetLen tuyaBleProtocolVersionHign frame frame.length 1 frameSeq
          (bleFrameTrsmitrCreate packetLen) =
            some (.ok ⟨[bleFrameSubpacket t], oprtOk, t, (bleFrameSeqGet frameSeq).2⟩) := by
        rw [sendPkgs, hcall]
        rfl
      exact ⟨1, _, 1, _, hresp 0, hrun, rfl, rfl, rfl⟩
  · refine iff_of_false ?_ fun h => hmalloc h.1
    rintro ⟨fuel, r, fuel', run, hr, hrun, hrunrt, hsent, -⟩
    simp only [blePacketResp, hencode, if_neg hmalloc] at hr
    obtain rfl := Except.ok.inj (Option.some.inj hr)
    exact subpkgs_ne_nil_of_sendPkgs hrun hrunrt hsent.symm

end Sent

/-! ### A response of 31 bytes -/

/-- An environment in which nothing fails. Its cipher and its hash are for frames that use
neither. -/
def sampleEnv : BleEnv where
  aes128 := BlockCipher.trivial 16
  md5 _ := List.replicate 16 0
  length_md5 _ := rfl
  malloc _ := true
  commonSend _ := oprtOk

def sampleMgr : BleMgr where
  cryptoParam := ⟨List.replicate 32 1, List.replicate 16 2, List.replicate 16 3,
    List.replicate 16 4, List.replicate 6 0, rfl, rfl, rfl, rfl, rfl⟩
  crypt := BleCryptState.zero
  sendSn := 1
  recvSn := 0
  packetRecv := ⟨bleFrameTrsmitrCreate 1024, 0, List.replicate 1024 0, 0, List.replicate 1024 0,
    List.length_replicate, List.length_replicate⟩

def samplePacket : BlePacket := ⟨1, 0x8000, [], encryptionModeNone, by decide⟩

def sampleFrame : Bytes :=
  0 :: List.replicate 16 9 ++ bleFrame 1 samplePacket

theorem blePacketEncode_samplePacket :
    blePacketEncode sampleEnv sampleMgr (List.replicate 16 9) samplePacket =
      .ok (oprtOk, some sampleFrame, { sampleMgr with sendSn := 2 }) := by
  decide +kernel

/-- In packets of 40 bytes the frame is sent whole. -/
theorem sentWhole_samplePacket :
    SentWhole sampleEnv 40 0 sampleMgr (List.replicate 16 9) samplePacket sampleFrame :=
  (sentWhole_iff (by decide) (by decide) rfl blePacketEncode_samplePacket fun _ => rfl).mpr
    ⟨⟨rfl, rfl⟩, by decide⟩

/-- **Most of a response is lost.** In packets of 20 bytes the same response reports success, but
only 17 bytes of its frame are sent, where two subpackets are to be sent. -/
theorem exists_not_sentWhole :
    ∃ (packetLen : Nat) (r : RespRun) (run : SendRun), 10 ≤ packetLen ∧
      (∀ raw, sampleEnv.commonSend raw = oprtOk) ∧
      blePacketEncode sampleEnv sampleMgr (List.replicate 16 9) samplePacket =
        .ok (oprtOk, some sampleFrame, { sampleMgr with sendSn := 2 }) ∧
      (∀ fuel, blePacketResp sampleEnv packetLen 0 sampleMgr (List.replicate 16 9) samplePacket
        (fuel + 1) = some (.ok r)) ∧
      sendPkgs packetLen tuyaBleProtocolVersionHign sampleFrame sampleFrame.length 2 0
        (bleFrameTrsmitrCreate packetLen) = some (.ok run) ∧
      run.rt = oprtOk ∧ r.rt = oprtOk ∧ r.sent.length = 1 ∧ run.subpkgs.length = 2 ∧
      ¬SentWhole sampleEnv packetLen 0 sampleMgr (List.replicate 16 9) samplePacket
        sampleFrame := by
  obtain ⟨t, rt, -, hresp, -⟩ :=
    @blePacketResp_of_encode sampleEnv 20 0 sampleMgr _ _ _ samplePacket (by decide) (by decide) rfl
      blePacketEncode_samplePacket (fun _ => rfl) ⟨rfl, rfl⟩
  obtain ⟨run, hrun, hrt, hlen⟩ : ∃ run, sendPkgs 20 tuyaBleProtocolVersionHign sampleFrame
      sampleFrame.length 2 0 (bleFrameTrsmitrCreate 20) = some (.ok run) ∧ run.rt = oprtOk ∧
        run.subpkgs.length = 2 := by
    refine ⟨⟨[[0, 31, 0x40] ++ sampleFrame.take 17, 1 :: sampleFrame.drop 17], oprtOk,
      ⟨31, 4, 0, .pkgEnd, 1, 31, 15, 1 :: sampleFrame.drop 17 ++ slice sampleFrame 12 5⟩, 1⟩,
        ?_, rfl, rfl⟩
    decide +kernel
  refine ⟨20, _, run, by decide, fun _ => rfl, blePacketEncode_samplePacket, hresp, hrun, hrt, rfl,
    rfl, hlen, ?_⟩
  exact not_sentWhole_of_lt (by decide) (by decide) rfl blePacketEncode_samplePacket
    (fun _ => rfl) ⟨rfl, rfl⟩ (by decide +kernel)

end TuyaOpen.Ble
