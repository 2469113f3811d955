import TuyaOpen.Ble.Cryption
import TuyaOpen.Ble.Transmitter
import TuyaOpen.Common.Crc16

/-!
# BLE packets

`ble_packet_encode`, `ble_packet_trsmitr` and `ble_packet_recv` of `ble_mgr.c`. The plain frame of
a packet is

  sequence number + acknowledged number + command + data length + data + CRC-16,

and the frame on the air is the mode byte, 16 bytes of initialization vector and the encrypted
frame. The buffers of the receiving side live as long as the service.
-/

namespace TuyaOpen.Ble

/-- `TUYA_BLE_AIR_FRAME_MAX`. -/
def tuyaBleAirFrameMax : Nat := 1024

/-- `BLE_PACKET_DATA_IND`. -/
def blePacketDataInd : Nat := 12

/-- `BLE_PACKET_MIN_LEN`. -/
def blePacketMinLen : Nat := 14

/-- `TUYA_BLE_PROTOCOL_VERSION_HIGN`. -/
def tuyaBleProtocolVersionHign : Nat := 4

/-! ### State -/

/-- `ble_packet_t`. Its `len` is the length of `data`; a `NULL` pointer is a packet without data. -/
structure BlePacket where
  sn : UInt32
  type : UInt16
  data : Bytes
  encryptMode : UInt8
  length_data_lt : data.length < 65536
  deriving DecidableEq

/-- `ble_packet_recv_t`. -/
structure BlePacketRecv where
  trsmitr : BleFrameTrsmitr
  rawLen : Nat
  rawBuf : Bytes
  decLen : Nat
  decBuf : Bytes
  length_rawBuf : rawBuf.length = tuyaBleAirFrameMax
  length_decBuf : decBuf.length = tuyaBleAirFrameMax
  deriving DecidableEq

namespace BlePacketRecv

/-- The copy of `src` to position `off` of a buffer of `TUYA_BLE_AIR_FRAME_MAX` bytes. -/
def writeBuf (buf : Bytes) (off : Nat) (src : Bytes) : Bytes := (memcpy buf off src).getD buf

theorem length_writeBuf {buf : Bytes} (off : Nat) (src : Bytes)
    (h : buf.length = tuyaBleAirFrameMax) : (writeBuf buf off src).length = tuyaBleAirFrameMax := by
  unfold writeBuf
  cases hm : memcpy buf off src with
  | none => exact h
  | some buf' => exact (length_of_memcpy hm).trans h

theorem length_zeroBuf :
    (List.replicate tuyaBleAirFrameMax (0 : UInt8)).length = tuyaBleAirFrameMax :=
  List.length_replicate

/-- `raw_buf` and `raw_len` cleared. -/
def clearRaw (pr : BlePacketRecv) : BlePacketRecv :=
  { pr with
    rawLen := 0
    rawBuf := List.replicate tuyaBleAirFrameMax 0
    length_rawBuf := length_zeroBuf }

/-- A copy into `raw_buf`. -/
def writeRaw (pr : BlePacketRecv) (off : Nat) (src : Bytes) : BlePacketRecv :=
  { pr with
    rawBuf := writeBuf pr.rawBuf off src
    length_rawBuf := length_writeBuf off src pr.length_rawBuf }

/-- A copy to the start of `dec_buf`, and `dec_len`. -/
def writeDec (pr : BlePacketRecv) (src : Bytes) (decLen : Nat) : BlePacketRecv :=
  { pr with
    decLen := decLen
    decBuf := writeBuf pr.decBuf 0 src
    length_decBuf := length_writeBuf 0 src pr.length_decBuf }

end BlePacketRecv

/-- The part of `tuya_ble_mgr_t` that packets use, with the static values of `ble_cryption.c`. -/
structure BleMgr where
  cryptoParam : BleCryptoParam
  crypt : BleCryptState
  sendSn : UInt32
  recvSn : UInt32
  packetRecv : BlePacketRecv
  deriving DecidableEq

/-! ### Encoding -/

def bleFrameHead (sendSn : UInt32) (packet : BlePacket) : Bytes :=
  beBytes 4 sendSn.toNat ++ beBytes 4 packet.sn.toNat ++ beBytes 2 packet.type.toNat ++
    beBytes 2 packet.data.length ++ packet.data

/-- `ble_frame` of `ble_packet_encode`. -/
def bleFrame (sendSn : UInt32) (packet : BlePacket) : Bytes :=
  bleFrameHead sendSn packet ++ beBytes 2 (getCrc16 (bleFrameHead sendSn packet))

/-- `padding_len`. -/
def paddingLen (frameLen : Nat) : Nat :=
  if frameLen % 16 = 0 then 17 else 17 + (16 - frameLen % 16)

/-- `ble_packet_encode`, when `uni_random_bytes` gives `iv`: its return value, the frame and the new
state. -/
def blePacketEncode (env : BleEnv) (ble : BleMgr) (iv : Bytes) (packet : BlePacket) :
    Except MemFault (OperateRet × Option Bytes × BleMgr) :=
  if env.malloc tuyaBleAirFrameMax then
    let frame := bleFrame ble.sendSn packet
    let ble' := { ble with sendSn := ble.sendSn + 1 }
    -- The frame is written before its length is checked.
    if tuyaBleAirFrameMax < frame.length then .error .bleFrame
    else if tuyaBleAirFrameMax < frame.length + paddingLen frame.length then
      .ok (oprtComError, none, ble')
    else
      match tuyaBleEncryption env ble.crypt ble.cryptoParam packet.encryptMode iv frame with
      | .error _ => .ok (oprtComError, none, ble')
      | .ok (out, st) =>
        .ok (oprtOk, some (packet.encryptMode :: iv ++ out), { ble' with crypt := st })
  else .ok (oprtComError, none, ble)

/-! ### Receiving -/

/-- `ble_packet_trsmitr`. -/
def blePacketTrsmitr (pr : BlePacketRecv) (buf : Bytes) :
    Except MemFault (OperateRet × BlePacketRecv) :=
  match bleFrameTrsmitrRecvPkgDecode pr.trsmitr buf with
  | .error f => .error f
  | .ok (rt, t) =>
    if rt ≠ oprtOk ∧ rt ≠ oprtSvcBtApiTrsmitrContinue then
      .ok (rt, { pr with trsmitr := t }.clearRaw)
    else
      let pr := if isFirstSubpkg t then { pr with trsmitr := t }.clearRaw
        else { pr with trsmitr := t }
      let rawLen := u32 (pr.rawLen + t.subpkgLen)
      if rawLen ≤ tuyaBleAirFrameMax then
        if tuyaBleAirFrameMax < pr.rawLen + t.subpkgLen then .error .rawBuf
        else .ok (rt, { pr.writeRaw pr.rawLen (bleFrameSubpacket t) with rawLen := rawLen })
      else .ok (oprtInvalidParm, { pr with rawLen := rawLen })

/-- The checks of `ble_packet_recv` on the decrypted buffer up to the sequence number, and the
packet that it holds. -/
def parsePacket (dec : Bytes) (mode : UInt8) : Option BlePacket :=
  let dataLen := beNat (slice dec 10 2)
  if hlen : tuyaBleAirFrameMax < dataLen + blePacketMinLen then none
  else if beNat (slice dec (blePacketDataInd + dataLen) 2) ≠
      getCrc16 (dec.take (dataLen + blePacketDataInd)) then none
  else
    some
      { sn := UInt32.ofNat (beNat (slice dec 0 4))
        type := UInt16.ofNat (beNat (slice dec 8 2))
        data := slice dec blePacketDataInd dataLen
        encryptMode := mode
        length_data_lt := by
          simp only [slice, List.length_take, tuyaBleAirFrameMax] at hlen ⊢
          omega }

/-- `ble_packet_recv` behind `ble_packet_trsmitr`, when a frame is complete: the return value, the
packet and the new state. -/
def recvFrame (env : BleEnv) (ble : BleMgr) : OperateRet × Option BlePacket × BleMgr :=
  let pr := ble.packetRecv
  if tuyaBleAirFrameMax < pr.rawLen then (oprtInvalidParm, none, ble)
  else if pr.trsmitr.version < 2 then (oprtInvalidParm, none, ble)
  else
    match tuyaBleDecryption env ble.crypt ble.cryptoParam (pr.rawBuf.take pr.rawLen) with
    | .error _ => (oprtInvalidParm, none, ble)
    | .ok (plain, decLen, st) =>
      let pr := pr.writeDec plain decLen
      let ble := { ble with packetRecv := pr, crypt := st }
      match parsePacket pr.decBuf (pr.rawBuf.getD 0 0) with
      | none => (oprtInvalidParm, none, ble)
      | some packet =>
        if packet.sn ≤ ble.recvSn then (oprtInvalidParm, none, ble)
        else
          let ble := { ble with recvSn := packet.sn }
          if packet.data = [] ∨ env.malloc packet.data.length then (oprtOk, some packet, ble)
          else (oprtMallocFailed, none, ble)

/-- `ble_packet_recv`: its return value, the packet and the new state. -/
def blePacketRecv (env : BleEnv) (ble : BleMgr) (buf : Bytes) :
    Except MemFault (OperateRet × Option BlePacket × BleMgr) :=
  match blePacketTrsmitr ble.packetRecv buf with
  | .error f => .error f
  | .ok (rt, pr) =>
    if rt ≠ oprtOk then .ok (rt, none, { ble with packetRecv := pr })
    else .ok (recvFrame env { ble with packetRecv := pr })

/-! ### Reading a plain frame -/

section Frame

variable {sendSn : UInt32} {packet : BlePacket}

theorem length_bleFrameHead (sendSn : UInt32) (packet : BlePacket) :
    (bleFrameHead sendSn packet).length = 12 + packet.data.length := by
  simp only [bleFrameHead, List.length_append, length_beBytes]

theorem length_bleFrame (sendSn : UInt32) (packet : BlePacket) :
    (bleFrame sendSn packet).length = 14 + packet.data.length := by
  rw [bleFrame, List.length_append, length_bleFrameHead, length_beBytes]
  omega

end Frame

end TuyaOpen.Ble
