import TuyaOpen.Ble.Packet
import TuyaOpen.Common.ByteOrder

/-!
# The transparent channel of BLE

`ble_channel.c`: long data goes over BLE in subpackets that the other side acknowledges one by one.
A subpacket is

  flag (2 bytes) + number + data,

and the first one, of number 0, has the length of all data and a version byte in front of its own.
Downlink subpackets are put together in a buffer of the length that the first one gives; a response
is cut into uplink subpackets, and every status 1 that the app sends asks for the next one. Memory
may be exhausted at every allocation. The callback behind `ble_channel_process` is not modelled.
-/

namespace TuyaOpen.Ble

/-- `FRM_DOWNLINK_TRANSPARENT_REQ`. -/
def frmDownlinkTransparentReq : UInt16 := 0x801B

/-- `FRM_UPLINK_TRANSPARENT_REQ`. -/
def frmUplinkTransparentReq : UInt16 := 0x801C

/-- `FRM_DOWNLINK_TRANSPARENT_SPEC_REQ`. -/
def frmDownlinkTransparentSpecReq : UInt16 := 0x801E

/-- `FRM_UPLINK_TRANSPARENT_SPEC_REQ`. -/
def frmUplinkTransparentSpecReq : UInt16 := 0x801F

/-- `TUYA_BLE_TRANS_DATA_SUBPACK_LEN`. -/
def tuyaBleTransDataSubpackLen : Nat := tuyaBleAirFrameMax - 64

/-- `SUBPACKET_RECV_ALL_DONE`. -/
def subpacketRecvAllDone : UInt8 := 0

/-- `SUBPACKET_RECV_ONE_AND_NEXT`. -/
def subpacketRecvOneAndNext : UInt8 := 1

/-- An access outside the data of the request, outside `pBuffer`, or outside the response. -/
inductive ChannelFault
  | rawData
  | pBuffer
  | rspData
  deriving DecidableEq

/-- Whether `tal_malloc` gives memory for `pBuffer`, `pAck` and `pkg_buff`. -/
structure ChannelMalloc where
  pBuffer : Bool
  pAck : Bool
  pkgBuff : Bool

/-- The arguments of `tuya_ble_send`. -/
structure BleSend where
  type : UInt16
  ackSn : UInt32
  data : Bytes
  deriving DecidableEq

/-- What a request leads to: the data sent, and the data that `ble_channel_process` gets. -/
structure ChannelOut where
  sent : List BleSend
  processed : Option Bytes
  deriving DecidableEq

/-! ### Reading a subpacket -/

/-- `__extract_packet_len`: the number at the start of `raw`, and what follows it. There is no
result when `raw` ends before. -/
def extractPacketLen (raw : Bytes) : Option (Nat × Bytes) := Varint.decode 4 raw

def readSubpacket (raw : Bytes) : Option (Nat × Bytes) :=
  match raw with
  | _ :: flags :: no :: rest =>
    if flags &&& 2 = 0 then none
    else if no = 0 then
      match extractPacketLen rest with
      | some (_, _ :: data) => some (0, data)
      | _ => none
    else extractPacketLen (no :: rest)
  | _ => none

/-! ### Downlink -/

/-- The static variables of `ble_session_channel_process`. Fresh memory is shown with zeros. -/
structure ChannelRecv where
  totalLen : Nat
  receivedLen : Nat
  pBuffer : Option Bytes
  deriving DecidableEq

/-- `ble_channel_ack_t` in memory. -/
def channelAck (flag : Bytes) (status : UInt8) (recv : ChannelRecv) (no len : Nat) : Bytes :=
  flag ++ status :: (leBytes 2 no ++ leBytes 2 len ++ leBytes 4 recv.receivedLen ++
    leBytes 4 recv.totalLen)

/-- The data of a subpacket goes behind what `buffer` has received. The result has the number and
the length of the subpacket. -/
def copySubpacket (recv : ChannelRecv) (buffer : Bytes) (no : Nat) (data : Bytes) :
    Except ChannelFault (Option (Nat × Nat) × ChannelRecv) :=
  match memcpy buffer recv.receivedLen data with
  | none => .error .pBuffer
  | some buffer =>
    .ok (some (no, data.length),
      { recv with receivedLen := u32 (recv.receivedLen + data.length), pBuffer := some buffer })

def firstSubpacket (malloc : ChannelMalloc) (raw : Bytes) :
    Except ChannelFault (Option (Nat × Nat) × ChannelRecv) :=
  match extractPacketLen raw with
  | none => .error .rawData
  | some (totalLen, rest) =>
    let recv : ChannelRecv := ⟨totalLen, 0, none⟩
    if malloc.pBuffer then
      match rest with
      -- Without a version byte the length of the data comes out next to `2 ^ 32`.
      | [] => .error .pBuffer
      | _ :: data => copySubpacket recv (List.replicate totalLen 0) 0 data
    else .ok (none, recv)

def laterSubpacket (recv : ChannelRecv) (raw : Bytes) :
    Except ChannelFault (Option (Nat × Nat) × ChannelRecv) :=
  match recv.pBuffer with
  | none => .ok (none, recv)
  | some buffer =>
    match extractPacketLen raw with
    | none => .error .rawData
    | some (no, data) => copySubpacket recv buffer no data

/-- The acknowledgement of a subpacket, and the call of `ble_channel_process` behind the last
one. -/
def ackSubpacket (malloc : ChannelMalloc) (req : BlePacket) (no len : Nat) (recv : ChannelRecv) :
    ChannelOut × ChannelRecv :=
  let ack (status : UInt8) : BleSend :=
    ⟨req.type, req.sn, channelAck (req.data.take 2) status recv no len⟩
  if ¬malloc.pAck then (⟨[], none⟩, { recv with pBuffer := none })
  else if recv.receivedLen < recv.totalLen then (⟨[ack subpacketRecvOneAndNext], none⟩, recv)
  else (⟨[ack subpacketRecvAllDone], recv.pBuffer⟩, recv)

def finishSubpacket (malloc : ChannelMalloc) (req : BlePacket) :
    Except ChannelFault (Option (Nat × Nat) × ChannelRecv) →
      Except ChannelFault (ChannelOut × ChannelRecv)
  | .error f => .error f
  | .ok (none, recv) => .ok (⟨[], none⟩, recv)
  | .ok (some (no, len), recv) => .ok (ackSubpacket malloc req no len recv)

/-- `ble_session_channel_process` for the requests of the downlink. -/
def downlinkProcess (malloc : ChannelMalloc) (recv : ChannelRecv) (req : BlePacket) :
    Except ChannelFault (ChannelOut × ChannelRecv) :=
  match req.data with
  | _ :: flags :: body =>
    if flags &&& 2 = 0 then .ok (⟨[], some body⟩, recv)
    else
      match body with
      | [] => .error .rawData
      | no :: rest =>
        finishSubpacket malloc req
          (if no = 0 then firstSubpacket malloc rest else laterSubpacket recv (no :: rest))
  | _ => .error .rawData

/-! ### Uplink -/

/-- `ble_channel_mgr_t`. The subpackets have the data from `rsp_data + 2` on. -/
structure ChannelMgr where
  rspData : Option Bytes
  subpackNo : Nat
  subpackSent : Nat
  subpackLen : Nat
  deriving DecidableEq

/-- The first bytes of a subpacket of a response: flag, number and, in the first one, the length and
the version. The number is a single byte. -/
def subpackHead (subpackNo subpackLen : Nat) : Bytes :=
  0 :: 3 :: UInt8.ofNat subpackNo ::
    if subpackNo = 0 then
      Varint.encode 4 subpackLen ++ [UInt8.ofNat (tuyaBleProtocolVersionHign * 16)]
    else []

def pkgDataLen (subpackNo subpackSent subpackLen : Nat) : Nat :=
  let room := tuyaBleTransDataSubpackLen - (subpackHead subpackNo subpackLen).length
  if subpackLen - subpackSent < room then subpackLen - subpackSent else room

/-- `__response_to_app_by_subpack`. -/
def responseToAppBySubpack (malloc : ChannelMalloc) (mgr : ChannelMgr) (type : UInt16) :
    Except ChannelFault (List BleSend × ChannelMgr) :=
  match mgr.rspData with
  | none => .ok ([], mgr)
  | some rspData =>
    if ¬malloc.pkgBuff then .ok ([], mgr)
    else if mgr.subpackSent < mgr.subpackLen then
      let len := pkgDataLen mgr.subpackNo mgr.subpackSent mgr.subpackLen
      match readSpan rspData (2 + mgr.subpackSent) len with
      | none => .error .rspData
      | some data =>
        .ok ([⟨type, 0, subpackHead mgr.subpackNo mgr.subpackLen ++ data⟩],
          { mgr with
            subpackNo := u32 (mgr.subpackNo + 1)
            subpackSent := u32 (mgr.subpackSent + len) })
    else .ok ([], mgr)

/-- `ble_channle_ack`: the response `data` is sent from its first subpacket on. -/
def bleChannleAck (malloc : ChannelMalloc) (type : UInt16) (data : Bytes) :
    Except ChannelFault (List BleSend × ChannelMgr) :=
  responseToAppBySubpack malloc ⟨some data, 0, 0, u32Sub data.length 2⟩ type

/-- `ble_session_channel_process` for the requests of the uplink: the third byte is a status. -/
def uplinkProcess (malloc : ChannelMalloc) (mgr : ChannelMgr) (req : BlePacket) :
    Except ChannelFault (List BleSend × ChannelMgr) :=
  match req.data with
  | _ :: _ :: status :: _ =>
    if status = 0 then .ok ([], ⟨none, 0, 0, 0⟩)
    else if status = 1 then responseToAppBySubpack malloc mgr req.type
    else if status = 2 then
      responseToAppBySubpack malloc { mgr with subpackNo := 0, subpackSent := 0 } req.type
    else .ok ([], mgr)
  | _ => .error .rawData

/-! ### The handler -/

/-- The static data of `ble_channel.c`. -/
structure BleChannel where
  recv : ChannelRecv
  mgr : ChannelMgr
  deriving DecidableEq

def BleChannel.init : BleChannel := ⟨⟨0, 0, none⟩, ⟨none, 0, 0, 0⟩⟩

def IsDownlink (type : UInt16) : Prop :=
  type = frmDownlinkTransparentReq ∨ type = frmDownlinkTransparentSpecReq

instance (type : UInt16) : Decidable (IsDownlink type) := inferInstanceAs (Decidable (_ ∨ _))

def IsUplink (type : UInt16) : Prop :=
  type = frmUplinkTransparentReq ∨ type = frmUplinkTransparentSpecReq

instance (type : UInt16) : Decidable (IsUplink type) := inferInstanceAs (Decidable (_ ∨ _))

/-- `ble_session_channel_process`. -/
def bleSessionChannelProcess (malloc : ChannelMalloc) (ch : BleChannel) (req : BlePacket) :
    Except ChannelFault (ChannelOut × BleChannel) :=
  if IsDownlink req.type then
    (downlinkProcess malloc ch.recv req).map fun r => (r.1, { ch with recv := r.2 })
  else if IsUplink req.type then
    (uplinkProcess malloc ch.mgr req).map fun r => (⟨r.1, none⟩, { ch with mgr := r.2 })
  else .ok (⟨[], none⟩, ch)

theorem not_isDownlink_of_isUplink {type : UInt16} (h : IsUplink type) : ¬IsDownlink type := by
  rcases h with rfl | rfl <;> decide

end TuyaOpen.Ble
