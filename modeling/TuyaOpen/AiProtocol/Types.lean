import TuyaOpen.Basic.ChunkStream
import TuyaOpen.Basic.Cipher
import TuyaOpen.Common.OperateRet

/-!
# Data of the AI protocol

The types and constants of `tuya_ai_protocol.h` and the state of `tuya_ai_protocol.c`
(`AI_BASIC_PROTO_T`), for a little-endian target. A packet on the wire is

  `AI_PACKET_HEAD_T` + (iv) + length + payload + signature,

the length counting payload and signature, and a payload is

  `AI_PAYLOAD_HEAD_T` + (attribute length + attributes) + data length + data.
-/

namespace TuyaOpen.AiProtocol

/-! ### Constants -/

/-- `AI_IV_LEN`. -/
def aiIvLen : Nat := 16

/-- `AI_SIGN_LEN`. -/
def aiSignLen : Nat := 32

/-- `AI_GCM_TAG_LEN`. -/
def aiGcmTagLen : Nat := 16

/-- `AI_ADD_PKT_LEN`. -/
def aiAddPktLen : Nat := 128

/-- `sizeof(AI_PACKET_HEAD_T)`. -/
def packetHeadSize : Nat := 5

/-- `sizeof(AI_PAYLOAD_HEAD_T)`. -/
def payloadHeadSize : Nat := 1

/-- `OFFSOF(AI_ATTRIBUTE_T, value)`. -/
def attributeHeadSize : Nat := 7

/-- `AI_PT_CLIENT_HELLO`. -/
def aiPtClientHello : UInt8 := 1

/-! ### Enumerations -/

/-- The security levels `AI_PACKET_SL` for which the source has code. -/
inductive AiPacketSl
  | sl0
  | sl2
  | sl3
  | sl4
  deriving DecidableEq

def AiPacketSl.bits : AiPacketSl → Nat
  | .sl0 => 0
  | .sl2 => 2
  | .sl3 => 3
  | .sl4 => 4

/-- `AI_FRAG_FLAG`, the two bits of a packet head. -/
inductive AiFragFlag
  | noFrag
  | fragStart
  | fragIng
  | fragEnd
  deriving DecidableEq

def AiFragFlag.bits : AiFragFlag → Nat
  | .noFrag => 0
  | .fragStart => 1
  | .fragIng => 2
  | .fragEnd => 3

def AiFragFlag.ofBits : Nat → AiFragFlag
  | 0 => .noFrag
  | 1 => .fragStart
  | 2 => .fragIng
  | _ => .fragEnd

@[simp] theorem AiFragFlag.ofBits_bits (f : AiFragFlag) : AiFragFlag.ofBits f.bits = f := by
  cases f <;> rfl

/-! ### Configuration and packets to send -/

/-- The build configuration. The bounds are the ranges of `src/tuya_ai_basic/Kconfig`, which
also gives the default of the first two, 8192 and 10; `charIsSigned` says whether plain `char`
is signed on the target. -/
structure AiConfig where
  maxFragmentLength : Nat
  maxAttrNum : Nat
  securityLevel : AiPacketSl
  charIsSigned : Bool
  le_maxFragmentLength : 1024 ≤ maxFragmentLength
  maxFragmentLength_le : maxFragmentLength ≤ 512000
  le_maxAttrNum : 5 ≤ maxAttrNum
  maxAttrNum_le : maxAttrNum ≤ 20
  securityLevel_ne : securityLevel ≠ .sl0

/-- `sizeof(ai_basic_proto->recv_buf)`. -/
def AiConfig.recvBufSize (cfg : AiConfig) : Nat := cfg.maxFragmentLength + aiAddPktLen

/-- `AI_ATTRIBUTE_T`. The union `AI_ATTR_VALUE` is its 64 bits `scalar` and, for the pointer
members, the bytes `mem` that the pointer points to. -/
structure AiAttribute where
  type : UInt16
  payloadType : UInt8
  length : UInt32
  scalar : UInt64
  mem : Bytes

/-- `AI_SEND_PACKET_T`: `attrs` are the first `count` attributes and `len`, a `uint32_t`, is the
length of `data`. -/
structure AiSendPacket where
  type : UInt8
  attrs : List AiAttribute
  data : Bytes
  length_data_lt : data.length < 4294967296

/-! ### Calls that do not end normally -/

/-- The places where a call can access memory outside the object it works on. -/
inductive MemFault
  | attrValue
  | payloadBuffer
  | sendBuffer
  | signSlice
  | signature
  | decryptRange
  | padByte
  | originLen
  | fragCopy
  | fragSource
  deriving DecidableEq

/-- Why a function of the source gives no result: an access outside its memory objects, or a
return code other than `OPRT_OK`. -/
inductive AiStop
  | fault (f : MemFault)
  | err (rt : FailCode)
  deriving DecidableEq

/-! ### State -/

/-- `AI_RECV_FRAG_MNG_T`. The buffer `data` is absent when the pointer is `NULL`; its length is
the allocated size. -/
structure AiRecvFragMng where
  fragFlag : AiFragFlag
  offset : Nat
  data : Option Bytes
  deriving DecidableEq

def AiRecvFragMng.zero : AiRecvFragMng := ⟨.noFrag, 0, none⟩

def AiRecvFragMng.Pending (mng : AiRecvFragMng) : Prop :=
  mng.fragFlag = .fragStart ∨ mng.fragFlag = .fragIng

instance (mng : AiRecvFragMng) : Decidable mng.Pending :=
  inferInstanceAs (Decidable (_ ∨ _))

/-- The part of `AI_BASIC_PROTO_T` that sending and receiving packets use. Its `sl` is always
`AI_PACKET_SECURITY_LEVEL`, and `recv_buf` is cleared at the start of every read, so neither is
part of the state. Of the pointer `transporter` only its not being `NULL` matters, and
`connected` is only set once it has been created. -/
structure AiBasicProto where
  cryptKey : Bytes
  signKey : Bytes
  sequenceIn : Nat
  sequenceOut : Nat
  transporter : Bool
  connected : Bool
  encryptIv : Bytes
  decryptIv : Bytes
  recvFragMng : AiRecvFragMng
  fragFlag : Bool
  length_encryptIv : encryptIv.length = aiIvLen
  length_decryptIv : decryptIv.length = aiIvLen
  transporter_of_connected : connected = true → transporter = true
  deriving DecidableEq

namespace AiBasicProto

/-- The 16 bytes of an initialization vector after a write of `iv`, which has that length. -/
private def writeIv (old iv : Bytes) : Bytes := if iv.length = aiIvLen then iv else old

private theorem length_writeIv {old iv : Bytes} (h : old.length = aiIvLen) :
    (writeIv old iv).length = aiIvLen := by
  unfold writeIv
  split_ifs with hiv
  · exact hiv
  · exact h

/-- A write of `AI_IV_LEN` bytes into `encrypt_iv`. -/
def setEncryptIv (p : AiBasicProto) (iv : Bytes) : AiBasicProto :=
  { p with
    encryptIv := writeIv p.encryptIv iv
    length_encryptIv := length_writeIv p.length_encryptIv }

/-- A write of `AI_IV_LEN` bytes into `decrypt_iv`. -/
def setDecryptIv (p : AiBasicProto) (iv : Bytes) : AiBasicProto :=
  { p with
    decryptIv := writeIv p.decryptIv iv
    length_decryptIv := length_writeIv p.length_decryptIv }

theorem encryptIv_setEncryptIv (p : AiBasicProto) {iv : Bytes} (h : iv.length = aiIvLen) :
    (p.setEncryptIv iv).encryptIv = iv := if_pos h

theorem decryptIv_setDecryptIv (p : AiBasicProto) {iv : Bytes} (h : iv.length = aiIvLen) :
    (p.setDecryptIv iv).decryptIv = iv := if_pos h

@[simp] theorem setEncryptIv_self (p : AiBasicProto) : p.setEncryptIv p.encryptIv = p := by
  have h : writeIv p.encryptIv p.encryptIv = p.encryptIv := ite_self _
  simp only [setEncryptIv, h]

@[simp] theorem setDecryptIv_self (p : AiBasicProto) : p.setDecryptIv p.decryptIv = p := by
  have h : writeIv p.decryptIv p.decryptIv = p.decryptIv := ite_self _
  simp only [setDecryptIv, h]

/-- `memset(&ai_basic_proto->recv_frag_mng, 0, ..)`, its buffer having been freed. -/
def clearFrag (p : AiBasicProto) : AiBasicProto := { p with recvFragMng := .zero }

end AiBasicProto

/-- What the module calls outside itself: the ciphers of its three security levels, the HMAC,
whether an allocation of a given size succeeds, and the result of `tuya_transporter_write`. -/
structure AiEnv where
  cfg : AiConfig
  chacha20 : StreamCipher FailCode
  aes256 : BlockCipher 16
  gcm : Aead FailCode aiGcmTagLen
  sha256Mac : Mac FailCode aiSignLen
  malloc : Nat → Bool
  write : Bytes → OperateRet

end TuyaOpen.AiProtocol
