import TuyaOpen.Basic.Text
import TuyaOpen.Basic.Tlv
import TuyaOpen.Common.CJson
import TuyaOpen.Common.OperateRet
import Mathlib.Logic.Function.Basic

/-!
# The register center

`tuya_register_center.c` keeps the addresses and the certificate of the servers to which a device
turns first. A record is stored in the KV area, as values with their types and lengths, and read at
the start. `tuya_register_center_update` takes a new certificate: it writes the record into a JSON
object, whose text is parsed again and stored.

cJSON, the PEM reader of mbedtls and the KV area are parameters; allocations succeed. A result is
none when a string is read through a NULL pointer or beyond its memory, or when a byte is written
outside of a buffer.

## Main results

* `rcsDeserialize_tlvBytes`: the values of a text are taken over one by one.
* `exists_rcsSerialize_rcsDeserialize`: a record is read back from its bytes.
* `onlyCert_iff`: when an update changes only the certificate.
* `holds_init_of_update`: what the next start loads.
-/

namespace TuyaOpen.Rcs

/-! ### The data -/

/-- The values of `TUYA_SECURITY_LEVEL`. -/
inductive SecurityLevel
  | sl0
  | sl1
  | sl2
  | sl3
  deriving DecidableEq

/-- `RCS_E`. -/
inductive RcsE
  | app
  | mf
  | code
  deriving DecidableEq

def RcsE.value : RcsE → Int32
  | app => 0
  | mf => 1
  | code => 2

/-- `register_center_t`. The strings and the certificate are memory objects. -/
structure RegisterCenter where
  source : Int32
  pub : Int32
  code : Option Bytes
  url0 : Option Bytes
  urlx : Option Bytes
  caCert : Option Bytes
  caCertLen : Nat

def RegisterCenter.zero : RegisterCenter := ⟨0, 0, none, none, none, none, 0⟩

/-- `default_iotdns_cacert`. -/
def defaultIotdnsCacert : Bytes :=
  [0x30, 0x82, 0x02, 0x18, 0x30, 0x82, 0x01, 0xbd, 0xa0, 0x03, 0x02, 0x01, 0x02, 0x02, 0x11, 0x00,
    0x8e, 0x24, 0x55, 0x22, 0x3f, 0x0d, 0x1e, 0x93, 0x95, 0x1a, 0xaf, 0xbf, 0x40, 0xbb, 0x03, 0x81,
    0x30, 0x0a, 0x06, 0x08, 0x2a, 0x86, 0x48, 0xce, 0x3d, 0x04, 0x03, 0x02, 0x30, 0x35, 0x31, 0x1d,
    0x30, 0x1b, 0x06, 0x03, 0x55, 0x04, 0x0a, 0x0c, 0x14, 0x53, 0x69, 0x6e, 0x62, 0x61, 0x79, 0x20,
    0x47, 0x72, 0x6f, 0x75, 0x70, 0x20, 0x4c, 0x69, 0x6d, 0x69, 0x74, 0x65, 0x64, 0x31, 0x14, 0x30,
    0x12, 0x06, 0x03, 0x55, 0x04, 0x03, 0x0c, 0x0b, 0x43, 0x6c, 0x6f, 0x75, 0x64, 0x20, 0x52, 0x43,
    0x41, 0x20, 0x32, 0x30, 0x20, 0x17, 0x0d, 0x32, 0x32, 0x30, 0x35, 0x33, 0x31, 0x31, 0x36, 0x30,
    0x30, 0x30, 0x30, 0x5a, 0x18, 0x0f, 0x32, 0x30, 0x37, 0x32, 0x30, 0x36, 0x33, 0x30, 0x31, 0x35,
    0x35, 0x39, 0x35, 0x39, 0x5a, 0x30, 0x35, 0x31, 0x1d, 0x30, 0x1b, 0x06, 0x03, 0x55, 0x04, 0x0a,
    0x0c, 0x14, 0x53, 0x69, 0x6e, 0x62, 0x61, 0x79, 0x20, 0x47, 0x72, 0x6f, 0x75, 0x70, 0x20, 0x4c,
    0x69, 0x6d, 0x69, 0x74, 0x65, 0x64, 0x31, 0x14, 0x30, 0x12, 0x06, 0x03, 0x55, 0x04, 0x03, 0x0c,
    0x0b, 0x43, 0x6c, 0x6f, 0x75, 0x64, 0x20, 0x52, 0x43, 0x41, 0x20, 0x32, 0x30, 0x59, 0x30, 0x13,
    0x06, 0x07, 0x2a, 0x86, 0x48, 0xce, 0x3d, 0x02, 0x01, 0x06, 0x08, 0x2a, 0x86, 0x48, 0xce, 0x3d,
    0x03, 0x01, 0x07, 0x03, 0x42, 0x00, 0x04, 0xea, 0x8d, 0xfb, 0xb3, 0xc9, 0x78, 0x7c, 0x3f, 0x43,
    0x2e, 0xb9, 0x6a, 0xc7, 0x3d, 0x44, 0xa8, 0x3a, 0x9f, 0x4e, 0xaa, 0xc4, 0x87, 0x9c, 0x2b, 0xc3,
    0x2f, 0x5f, 0x04, 0x2b, 0xf5, 0x9f, 0xa3, 0x53, 0x0e, 0x69, 0x0a, 0x08, 0x03, 0x2f, 0x36, 0xcd,
    0xa0, 0xbe, 0x82, 0x08, 0xd0, 0xa6, 0x1d, 0x00, 0xc0, 0x22, 0x02, 0x4d, 0xfc, 0xda, 0xb8, 0xca,
    0xf4, 0x01, 0x42, 0xb0, 0xdb, 0xc5, 0x64, 0xa3, 0x81, 0xab, 0x30, 0x81, 0xa8, 0x30, 0x0e, 0x06,
    0x03, 0x55, 0x1d, 0x0f, 0x01, 0x01, 0xff, 0x04, 0x04, 0x03, 0x02, 0x01, 0x06, 0x30, 0x45, 0x06,
    0x03, 0x55, 0x1d, 0x25, 0x04, 0x3e, 0x30, 0x3c, 0x06, 0x08, 0x2b, 0x06, 0x01, 0x05, 0x05, 0x07,
    0x03, 0x01, 0x06, 0x08, 0x2b, 0x06, 0x01, 0x05, 0x05, 0x07, 0x03, 0x02, 0x06, 0x08, 0x2b, 0x06,
    0x01, 0x05, 0x05, 0x07, 0x03, 0x03, 0x06, 0x08, 0x2b, 0x06, 0x01, 0x05, 0x05, 0x07, 0x03, 0x08,
    0x06, 0x08, 0x2b, 0x06, 0x01, 0x05, 0x05, 0x07, 0x03, 0x04, 0x06, 0x08, 0x2b, 0x06, 0x01, 0x05,
    0x05, 0x07, 0x03, 0x09, 0x30, 0x0f, 0x06, 0x03, 0x55, 0x1d, 0x13, 0x04, 0x08, 0x30, 0x06, 0x01,
    0x01, 0xff, 0x02, 0x01, 0x01, 0x30, 0x1f, 0x06, 0x03, 0x55, 0x1d, 0x23, 0x04, 0x18, 0x30, 0x16,
    0x80, 0x14, 0x8d, 0x6e, 0x69, 0x75, 0xb3, 0x85, 0xe4, 0x19, 0xaf, 0x9f, 0xe3, 0x2b, 0x0f, 0xec,
    0x86, 0xea, 0xd7, 0x09, 0xef, 0x2a, 0x30, 0x1d, 0x06, 0x03, 0x55, 0x1d, 0x0e, 0x04, 0x16, 0x04,
    0x14, 0x8d, 0x6e, 0x69, 0x75, 0xb3, 0x85, 0xe4, 0x19, 0xaf, 0x9f, 0xe3, 0x2b, 0x0f, 0xec, 0x86,
    0xea, 0xd7, 0x09, 0xef, 0x2a, 0x30, 0x0a, 0x06, 0x08, 0x2a, 0x86, 0x48, 0xce, 0x3d, 0x04, 0x03,
    0x02, 0x03, 0x49, 0x00, 0x30, 0x46, 0x02, 0x21, 0x00, 0xda, 0x36, 0x71, 0x53, 0xaf, 0xae, 0x8b,
    0x9e, 0x16, 0x18, 0xfb, 0x9e, 0x42, 0xdb, 0x7e, 0x08, 0xec, 0xc5, 0x81, 0xbd, 0xe5, 0x37, 0x44,
    0xb8, 0x39, 0xa5, 0xc5, 0x73, 0x6f, 0x91, 0x18, 0x50, 0x02, 0x21, 0x00, 0x93, 0x78, 0xfb, 0x88,
    0x28, 0x17, 0x7a, 0xeb, 0x6f, 0x4d, 0xff, 0xa3, 0x60, 0x2c, 0x98, 0xf3, 0x0b, 0x2d, 0x9f, 0x94,
    0x8d, 0x38, 0xde, 0x09, 0x7a, 0xd3, 0x5d, 0x4c, 0xb1, 0x06, 0xdd, 0x8d]

/-- `DEF_RCS_URL0`. -/
def defRcsUrl0 : Bytes :=
  asciiBytes ['h', '3', '.', 'i', 'o', 't', '-', 'd', 'n', 's', '.', 'c', 'o', 'm']

/-- `DEF_RCS_URLX`. -/
def defRcsUrlx : SecurityLevel → Option Bytes
  | .sl0 => none
  | .sl1 => some (asciiBytes ['h', '6', '.', 'i', 'o', 't', '-', 'd', 'n', 's', '.', 'c', 'o', 'm'])
  | .sl2 | .sl3 =>
    some (asciiBytes ['h', '4', '.', 'i', 'o', 't', '-', 'd', 'n', 's', '.', 'c', 'o', 'm'])

/-- `DEF_RCS_CA`. -/
def defRcsCa : SecurityLevel → Option Bytes
  | .sl0 => none
  | .sl1 | .sl2 | .sl3 => some defaultIotdnsCacert

/-- `s_def_rcs`. A pointer of the target has four bytes. -/
def sDefRcs (level : SecurityLevel) : RegisterCenter where
  source := RcsE.code.value
  pub := 1
  code := none
  url0 := some (defRcsUrl0 ++ [0])
  urlx := (defRcsUrlx level).map (· ++ [0])
  caCert := defRcsCa level
  caCertLen := (defRcsCa level).elim 4 List.length

/-- `RCS_URLX`: the name under which the address of the level is in a JSON object. -/
def rcsUrlx : SecurityLevel → List Char
  | .sl0 => ['u', 'r', 'l', '0']
  | .sl1 => ['u', 'r', 'l', '1']
  | .sl2 => ['u', 'r', 'l', '2']
  | .sl3 => ['u', 'r', 'l', '3']

/-- The keys `RCS_KV_MF` and `RCS_KV_ACTIVE`. -/
inductive RcsKv
  | mf
  | active
  deriving DecidableEq

/-- `TLV_SRC`. -/
def tlvSrc : UInt8 := 1

/-- `TLV_PUB`. -/
def tlvPub : UInt8 := 2

/-- `TLV_CODE`. -/
def tlvCode : UInt8 := 3

/-- `TLV_URL0`. -/
def tlvUrl0 : UInt8 := 4

/-- `TLV_URLX`. -/
def tlvUrlx : UInt8 := 5

/-- `TLV_CA`. -/
def tlvCa : UInt8 := 6

/-- `TLV_MAX`. -/
def tlvMax : Nat := 7

/-- What `mbedtls_pem_read_buffer` finds in a text. -/
inductive PemRead
  /-- A certificate, with its bytes. -/
  | decoded (der : Bytes)
  /-- `MBEDTLS_ERR_PEM_NO_HEADER_FOOTER_PRESENT`. -/
  | noHeader
  /-- Another error. -/
  | failed

/-- The build, and what the functions call. -/
structure RcsEnv where
  level : SecurityLevel
  printUnformatted : CJson → Option Bytes
  parse : Bytes → Option CJson
  pemReadBuffer : Bytes → PemRead
  kvSet : RcsKv → Bytes → OperateRet

/-- `s_tuya_rcs` and the KV area. -/
structure RcsState where
  rcs : RegisterCenter
  kv : RcsKv → Option Bytes

/-! ### The functions -/

/-- The low byte of an `int`. -/
def lowByte (n : Int32) : UInt8 := n.toUInt32.toUInt8

/-- An `int` that is assigned a byte. -/
def byteInt (b : UInt8) : Int32 := b.toUInt32.toInt32

/-- `mm_strdup`. -/
def mmStrdup (str : Option Bytes) : Option Bytes := str.map (· ++ [0])

/-- The text at a pointer that may be `NULL`. -/
def readString : Option Bytes → Option (Option Bytes)
  | none => some none
  | some mem => (cText mem).map some

section Functions

variable (E : RcsEnv)

/-- `tuya_x509_pem2der`. A text without a certificate is no error, and gives no bytes. -/
def tuyaX509Pem2der (buf : Option Bytes) (buflen : Nat) : Except OperateRet Bytes :=
  match buf with
  | none => .error oprtInvalidParm
  | some mem =>
    if buflen < 64 then .error oprtInvalidParm
    else
      match E.pemReadBuffer (cString mem) with
      | .decoded der => .ok der
      | .noHeader => .ok []
      | .failed => .error oprtComError

/-- The values that `__rcs_serialize` writes at every level, in their order. -/
def rcsTlvs (source pub : Int32) (code : Option Bytes) (url0 : Bytes) : List Tlv :=
  [⟨tlvSrc, [lowByte source]⟩, ⟨tlvPub, [lowByte pub]⟩] ++
    code.elim [] (fun code => [⟨tlvCode, code ++ [0]⟩]) ++ [⟨tlvUrl0, url0 ++ [0]⟩]

/-- The size of the buffer before the address of the level and the certificate are added. -/
def rcsTotal (code : Option Bytes) (url0 : Bytes) : Nat :=
  4 * tlvMax + 1 + 1 + url0.length + 1 + code.elim 0 List.length

/-- Writes values to a buffer of zeros. The length of the result is of type `uint16_t`. -/
def writeTlvs (total : Nat) (ts : List Tlv) : Option (Except OperateRet Bytes) := do
  let w ← ts.foldlM TlvBuffer.put ⟨List.replicate (u32 total) 0, 0⟩
  return .ok (w.mem.take (u16 total))

/-- `__rcs_serialize`. -/
def rcsSerialize (rcs : RegisterCenter) : Option (Except OperateRet Bytes) := do
  let url0 ← rcs.url0.bind cText
  let code ← readString rcs.code
  let ts := rcsTlvs rcs.source rcs.pub code url0
  let total := rcsTotal code url0
  if E.level = .sl0 then
    writeTlvs total ts
  else
    match tuyaX509Pem2der E rcs.caCert rcs.caCertLen with
    | .error _ => return .error oprtInvalidParm
    | .ok out => do
      let urlx ← rcs.urlx.bind cText
      writeTlvs (total + out.length + urlx.length)
        (ts ++ [⟨tlvUrlx, urlx ++ [0]⟩, ⟨tlvCa, out⟩])

def storeTlv (rcs : RegisterCenter) (type : UInt8) (buf : Bytes) : Option RegisterCenter :=
  if type = tlvCode then some { rcs with code := some buf }
  else if type = tlvUrl0 then some { rcs with url0 := some buf }
  else if type = tlvUrlx then some { rcs with urlx := some buf }
  else if type = tlvCa then some { rcs with caCert := some buf, caCertLen := buf.length }
  else none

/-- `__rcs_deserialize`: the loop, on the bytes from the offset on. A source and a `pub` are read
as one byte whatever their length is. -/
def rcsDeserialize (data : Bytes) (rcs : RegisterCenter) : OperateRet × RegisterCenter :=
  match data with
  | type :: lo :: hi :: b :: rest =>
    if type = 0 then (oprtOk, rcs)
    else
      let len := lo.toNat + hi.toNat <<< 8
      if len = 0 ∨ (b :: rest).length < len then (oprtInvalidParm, rcs)
      else if type = tlvSrc then rcsDeserialize rest { rcs with source := byteInt b }
      else if type = tlvPub then rcsDeserialize rest { rcs with pub := byteInt b }
      else
        match storeTlv rcs type ((b :: rest).take len) with
        | none => (oprtInvalidParm, rcs)
        | some rcs => rcsDeserialize ((b :: rest).drop len) rcs
  | _ => (oprtOk, rcs)
termination_by data.length
decreasing_by all_goals simp only [List.length_drop, List.length_cons]; omega

/-- The part of `__rcs_restore` that the levels above 0 have. -/
def rcsRestoreX (pUrlx pCa : CJson) (rcs : RegisterCenter) :
    Option (Except OperateRet RegisterCenter) := do
  let ca ← pCa.valuestring
  match mmStrdup pUrlx.valuestring with
  | none => return .error oprtMallocFailed
  | some urlx =>
    return .ok { rcs with
      urlx := some urlx, caCert := some (ca ++ [0]), caCertLen := ca.length + 1 }

/-- `__rcs_restore`. -/
def rcsRestore (data : Bytes) : Option (Except OperateRet RegisterCenter) :=
  match E.parse data with
  | none => some (.error oprtCjsonParseErr)
  | some root =>
    let pCode := root.getObjectItem ['c', 'o', 'd', 'e']
    match root.getObjectItem ['s', 'o', 'u', 'r', 'c', 'e'], root.getObjectItem ['p', 'u', 'b'],
      root.getObjectItem ['u', 'r', 'l', '0'] with
    | some pSource, some pPub, some pUrl0 =>
      let pUrlx := root.getObjectItem (rcsUrlx E.level)
      let pCa := root.getObjectItem ['c', 'a']
      if E.level ≠ .sl0 ∧ (pUrlx.isNone ∨ pCa.isNone) then some (.error oprtCjsonGetErr)
      else
        let code := pCode.bind fun item => mmStrdup item.valuestring
        let url0 := mmStrdup pUrl0.valuestring
        if (code.isNone ∧ pCode.isSome) ∨ url0.isNone then some (.error oprtMallocFailed)
        else
          let rcs := { RegisterCenter.zero with
            source := pSource.valueint, pub := pPub.valueint, code := code, url0 := url0 }
          if E.level = .sl0 then some (.ok rcs)
          else
            match pUrlx, pCa with
            | some pUrlx, some pCa => rcsRestoreX pUrlx pCa rcs
            | _, _ => some (.error oprtCjsonGetErr)
    | _, _, _ => some (.error oprtCjsonGetErr)

/-- `tuya_register_center_init`. -/
def tuyaRegisterCenterInit (s : RcsState) : RcsState :=
  if s.rcs.url0.isSome then s
  else
    match (s.kv .active).orElse fun _ => s.kv .mf with
    | none => { s with rcs := sDefRcs E.level }
    | some data =>
      match rcsDeserialize (data.take (u16 data.length)) s.rcs with
      | (rt, rcs) => { s with rcs := if rt = oprtOk then rcs else sDefRcs E.level }

/-- `tuya_register_center_save`, with the members of the object. -/
def tuyaRegisterCenterSave (s : RcsState) (source : RcsE) (rcs : Option (List (Bytes × CJson))) :
    Option (OperateRet × RcsState) :=
  match rcs with
  | none => some (oprtInvalidParm, s)
  | some members =>
    match E.printUnformatted (.object (members ++
        [(asciiBytes ['s', 'o', 'u', 'r', 'c', 'e'], .number source.value)])) with
    | none => some (oprtCjsonParseErr, s)
    | some data => do
      match ← rcsRestore E data with
      | .error _ => return (oprtCjsonGetErr, s)
      | .ok tmpRcs =>
        match ← rcsSerialize E tmpRcs with
        | .error _ => return (oprtCrCjsonErr, s)
        | .ok data =>
          let key := if source = .mf then .mf else .active
          let rt := E.kvSet key data
          if rt = oprtOk then return (rt, ⟨tmpRcs, Function.update s.kv key (some data)⟩)
          else return (rt, s)

def stringItem : Option Bytes → CJson
  | some str => .string str
  | none => .null

/-- The members of the object that `tuya_register_center_update` makes. -/
def updateMembers (level : SecurityLevel) (pub : Int32) (url0 : Bytes) (code : Option Bytes)
    (ca : Bytes) (urlx : Option Bytes) : List (Bytes × CJson) :=
  [(asciiBytes ['p', 'u', 'b'], if pub = 0 then .false else .true),
    (asciiBytes ['u', 'r', 'l', '0'], .string url0),
    (asciiBytes ['c', 'o', 'd', 'e'], stringItem code),
    (asciiBytes ['c', 'a'], .string ca),
    (asciiBytes (rcsUrlx level), stringItem urlx)]

/-- `tuya_register_center_update`. -/
def tuyaRegisterCenterUpdate (s : RcsState) (caCert : Option Bytes) (caCertLen : Nat) :
    Option (OperateRet × RcsState) :=
  match caCert with
  | none => some (oprtInvalidParm, s)
  | some mem =>
    if caCertLen = 0 then some (oprtInvalidParm, s)
    else
      match s.rcs.url0 with
      | none => some (oprtResourceNotReady, s)
      | some url0Mem => do
        let url0 ← cText url0Mem
        let code ← readString s.rcs.code
        let ca ← cText mem
        let urlx ← readString s.rcs.urlx
        tuyaRegisterCenterSave E s .app (some (updateMembers E.level s.rcs.pub url0 code ca urlx))

end Functions

/-! ### What a record says -/

structure Config where
  source : Int32
  pub : Int32
  code : Option Bytes
  url0 : Bytes
  urlx : Option Bytes
  cert : Option Bytes

def defConfig (level : SecurityLevel) : Config where
  source := RcsE.code.value
  pub := 1
  code := none
  url0 := defRcsUrl0
  urlx := defRcsUrlx level
  cert := defRcsCa level

def Config.withCert (c : Config) (cert : Bytes) : Config :=
  { c with source := RcsE.app.value, cert := some cert }

/-- The number of bytes that `__rcs_serialize` allocates for a certificate of the level. -/
def Config.size (c : Config) (der : Bytes) : Nat :=
  rcsTotal c.code c.url0 + der.length + c.urlx.elim 0 List.length

/-- A record in memory that says `c`. -/
structure Holds (rcs : RegisterCenter) (c : Config) : Prop where
  source : rcs.source = c.source
  pub : rcs.pub = c.pub
  code : readString rcs.code = some c.code
  url0 : rcs.url0.bind cText = some c.url0
  urlx : readString rcs.urlx = some c.urlx
  caCert : rcs.caCert = c.cert
  caCertLen : ∀ cert, c.cert = some cert → rcs.caCertLen = cert.length

def document (level : SecurityLevel) (c : Config) (pem : Bytes) : CJson :=
  .object (updateMembers level c.pub c.url0 c.code pem c.urlx ++
    [(asciiBytes ['s', 'o', 'u', 'r', 'c', 'e'], .number RcsE.app.value)])

def ReadsBack (E : RcsEnv) (item : CJson) : Prop :=
  ∃ text, E.printUnformatted item = some text ∧ E.parse text = some item

/-- At `mem` there is a certificate, `pem` as a text and `der` as bytes, and what an update of a
record that says `c` calls succeeds. -/
structure Works (E : RcsEnv) (c : Config) (mem : Bytes) (len : Nat) (pem der : Bytes) : Prop where
  len_ne : len ≠ 0
  text : cText mem = some pem
  pem2der : tuyaX509Pem2der E (some (pem ++ [0])) (pem.length + 1) = .ok der
  der_ne : der ≠ []
  json : ReadsBack E (document E.level c pem)
  kvSet : ∀ data, E.kvSet .active data = oprtOk
  size : c.size der < 65536

/-- An update returns `OPRT_OK` and changes only the certificate, in memory and in the KV area. -/
def OnlyCert (E : RcsEnv) (s : RcsState) (c : Config) (mem : Bytes) (len : Nat)
    (pem der : Bytes) : Prop :=
  ∃ s', tuyaRegisterCenterUpdate E s (some mem) len = some (oprtOk, s') ∧
    Holds s'.rcs (c.withCert (pem ++ [0])) ∧
    ∃ data stored, s'.kv .active = some data ∧
      rcsDeserialize data .zero = (oprtOk, stored) ∧ Holds stored (c.withCert der)

/-- The build has certificates, the record has a code and an address for the level, and `pub` is
`TRUE` or `FALSE`. -/
structure UpdateCond (level : SecurityLevel) (c : Config) : Prop where
  level_ne : level ≠ .sl0
  code : c.code ≠ none
  urlx : c.urlx ≠ none
  pub : c.pub = 0 ∨ c.pub = 1

/-! ### Strings -/

theorem zero_notMem_of_cText {mem text : Bytes} (h : cText mem = some text) : 0 ∉ text := by
  rw [cString_of_cText h]
  exact zero_notMem_cString mem

theorem bind_cText_of_readString {p : Option Bytes} {text : Bytes}
    (h : readString p = some (some text)) : p.bind cText = some text := by
  match p, h with
  | some mem, h =>
    obtain ⟨text', htext, heq⟩ := Option.map_eq_some_iff.1 h
    rw [Option.bind_some, htext, Option.some.inj heq]

theorem zero_notMem_of_bind_cText {p : Option Bytes} {text : Bytes}
    (h : p.bind cText = some text) : 0 ∉ text := by
  obtain ⟨mem, -, htext⟩ := Option.bind_eq_some_iff.1 h
  exact zero_notMem_of_cText htext

theorem zero_notMem_of_readString {p : Option Bytes} {text : Bytes}
    (h : readString p = some (some text)) : 0 ∉ text :=
  zero_notMem_of_bind_cText (bind_cText_of_readString h)

theorem readString_append_zero {text : Bytes} (h : 0 ∉ text) :
    readString (some (text ++ [0])) = some (some text) := by
  rw [readString, cText_append_zero h, Option.map_some]

/-! ### The object -/

section Document

variable {E : RcsEnv} {level : SecurityLevel} {c : Config} {pem data : Bytes}
  {tmp : RegisterCenter}

@[simp] theorem getObjectItem_source :
    (document level c pem).getObjectItem ['s', 'o', 'u', 'r', 'c', 'e'] =
      some (.number RcsE.app.value) := by
  rcases level <;> rfl

@[simp] theorem getObjectItem_pub : (document level c pem).getObjectItem ['p', 'u', 'b'] =
    some (if c.pub = 0 then .false else .true) := rfl

@[simp] theorem getObjectItem_url0 : (document level c pem).getObjectItem ['u', 'r', 'l', '0'] =
    some (.string c.url0) := rfl

@[simp] theorem getObjectItem_code : (document level c pem).getObjectItem ['c', 'o', 'd', 'e'] =
    some (stringItem c.code) := rfl

@[simp] theorem getObjectItem_ca : (document level c pem).getObjectItem ['c', 'a'] =
    some (.string pem) := rfl

theorem getObjectItem_urlx (hlevel : level ≠ .sl0) :
    (document level c pem).getObjectItem (rcsUrlx level) = some (stringItem c.urlx) := by
  rcases level
  · exact absurd rfl hlevel
  all_goals rfl

/-- `pub` after it has been a member of the object. -/
def pubItem (pub : Int32) : Int32 := if pub = 0 then 0 else 1

@[simp] theorem valueint_pub (pub : Int32) :
    (if pub = 0 then CJson.false else CJson.true).valueint = pubItem pub := by
  rw [pubItem]
  split_ifs <;> rfl

@[simp] theorem valueint_number (n : Int32) : (CJson.number n).valueint = n := rfl

@[simp] theorem valuestring_string (str : Bytes) : (CJson.string str).valuestring = some str := rfl

@[simp] theorem valuestring_stringItem (str : Option Bytes) :
    (stringItem str).valuestring = str := by
  rcases str with _ | str <;> rfl

/-- The record that is restored from the object without what the level adds. -/
def restoredBase (c : Config) (code : Bytes) : RegisterCenter :=
  { RegisterCenter.zero with
    source := RcsE.app.value, pub := pubItem c.pub, code := some (code ++ [0]),
    url0 := some (c.url0 ++ [0]) }

theorem rcsRestore_document_none (hparse : E.parse data = some (document E.level c pem))
    (hcode : c.code = none) : ∃ rt, rcsRestore E data = some (.error rt) := by
  rw [rcsRestore, hparse]
  simp only [getObjectItem_source, getObjectItem_pub, getObjectItem_url0, getObjectItem_code,
    hcode, valuestring_stringItem, mmStrdup, Option.map_none, Option.bind_some, Option.isNone_none,
    Option.isSome_some, and_self, true_or, if_true]
  split_ifs
  · exact ⟨_, rfl⟩
  · exact ⟨_, rfl⟩

theorem rcsRestore_document_sl0 {code : Bytes}
    (hparse : E.parse data = some (document E.level c pem)) (hcode : c.code = some code)
    (hlevel : E.level = .sl0) :
    rcsRestore E data = some (.ok (restoredBase c code)) := by
  simp [rcsRestore, hparse, hcode, hlevel, mmStrdup, restoredBase]

theorem rcsRestore_document_ne {code : Bytes}
    (hparse : E.parse data = some (document E.level c pem)) (hcode : c.code = some code)
    (hlevel : E.level ≠ .sl0) :
    rcsRestore E data = rcsRestoreX (stringItem c.urlx) (.string pem) (restoredBase c code) := by
  simp [rcsRestore, hparse, hcode, hlevel, mmStrdup, restoredBase, getObjectItem_urlx hlevel]

/-- The record that is restored from the object at a level that has certificates. -/
def restored (c : Config) (pem code urlx : Bytes) : RegisterCenter :=
  { restoredBase c code with
    urlx := some (urlx ++ [0]), caCert := some (pem ++ [0]), caCertLen := pem.length + 1 }

theorem rcsRestoreX_eq (urlx : Option Bytes) (rcs : RegisterCenter) :
    rcsRestoreX (stringItem urlx) (.string pem) rcs =
      match urlx with
      | none => some (.error oprtMallocFailed)
      | some urlx => some (.ok { rcs with
          urlx := some (urlx ++ [0]), caCert := some (pem ++ [0]),
          caCertLen := pem.length + 1 }) := by
  rcases urlx with _ | urlx <;> rfl

theorem of_rcsRestore_document (hparse : E.parse data = some (document E.level c pem))
    (h : rcsRestore E data = some (.ok tmp)) :
    c.code ≠ none ∧ tmp.pub = pubItem c.pub ∧ (E.level = .sl0 → tmp.caCert = none) ∧
      (E.level ≠ .sl0 → c.urlx ≠ none) := by
  rcases hcode : c.code with _ | code
  · obtain ⟨rt, hrt⟩ := rcsRestore_document_none hparse hcode
    rw [hrt] at h
    cases h
  by_cases hlevel : E.level = .sl0
  · rw [rcsRestore_document_sl0 hparse hcode hlevel] at h
    cases h
    exact ⟨by simp, rfl, fun _ => rfl, fun hne => absurd hlevel hne⟩
  · rw [rcsRestore_document_ne hparse hcode hlevel, rcsRestoreX_eq] at h
    rcases hurlx : c.urlx with _ | urlx
    · rw [hurlx] at h
      cases h
    · rw [hurlx] at h
      cases h
      exact ⟨by simp, rfl, fun hsl0 => absurd hsl0 hlevel, fun _ => by simp⟩

end Document

/-! ### Reading the stored bytes -/

section Deserialize

variable {rcs : RegisterCenter} {t : Tlv} {rest : Bytes}

/-- A value that `__rcs_deserialize` takes over as a whole. -/
structure TlvOk (t : Tlv) : Prop where
  value_ne : t.value ≠ []
  length_lt : t.value.length < 65536
  type : (t.type = tlvSrc ∨ t.type = tlvPub) ∧ t.value.length = 1 ∨
    t.type = tlvCode ∨ t.type = tlvUrl0 ∨ t.type = tlvUrlx ∨ t.type = tlvCa

def takeOver (rcs : RegisterCenter) (t : Tlv) : RegisterCenter :=
  if t.type = tlvSrc then { rcs with source := byteInt (t.value.headD 0) }
  else if t.type = tlvPub then { rcs with pub := byteInt (t.value.headD 0) }
  else (storeTlv rcs t.type t.value).getD rcs

theorem rcsDeserialize_bytes_append (ht : TlvOk t) :
    rcsDeserialize (t.bytes ++ rest) rcs = rcsDeserialize rest (takeOver rcs t) := by
  obtain ⟨b, bs, hvalue⟩ := List.exists_cons_of_ne_nil ht.value_ne
  obtain ⟨lo, hi, hbytes⟩ : ∃ lo hi, leBytes 2 t.value.length = [lo, hi] :=
    ⟨_, _, leBytes_two ht.length_lt⟩
  have hlen := toNat_add_toNat_of_leBytes ht.length_lt hbytes
  have heq : t.bytes ++ rest = t.type :: lo :: hi :: b :: (bs ++ rest) := by
    rw [Tlv.bytes, hbytes, hvalue]
    rfl
  have hfits : ¬(t.value.length = 0 ∨ (b :: (bs ++ rest)).length < t.value.length) := by
    rw [hvalue]
    simp only [List.length_cons, List.length_append]
    omega
  have happend : b :: (bs ++ rest) = t.value ++ rest := by rw [hvalue, List.cons_append]
  rw [heq, rcsDeserialize]
  simp only [hlen]
  rw [if_neg hfits, happend, List.take_left, List.drop_left]
  rcases ht.type with ⟨htype, hone⟩ | htype
  · -- one byte is read, which is the whole value
    obtain rfl : bs = [] := by simpa [hvalue] using hone
    rcases htype with h | h <;> rw [takeOver, hvalue, h] <;> rfl
  · rcases htype with h | h | h | h <;> rw [takeOver, h] <;> rfl

theorem rcsDeserialize_replicate (k : Nat) :
    rcsDeserialize (List.replicate k 0) rcs = (oprtOk, rcs) := by
  rw [rcsDeserialize.eq_def]
  match k with
  | 0 | 1 | 2 | 3 => rfl
  | k + 4 => rfl

/-- **Reading values.** They are taken over one by one. -/
theorem rcsDeserialize_tlvBytes {ts : List Tlv} (hts : ∀ t ∈ ts, TlvOk t) (k : Nat) :
    rcsDeserialize (tlvBytes ts ++ List.replicate k 0) rcs = (oprtOk, ts.foldl takeOver rcs) := by
  induction ts generalizing rcs with
  | nil => exact rcsDeserialize_replicate k
  | cons t ts ih =>
    obtain ⟨ht, hts⟩ := List.forall_mem_cons.1 hts
    rw [tlvBytes_cons, List.append_assoc, rcsDeserialize_bytes_append ht, ih hts, List.foldl_cons]

end Deserialize

/-! ### Writing the bytes -/

section Serialize

variable {E : RcsEnv} {c : Config} {rcs : RegisterCenter} {urlx der : Bytes}

def Config.tlvs (c : Config) (urlx der : Bytes) : List Tlv :=
  rcsTlvs c.source c.pub c.code c.url0 ++ [⟨tlvUrlx, urlx ++ [0]⟩, ⟨tlvCa, der⟩]

theorem writeTlvs_eq {total : Nat} {ts : List Tlv} (hle : (tlvBytes ts).length ≤ total)
    (hlt : total < 65536) :
    writeTlvs total ts =
      some (.ok (tlvBytes ts ++ List.replicate (total - (tlvBytes ts).length) 0)) := by
  have hzeros : List.replicate (u32 total) (0 : UInt8) = [] ++
      (List.replicate (tlvBytes ts).length 0 ++
        List.replicate (total - (tlvBytes ts).length) 0) := by
    rw [u32_of_lt (by omega), List.nil_append, List.replicate_append_replicate,
      Nat.add_sub_cancel' hle]
  have hput := @TlvBuffer.foldlM_put_after [] (List.replicate (total - (tlvBytes ts).length) 0) ts
    (List.replicate (tlvBytes ts).length 0) List.length_replicate
    (by rw [List.nil_append]; omega)
  have hlen : (tlvBytes ts ++ List.replicate (total - (tlvBytes ts).length) (0 : UInt8)).length =
      total := by
    rw [List.length_append, List.length_replicate, Nat.add_sub_cancel' hle]
  rw [writeTlvs, hzeros]
  rw [TlvBuffer.after, List.length_nil] at hput
  rw [hput, Option.bind_eq_bind, Option.bind_some, TlvBuffer.after, List.nil_append,
    u16_of_lt hlt, List.take_of_length_le hlen.le]
  rfl

theorem length_tlvBytes_le (hurlx : c.urlx = some urlx) :
    (tlvBytes (c.tlvs urlx der)).length ≤ c.size der := by
  rw [Config.tlvs, rcsTlvs, Config.size, rcsTotal, hurlx]
  rcases c.code with _ | code <;>
    simp [length_tlv_bytes, tlvMax] <;> omega

theorem tlvOk_byte {type : UInt8} (htype : type = tlvSrc ∨ type = tlvPub) (b : UInt8) :
    TlvOk ⟨type, [b]⟩ :=
  ⟨List.cons_ne_nil _ _, by rw [List.length_singleton]; omega, .inl ⟨htype, rfl⟩⟩

theorem tlvOk_string {type : UInt8} {text : Bytes}
    (htype : type = tlvCode ∨ type = tlvUrl0 ∨ type = tlvUrlx ∨ type = tlvCa)
    (hlen : text.length + 1 < 65536) : TlvOk ⟨type, text ++ [0]⟩ :=
  ⟨by simp, by rwa [List.length_append, List.length_singleton], .inr htype⟩

theorem tlvOk_of_mem_tlvs (hurlx : c.urlx = some urlx) (hsize : c.size der < 65536)
    (hder : der ≠ []) : ∀ t ∈ c.tlvs urlx der, TlvOk t := by
  rw [Config.size, rcsTotal, hurlx] at hsize
  simp only [tlvMax, Option.elim_some] at hsize
  have hurl0 : TlvOk ⟨tlvUrl0, c.url0 ++ [0]⟩ := tlvOk_string (.inr (.inl rfl)) (by omega)
  have hurlx : TlvOk ⟨tlvUrlx, urlx ++ [0]⟩ := tlvOk_string (.inr (.inr (.inl rfl))) (by omega)
  have hca : TlvOk ⟨tlvCa, der⟩ := ⟨hder, by simp only; omega, .inr (.inr (.inr (.inr rfl)))⟩
  have hsrc : TlvOk ⟨tlvSrc, [lowByte c.source]⟩ := tlvOk_byte (.inl rfl) _
  have hpub : TlvOk ⟨tlvPub, [lowByte c.pub]⟩ := tlvOk_byte (.inr rfl) _
  rw [Config.tlvs, rcsTlvs]
  rcases hcode : c.code with _ | code
  · simp only [Option.elim_none, List.append_nil, List.cons_append, List.nil_append,
      List.forall_mem_cons]
    exact ⟨hsrc, hpub, hurl0, hurlx, hca, List.forall_mem_nil _⟩
  · rw [hcode, Option.elim_some] at hsize
    have hcode : TlvOk ⟨tlvCode, code ++ [0]⟩ := tlvOk_string (.inl rfl) (by omega)
    simp only [Option.elim_some, List.cons_append, List.nil_append, List.forall_mem_cons]
    exact ⟨hsrc, hpub, hcode, hurl0, hurlx, hca, List.forall_mem_nil _⟩

theorem exists_rcsSerialize_eq {cert : Bytes} (h : Holds rcs c) (hlevel : E.level ≠ .sl0)
    (hurlx : c.urlx = some urlx) (hcert : c.cert = some cert)
    (hpem : tuyaX509Pem2der E (some cert) cert.length = .ok der) (hsize : c.size der < 65536) :
    ∃ k, rcsSerialize E rcs = some (.ok (tlvBytes (c.tlvs urlx der) ++ List.replicate k 0)) ∧
      (tlvBytes (c.tlvs urlx der)).length + k = c.size der := by
  have htotal : rcsTotal c.code c.url0 + der.length + urlx.length = c.size der := by
    rw [Config.size, hurlx, Option.elim_some]
  have hread : rcs.urlx.bind cText = some urlx := bind_cText_of_readString (hurlx ▸ h.urlx)
  have heq : rcsSerialize E rcs = writeTlvs (c.size der) (c.tlvs urlx der) := by
    rw [rcsSerialize, h.url0, h.code, h.source, h.pub, h.caCert, hcert, h.caCertLen cert hcert,
      hpem, hread]
    simp only [Option.bind_eq_bind, Option.bind_some, if_neg hlevel, htotal]
    rfl
  have hle : (tlvBytes (c.tlvs urlx der)).length ≤ c.size der := length_tlvBytes_le hurlx
  exact ⟨_, heq.trans (writeTlvs_eq hle hsize), Nat.add_sub_cancel' hle⟩

/-- **The stored bytes are read back.** -/
theorem holds_of_rcsDeserialize (h : Holds rcs c) (hurlx : c.urlx = some urlx)
    (hsize : c.size der < 65536) (hder : der ≠ []) (hsource : byteInt (lowByte c.source) = c.source)
    (hpub : byteInt (lowByte c.pub) = c.pub) (k : Nat) :
    ∃ stored, rcsDeserialize (tlvBytes (c.tlvs urlx der) ++ List.replicate k 0) .zero =
      (oprtOk, stored) ∧ Holds stored { c with cert := some der } := by
  refine ⟨_, rcsDeserialize_tlvBytes (tlvOk_of_mem_tlvs hurlx hsize hder) k, ?_⟩
  have hurlx0 : 0 ∉ urlx := zero_notMem_of_readString (hurlx ▸ h.urlx)
  have hurl0 : 0 ∉ c.url0 := zero_notMem_of_bind_cText h.url0
  have hfold : (c.tlvs urlx der).foldl takeOver .zero =
      ⟨byteInt (lowByte c.source), byteInt (lowByte c.pub), c.code.map (· ++ [0]),
        some (c.url0 ++ [0]), some (urlx ++ [0]), some der, der.length⟩ := by
    rw [Config.tlvs, rcsTlvs]
    rcases c.code with _ | code <;> rfl
  rw [hfold, hsource, hpub]
  refine ⟨rfl, rfl, ?_, cText_append_zero hurl0, ?_, rfl, ?_⟩
  · have hcode := h.code
    rcases hc : c.code with _ | code
    · rfl
    · exact readString_append_zero (zero_notMem_of_readString (hc ▸ hcode))
  · rw [hurlx]
    exact readString_append_zero hurlx0
  · rintro cert ⟨⟩
    rfl

/-- **Storing a record.** What is read back from the bytes says the same, with the certificate as it
has been converted. -/
theorem exists_rcsSerialize_rcsDeserialize {cert : Bytes} (h : Holds rcs c)
    (hlevel : E.level ≠ .sl0) (hurlx : c.urlx ≠ none) (hcert : c.cert = some cert)
    (hpem : tuyaX509Pem2der E (some cert) cert.length = .ok der) (hder : der ≠ [])
    (hsize : c.size der < 65536) (hsource : byteInt (lowByte c.source) = c.source)
    (hpub : byteInt (lowByte c.pub) = c.pub) :
    ∃ data stored, rcsSerialize E rcs = some (.ok data) ∧ data.length = c.size der ∧
      rcsDeserialize data .zero = (oprtOk, stored) ∧ Holds stored { c with cert := some der } := by
  obtain ⟨urlx, hurlx⟩ := Option.ne_none_iff_exists'.1 hurlx
  obtain ⟨k, hserialize, hlen⟩ := exists_rcsSerialize_eq h hlevel hurlx hcert hpem hsize
  obtain ⟨stored, hstored, hsays⟩ := holds_of_rcsDeserialize h hurlx hsize hder hsource hpub k
  refine ⟨_, stored, hserialize, ?_, hstored, hsays⟩
  rw [List.length_append, List.length_replicate, hlen]

end Serialize

/-! ### Updates -/

section Updates

variable {E : RcsEnv} {s s' : RcsState} {c : Config} {mem pem der : Bytes} {len : Nat}

theorem exists_of_save {source : RcsE} {members : List (Bytes × CJson)}
    (h : tuyaRegisterCenterSave E s source (some members) = some (oprtOk, s')) :
    ∃ text tmp, E.printUnformatted (.object (members ++
        [(asciiBytes ['s', 'o', 'u', 'r', 'c', 'e'], .number source.value)])) = some text ∧
      rcsRestore E text = some (.ok tmp) ∧ s'.rcs = tmp := by
  rw [tuyaRegisterCenterSave] at h
  rcases hprint : E.printUnformatted (.object (members ++
    [(asciiBytes ['s', 'o', 'u', 'r', 'c', 'e'], .number source.value)])) with _ | text
  · rw [hprint] at h
    cases h
  rw [hprint] at h
  obtain ⟨r, hrestore, h⟩ := Option.bind_eq_some_iff.1 h
  rcases r with rt | tmp
  · cases h
  obtain ⟨r, -, h⟩ := Option.bind_eq_some_iff.1 h
  rcases r with rt | data
  · cases h
  refine ⟨text, tmp, hprint, hrestore, ?_⟩
  dsimp only at h
  generalize (if source = .mf then RcsKv.mf else .active) = key at h
  by_cases hset : E.kvSet key data = oprtOk
  · rw [if_pos hset] at h
    exact (congrArg (fun r => r.2.rcs) (Option.some.inj h)).symm
  · rw [if_neg hset] at h
    exact absurd (congrArg Prod.fst (Option.some.inj h)) hset

theorem save_eq {members : List (Bytes × CJson)} {text data : Bytes} {tmp : RegisterCenter}
    (hprint : E.printUnformatted (.object (members ++
      [(asciiBytes ['s', 'o', 'u', 'r', 'c', 'e'], .number RcsE.app.value)])) = some text)
    (hrestore : rcsRestore E text = some (.ok tmp))
    (hserialize : rcsSerialize E tmp = some (.ok data)) (hset : E.kvSet .active data = oprtOk) :
    tuyaRegisterCenterSave E s .app (some members) =
      some (oprtOk, ⟨tmp, Function.update s.kv .active (some data)⟩) := by
  simp only [tuyaRegisterCenterSave, hprint, hrestore, hserialize, Option.bind_eq_bind,
    Option.bind_some, reduceCtorEq, if_false, hset, if_true]
  rfl

theorem update_eq_save (hload : Holds s.rcs c) (hlen : len ≠ 0) (htext : cText mem = some pem) :
    tuyaRegisterCenterUpdate E s (some mem) len = tuyaRegisterCenterSave E s .app
      (some (updateMembers E.level c.pub c.url0 c.code pem c.urlx)) := by
  obtain ⟨url0Mem, hmem, hurl0⟩ := Option.bind_eq_some_iff.1 hload.url0
  simp only [tuyaRegisterCenterUpdate, if_neg hlen, hmem, hurl0, hload.code, htext, hload.urlx,
    hload.pub, Option.bind_eq_bind, Option.bind_some]

theorem holds_restored {code urlx : Bytes} (hload : Holds s.rcs c) (hcode : c.code = some code)
    (hurlx : c.urlx = some urlx) (hpub : pubItem c.pub = c.pub) :
    Holds (restored c pem code urlx) (c.withCert (pem ++ [0])) := by
  have hcode0 : 0 ∉ code := zero_notMem_of_readString (hcode ▸ hload.code)
  have hurlx0 : 0 ∉ urlx := zero_notMem_of_readString (hurlx ▸ hload.urlx)
  refine ⟨rfl, hpub, ?_, ?_, ?_, rfl, ?_⟩
  · exact (readString_append_zero hcode0).trans (congrArg some hcode.symm)
  · exact cText_append_zero (zero_notMem_of_bind_cText hload.url0)
  · exact (readString_append_zero hurlx0).trans (congrArg some hurlx.symm)
  · rintro cert ⟨⟩
    rw [List.length_append, List.length_singleton]
    rfl

theorem exists_update_eq (hload : Holds s.rcs c) (hworks : Works E c mem len pem der)
    (hcond : UpdateCond E.level c) :
    ∃ s' data stored, tuyaRegisterCenterUpdate E s (some mem) len = some (oprtOk, s') ∧
      Holds s'.rcs (c.withCert (pem ++ [0])) ∧ s'.kv .active = some data ∧
      data.length = c.size der ∧ rcsDeserialize data .zero = (oprtOk, stored) ∧
      Holds stored (c.withCert der) := by
  obtain ⟨code, hcode⟩ := Option.ne_none_iff_exists'.1 hcond.code
  obtain ⟨urlx, hurlx⟩ := Option.ne_none_iff_exists'.1 hcond.urlx
  obtain ⟨text, hprint, hparse⟩ := hworks.json
  have hpub : pubItem c.pub = c.pub ∧ byteInt (lowByte c.pub) = c.pub := by
    rcases hcond.pub with h | h <;> rw [h] <;> exact ⟨rfl, rfl⟩
  have hrestore : rcsRestore E text = some (.ok (restored c pem code urlx)) := by
    rw [rcsRestore_document_ne hparse hcode hcond.level_ne, rcsRestoreX_eq, hurlx]
    rfl
  have hholds : Holds (restored c pem code urlx) (c.withCert (pem ++ [0])) :=
    holds_restored hload hcode hurlx hpub.1
  have hlen : (pem ++ [0]).length = pem.length + 1 := List.length_append
  obtain ⟨data, stored, hserialize, hdata, hstored, hsays⟩ :=
    exists_rcsSerialize_rcsDeserialize hholds hcond.level_ne hcond.urlx rfl
      (hlen ▸ hworks.pem2der) hworks.der_ne hworks.size rfl hpub.2
  have hkv : Function.update s.kv .active (some data) .active = some data :=
    Function.update_self _ _ _
  refine ⟨⟨_, Function.update s.kv .active (some data)⟩, data, stored, ?_, hholds, hkv, hdata,
    hstored, hsays⟩
  rw [update_eq_save hload hworks.len_ne hworks.text]
  exact save_eq hprint hrestore hserialize (hworks.kvSet data)

theorem onlyCert_of_updateCond (hload : Holds s.rcs c) (hworks : Works E c mem len pem der)
    (hcond : UpdateCond E.level c) : OnlyCert E s c mem len pem der := by
  obtain ⟨s', data, stored, hupdate, hrcs, hkv, -, hstored, hsays⟩ :=
    exists_update_eq hload hworks hcond
  exact ⟨s', hupdate, hrcs, data, stored, hkv, hstored, hsays⟩

/-- The next start loads the record with the new certificate. -/
theorem exists_update_restart (hload : Holds s.rcs c) (hworks : Works E c mem len pem der)
    (hcond : UpdateCond E.level c) :
    ∃ s', tuyaRegisterCenterUpdate E s (some mem) len = some (oprtOk, s') ∧
      Holds s'.rcs (c.withCert (pem ++ [0])) ∧
      Holds (tuyaRegisterCenterInit E ⟨.zero, s'.kv⟩).rcs (c.withCert der) := by
  obtain ⟨s', data, stored, hupdate, hrcs, hkv, hlen, hstored, hsays⟩ :=
    exists_update_eq hload hworks hcond
  refine ⟨s', hupdate, hrcs, ?_⟩
  have htake : data.take (u16 data.length) = data := by
    rw [u16_of_lt (hlen ▸ hworks.size), List.take_length]
  have hinit : tuyaRegisterCenterInit E ⟨.zero, s'.kv⟩ = ⟨stored, s'.kv⟩ := by
    have hzero : ¬RegisterCenter.zero.url0.isSome = true := by decide
    rw [tuyaRegisterCenterInit, if_neg hzero, hkv]
    simp only [Option.orElse_some, htake, hstored, if_true]
  rw [hinit]
  exact hsays

theorem updateCond_of_onlyCert (hload : Holds s.rcs c) (hworks : Works E c mem len pem der)
    (h : OnlyCert E s c mem len pem der) : UpdateCond E.level c := by
  obtain ⟨s', hupdate, hrcs, -⟩ := h
  rw [update_eq_save hload hworks.len_ne hworks.text] at hupdate
  obtain ⟨text, tmp, hprint, hrestore, htmp⟩ := exists_of_save hupdate
  obtain ⟨text', hprint', hparse⟩ := hworks.json
  obtain rfl : text' = text := Option.some.inj (hprint'.symm.trans hprint)
  obtain ⟨hcode, hpub, hsl0, hurlx⟩ := of_rcsRestore_document hparse hrestore
  have hlevel : E.level ≠ .sl0 := by
    intro hlevel
    have hcert := hrcs.caCert
    rw [htmp, hsl0 hlevel] at hcert
    cases hcert
  refine ⟨hlevel, hcode, hurlx hlevel, ?_⟩
  have hsame : pubItem c.pub = c.pub := by rw [← hpub, ← htmp, hrcs.pub]; rfl
  rw [pubItem] at hsame
  split_ifs at hsame with hzero
  · exact .inl hzero
  · exact .inr hsame.symm

theorem update_eq_of_code_eq_none (hload : Holds s.rcs c) (hworks : Works E c mem len pem der)
    (hcode : c.code = none) :
    tuyaRegisterCenterUpdate E s (some mem) len = some (oprtCjsonGetErr, s) := by
  obtain ⟨text, hprint, hparse⟩ := hworks.json
  obtain ⟨rt, hrestore⟩ := rcsRestore_document_none hparse hcode
  rw [document] at hprint
  rw [update_eq_save hload hworks.len_ne hworks.text]
  simp only [tuyaRegisterCenterSave, hprint, hrestore, Option.bind_eq_bind, Option.bind_some]
  rfl

theorem holds_sDefRcs (level : SecurityLevel) : Holds (sDefRcs level) (defConfig level) := by
  have hurl0 : 0 ∉ defRcsUrl0 := by decide
  have hurlx : readString ((defRcsUrlx level).map (· ++ [0])) = some (defRcsUrlx level) := by
    rcases level <;> rfl
  have hlen : ∀ cert, defRcsCa level = some cert →
      (defRcsCa level).elim 4 List.length = cert.length := by
    intro cert hcert
    rw [hcert, Option.elim_some]
  exact ⟨rfl, rfl, rfl, cText_append_zero hurl0, hurlx, rfl, hlen⟩

/-! ### When an update changes only the certificate -/

def samplePem : Bytes :=
  asciiBytes (List.replicate 5 '-' ++
    ['B', 'E', 'G', 'I', 'N', ' ', 'C', 'E', 'R', 'T', 'I', 'F', 'I', 'C', 'A', 'T', 'E'] ++
    List.replicate 5 '-' ++ ['\n', 'M', 'A', 'M', 'C', 'A', 'Q', 'A', '=', '\n'] ++
    List.replicate 5 '-' ++
    ['E', 'N', 'D', ' ', 'C', 'E', 'R', 'T', 'I', 'F', 'I', 'C', 'A', 'T', 'E'] ++
    List.replicate 5 '-' ++ ['\n'])

def sampleDer : Bytes := [0x30, 0x03, 0x02, 0x01, 0x00]

/-- The text of the object for the default record with a value for the code. -/
def sampleText (code : String) : Bytes :=
  asciiBytes ("\x7b\"pub\":true,\"url0\":\"h3.iot-dns.com\",\"code\":" ++ code ++
    ",\"ca\":\"-----BEGIN CERTIFICATE-----\\nMAMCAQA=\\n-----END CERTIFICATE-----\\n\"," ++
    "\"url1\":\"h6.iot-dns.com\",\"source\":0\x7d").toList

/-- The build, where the object for a record that says `c` is printed as `text`. -/
def sampleEnv (c : Config) (text : Bytes) : RcsEnv where
  level := .sl1
  printUnformatted _ := some text
  parse data := if data = text then some (document .sl1 c samplePem) else none
  pemReadBuffer buf := if buf = samplePem then .decoded sampleDer else .noHeader
  kvSet _ _ := oprtOk

theorem works_sampleEnv {c : Config} {text : Bytes} (hsize : c.size sampleDer < 65536) :
    Works (sampleEnv c text) c (samplePem ++ [0]) 64 samplePem sampleDer := by
  have hzero : 0 ∉ samplePem := by decide
  have hread : (sampleEnv c text).pemReadBuffer (cString (samplePem ++ [0])) =
      .decoded sampleDer := by
    rw [cString_append_zero hzero]
    simp only [sampleEnv, if_true]
  refine ⟨by decide, cText_append_zero hzero, ?_, List.cons_ne_nil _ _,
    ⟨text, rfl, if_pos rfl⟩, fun _ => rfl, hsize⟩
  rw [tuyaX509Pem2der, if_neg (by decide), hread]

/-- **Updating the certificate.** It changes only the certificate if and only if the build has
certificates, the record has a code and an address for the level, and `pub` is `TRUE` or `FALSE`. -/
theorem onlyCert_iff (hload : Holds s.rcs c) (hworks : Works E c mem len pem der) :
    OnlyCert E s c mem len pem der ↔ UpdateCond E.level c :=
  ⟨updateCond_of_onlyCert hload hworks, onlyCert_of_updateCond hload hworks⟩

/-- The default record with a code. -/
theorem onlyCert_code :
    OnlyCert (sampleEnv { defConfig .sl1 with code := some [0x41, 0x59] } (sampleText "\"AY\""))
      ⟨{ sDefRcs .sl1 with code := some [0x41, 0x59, 0] }, fun _ => none⟩
      { defConfig .sl1 with code := some [0x41, 0x59] } (samplePem ++ [0]) 64 samplePem
      sampleDer := by
  have hdef := holds_sDefRcs .sl1
  exact (onlyCert_iff ⟨hdef.source, hdef.pub, rfl, hdef.url0, hdef.urlx, hdef.caCert,
    hdef.caCertLen⟩ (works_sampleEnv (by decide))).2 ⟨by decide, by decide, by decide, .inr rfl⟩

/-- The default record has no code: an update of it fails. -/
theorem not_onlyCert_sDefRcs :
    Holds (sDefRcs .sl1) (defConfig .sl1) ∧
    Works (sampleEnv (defConfig .sl1) (sampleText "null")) (defConfig .sl1) (samplePem ++ [0]) 64
      samplePem sampleDer ∧
    tuyaRegisterCenterUpdate (sampleEnv (defConfig .sl1) (sampleText "null"))
      ⟨sDefRcs .sl1, fun _ => none⟩ (some (samplePem ++ [0])) 64 =
      some (oprtCjsonGetErr, ⟨sDefRcs .sl1, fun _ => none⟩) ∧
    ¬OnlyCert (sampleEnv (defConfig .sl1) (sampleText "null")) ⟨sDefRcs .sl1, fun _ => none⟩
      (defConfig .sl1) (samplePem ++ [0]) 64 samplePem sampleDer := by
  have hload := holds_sDefRcs .sl1
  have hworks : Works (sampleEnv (defConfig .sl1) (sampleText "null")) (defConfig .sl1)
      (samplePem ++ [0]) 64 samplePem sampleDer := works_sampleEnv (by decide)
  refine ⟨hload, hworks, update_eq_of_code_eq_none hload hworks rfl, ?_⟩
  intro h
  exact (updateCond_of_onlyCert hload hworks h).code rfl

/-! ### Updates and restarts -/

/-- A certificate as `tuya_register_center_update` gets it, as a text, and as bytes. -/
structure Cert where
  mem : Bytes
  len : Nat
  pem : Bytes
  der : Bytes

inductive RcsEvent
  | update (cert : Cert)
  | restart

/-- What an event makes of the record and the KV area. Only the KV area outlives a restart. -/
def rcsStep (E : RcsEnv) (s : RcsState) : RcsEvent → Option RcsState
  | .update cert => (tuyaRegisterCenterUpdate E s (some cert.mem) cert.len).map Prod.snd
  | .restart => some (tuyaRegisterCenterInit E ⟨.zero, s.kv⟩)

def lastDer (der : Bytes) (evs : List RcsEvent) : Bytes :=
  evs.foldl (fun der ev => match ev with
    | .update cert => cert.der
    | .restart => der) der

/-- The record in memory differs from `c` in its certificate only, and the next start loads `c` with
the certificate `der`. -/
def Saved (E : RcsEnv) (c : Config) (der : Bytes) (s : RcsState) : Prop :=
  (∃ cert, Holds s.rcs (c.withCert cert)) ∧
    Holds (tuyaRegisterCenterInit E ⟨.zero, s.kv⟩).rcs (c.withCert der)

theorem kv_tuyaRegisterCenterInit (s : RcsState) : (tuyaRegisterCenterInit E s).kv = s.kv := by
  rw [tuyaRegisterCenterInit]
  split
  · rfl
  · split <;> rfl

theorem Saved.step (hcond : UpdateCond E.level c) {ev : RcsEvent} (hsaved : Saved E c der s)
    (hworks : ∀ x, ev = .update x → Works E c x.mem x.len x.pem x.der) :
    ∃ s', rcsStep E s ev = some s' ∧ Saved E c (lastDer der [ev]) s' := by
  cases ev with
  | update x =>
    obtain ⟨cert, hload⟩ := hsaved.1
    have h := hworks x rfl
    have hcond' : UpdateCond E.level (c.withCert cert) :=
      ⟨hcond.level_ne, hcond.code, hcond.urlx, hcond.pub⟩
    obtain ⟨s', hupdate, hrcs, hinit⟩ := exists_update_restart hload
      ⟨h.len_ne, h.text, h.pem2der, h.der_ne, h.json, h.kvSet, h.size⟩ hcond'
    exact ⟨s', by rw [rcsStep, hupdate]; rfl, ⟨_, hrcs⟩, hinit⟩
  | restart =>
    refine ⟨_, rfl, ⟨_, hsaved.2⟩, ?_⟩
    rw [kv_tuyaRegisterCenterInit]
    exact hsaved.2

theorem Saved.run (hcond : UpdateCond E.level c) {evs : List RcsEvent} (hsaved : Saved E c der s)
    (hworks : ∀ x, .update x ∈ evs → Works E c x.mem x.len x.pem x.der) :
    ∃ s', evs.foldlM (rcsStep E) s = some s' ∧ Saved E c (lastDer der evs) s' := by
  induction evs generalizing s der with
  | nil => exact ⟨s, rfl, hsaved⟩
  | cons ev evs ih =>
    obtain ⟨s₁, hstep, hsaved₁⟩ := hsaved.step hcond fun x hx => hworks x (hx ▸ .head _)
    obtain ⟨s', hrun, hsaved'⟩ := ih hsaved₁ fun x hx => hworks x (.tail _ hx)
    exact ⟨s', by rw [List.foldlM_cons, hstep]; exact hrun, hsaved'⟩

end Updates

end TuyaOpen.Rcs
