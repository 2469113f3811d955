import TuyaOpen.Basic.Cipher
import TuyaOpen.Basic.Text
import TuyaOpen.Common.OperateRet

/-!
# Envelopes of MQTT and LAN payloads

`tuya_pack_protocol_data` and `tuya_parse_protocol_data` of `tuya_protocol.c`. The text of a
payload is wrapped into a JSON object with its protocol number and the time, and then gets the
header of the channel:

* MQTT, PV 2.3: version, sequence, source, reserved byte, nonce, ciphertext, tag; the first twelve
  bytes are the additional data of AES-GCM.
* LAN, LPV 3.5: version, checksum, sequence, source, text.

Both headers are written into memory objects at the offsets of the source, and a write that leaves
its object is an `EnvelopeFault`.
-/

namespace TuyaOpen.Protocol

/-- The places where a memory object of an envelope is left. -/
inductive EnvelopeFault
  | text
  | buffer
  | span
  deriving DecidableEq

/-! ### Constants -/

/-- `dp_cmd_type_t`. -/
abbrev DpCmdType := UInt8

/-- `DP_CMD_LAN`. -/
def dpCmdLan : DpCmdType := 0

/-- `DP_CMD_MQ`. -/
def dpCmdMq : DpCmdType := 1

/-- `TUYA_PV23`. -/
def tuyaPv23 : Bytes := asciiBytes ['2', '.', '3']

/-- `TUYA_LPV35`. -/
def tuyaLpv35 : Bytes := asciiBytes ['3', '.', '5']

/-- `PV23_TAG_LEN`. -/
def pv23TagLen : Nat := 16

/-- `PV23_NONCE_LEN`. -/
def pv23NonceLen : Nat := 12

/-- `PV23_AD_DATA_LEN`. -/
def pv23AdDataLen : Nat := 12

/-- `PV23_EXCEPT_DATA_LEN`. -/
def pv23ExceptDataLen : Nat := pv23AdDataLen + pv23NonceLen + pv23TagLen

/-- `DATA_OFFSET_22_32`. -/
def dataOffset2232 : Nat := 15

/-! ### The text -/

/-- A C string whose envelope has a length in the range of `int`. -/
structure EnvelopeText where
  src : Bytes
  zero_notMem_src : 0 ∉ src
  length_src_lt : src.length + 100 < 2 ^ 31

/-- What `sprintf` prints in front of the closing brace. -/
def protocolFields (pro now : UInt32) (src : Bytes) : Bytes :=
  asciiBytes ['{', '"', 'p', 'r', 'o', 't', 'o', 'c', 'o', 'l', '"', ':'] ++
    (decimal pro.toNat ++ (asciiBytes [',', '"', 't', '"', ':'] ++ (decimal now.toNat ++
      (asciiBytes [',', '"', 'd', 'a', 't', 'a', '"', ':'] ++ src))))

def protocolText (pro now : UInt32) (src : Bytes) : Bytes :=
  protocolFields pro now src ++ asciiBytes ['}']

/-- The object `out` after the text has been printed into it, and the length of the text. -/
def printText (out : Bytes) (pro now : UInt32) (src : Bytes) : Option (Bytes × Nat) := do
  let fields := protocolFields pro now src
  let out ← memcpy out 0 (fields ++ [0])
  let out ← memcpy out fields.length (asciiBytes ['}'])
  let out ← memcpy out (fields.length + 1) [0]
  return (out, fields.length + 1)

/-! ### Packing -/

/-- The header of an MQTT payload: version, sequence, source, reserved byte and nonce. -/
def writePv23Head (buf pv : Bytes) (num : UInt32) (nonce : Bytes) : Option Bytes :=
  memcpys buf
    [(0, pv), (3, beBytes 4 num.toNat), (7, beBytes 4 1), (11, [0]), (12, nonce)]

def writePv23Data (buf ct tag : Bytes) (offset : Nat) : Option Bytes :=
  memcpys buf [(24, ct), (24 + offset, tag)]

def writeLpv35 (buf pv text : Bytes) (num : UInt32) : Option Bytes :=
  match memcpy buf dataOffset2232 text with
  | none => none
  | some buf =>
    memcpys buf [(0, pv), (3, beBytes 4 0), (7, beBytes 4 num.toNat), (11, beBytes 4 1)]

section Functions

variable (gcm : Aead FailCode pv23TagLen) (heap : Allocator)

/-- `__pack_data_with_cmd_pv23`, when the random string is `nonce`. -/
def packDataWithCmdPv23 (pv src : Bytes) (pro now num : UInt32) (key nonce : Bytes) :
    Except EnvelopeFault (OperateRet × Option Bytes) :=
  match heap.malloc (src.length + 60) with
  | none => .ok (oprtMallocFailed, none)
  | some out =>
    match printText out pro now src with
    | none => .error .text
    | some (out, offset) =>
      match heap.malloc (offset + pv23ExceptDataLen) with
      | none => .ok (oprtMallocFailed, none)
      | some buf =>
        match writePv23Head (List.replicate buf.length 0) pv num nonce with
        | none => .error .buffer
        | some buf =>
          match gcm.encrypt key (slice buf 12 pv23NonceLen) (slice buf 0 pv23AdDataLen)
              (cString out) with
          | .error e => .ok (e.val, none)
          | .ok (ct, tag) =>
            match writePv23Data buf ct tag offset with
            | none => .error .buffer
            | some buf => .ok (oprtOk, some (buf.take (pv23ExceptDataLen + ct.length)))

/-- `__pack_data_with_cmd_lpv35`. -/
def packDataWithCmdLpv35 (pv src : Bytes) (pro now num : UInt32) :
    Except EnvelopeFault (OperateRet × Option Bytes) :=
  match heap.malloc (src.length + 60) with
  | none => .ok (oprtMallocFailed, none)
  | some out =>
    match printText out pro now src with
    | none => .error .text
    | some (out, offset) =>
      match heap.malloc (dataOffset2232 + offset + 16) with
      | none => .ok (oprtMallocFailed, none)
      | some buf =>
        match writeLpv35 (List.replicate buf.length 0) pv (out.take offset) num with
        | none => .error .buffer
        | some buf => .ok (oprtOk, some (buf.take (dataOffset2232 + offset)))

/-- `tuya_pack_protocol_data`, with the time `now`, the serial number `num` and the random string
`nonce`: its return value, and the packed bytes when it is `OPRT_OK`. -/
def tuyaPackProtocolData (cmd : DpCmdType) (src : Bytes) (pro now num : UInt32)
    (key nonce : Bytes) : Except EnvelopeFault (OperateRet × Option Bytes) :=
  if cmd = dpCmdLan then packDataWithCmdLpv35 heap tuyaLpv35 src pro now num
  else if cmd = dpCmdMq then packDataWithCmdPv23 gcm heap tuyaPv23 src pro now num key nonce
  else .ok (oprtComError, none)

/-! ### Parsing -/

/-- `__parse_data_with_pv23`. -/
def parseDataWithPv23 (data key : Bytes) : Except EnvelopeFault (OperateRet × Option Bytes) :=
  if data.take 3 ≠ tuyaPv23 then .ok (oprtVersionFmtErr, none)
  else if slice data 11 1 ≠ [0] then .ok (oprtVersionFmtErr, none)
  else
    let dataLen := u32Sub data.length pv23ExceptDataLen
    match heap.malloc (u32 (dataLen + 1)) with
    | none => .ok (oprtMallocFailed, none)
    | some ec =>
      match readSpan data 12 pv23NonceLen, readSpan data 24 dataLen,
          readSpan data (u32Sub data.length pv23TagLen) pv23TagLen with
      | some nonce, some ct, some tag =>
        match gcm.decrypt key nonce (slice data 0 pv23AdDataLen) ct tag with
        | .error e => .ok (e.val, none)
        | .ok text =>
          match memcpy ec 0 (text ++ [0]) with
          | none => .error .buffer
          | some ec => .ok (oprtOk, some ec)
      | _, _, _ => .error .span

/-- `__parse_data_with_lpv35`. -/
def parseDataWithLpv35 (data : Bytes) : Except EnvelopeFault (OperateRet × Option Bytes) :=
  let ecLen := u32Sub data.length dataOffset2232
  match heap.malloc (u32 (ecLen + 1)) with
  | none => .ok (oprtMallocFailed, none)
  | some ec =>
    match readSpan data dataOffset2232 ecLen with
    | none => .error .span
    | some text =>
      match memcpy ec 0 (text ++ [0]) with
      | none => .error .buffer
      | some ec => .ok (oprtOk, some ec)

/-- `tuya_parse_protocol_data`: its return value, and the memory object of the text when it is
`OPRT_OK`. -/
def tuyaParseProtocolData (cmd : DpCmdType) (data key : Bytes) :
    Except EnvelopeFault (OperateRet × Option Bytes) :=
  if data.length < dataOffset2232 then .ok (oprtInvalidParm, none)
  else if cmd = dpCmdLan then parseDataWithLpv35 heap data
  else if cmd = dpCmdMq then parseDataWithPv23 gcm heap data key
  else .ok (oprtComError, none)

end Functions

/-! ### The text fits its buffer -/

section Text

variable {pro now : UInt32} {src : Bytes}

theorem length_protocolFields_le (pro now : UInt32) (src : Bytes) :
    (protocolFields pro now src).length ≤ src.length + 45 := by
  have hpro : (decimal pro.toNat).length ≤ 10 := length_decimal_le (by decide)
    (Nat.lt_trans pro.toNat_lt (by decide))
  have hnow : (decimal now.toNat).length ≤ 10 := length_decimal_le (by decide)
    (Nat.lt_trans now.toNat_lt (by decide))
  simp only [protocolFields, List.length_append, length_asciiBytes, List.length_cons,
    List.length_nil]
  omega

theorem length_protocolText (pro now : UInt32) (src : Bytes) :
    (protocolText pro now src).length = (protocolFields pro now src).length + 1 := by
  rw [protocolText, List.length_append, length_asciiBytes]
  rfl

theorem length_protocolText_lt (pro now : UInt32) (src : Bytes) :
    (protocolText pro now src).length < src.length + 60 := by
  have := length_protocolFields_le pro now src
  rw [length_protocolText]
  omega

theorem zero_notMem_protocolText (h : 0 ∉ src) : 0 ∉ protocolText pro now src := by
  have hascii : 0 ∉ asciiBytes ['{', '"', 'p', 'r', 'o', 't', 'o', 'c', 'o', 'l', '"', ':'] ∧
      0 ∉ asciiBytes [',', '"', 't', '"', ':'] ∧
      0 ∉ asciiBytes [',', '"', 'd', 'a', 't', 'a', '"', ':'] ∧ 0 ∉ asciiBytes ['}'] := by
    decide +kernel
  simp only [protocolText, protocolFields, List.mem_append, not_or]
  exact ⟨⟨hascii.1, zero_notMem_decimal _, hascii.2.1, zero_notMem_decimal _, hascii.2.2.1, h⟩,
    hascii.2.2.2⟩

theorem exists_printText (pro now : UInt32) {out : Bytes} (hlen : out.length = src.length + 60) :
    ∃ rest, printText out pro now src =
      some (protocolText pro now src ++ 0 :: rest, (protocolText pro now src).length) := by
  have hle := length_protocolFields_le pro now src
  set fields := protocolFields pro now src with hfields
  obtain ⟨pre, mid, rest, rfl, hpre, hmid⟩ :=
    exists_append_of_le out (fields.length + 1) 1 (by omega)
  have h1 : memcpy (pre ++ (mid ++ rest)) 0 (fields ++ [0]) =
      some (fields ++ [0] ++ (mid ++ rest)) :=
    memcpy_eq_of_append [] pre _ rfl rfl (by rw [hpre, List.length_append, List.length_singleton])
  have h2 : memcpy (fields ++ [0] ++ (mid ++ rest)) fields.length (asciiBytes ['}']) =
      some (fields ++ (asciiBytes ['}'] ++ (mid ++ rest))) :=
    memcpy_eq_of_append fields [0] _ (List.append_assoc ..) rfl rfl
  have h3 : memcpy (fields ++ (asciiBytes ['}'] ++ (mid ++ rest))) (fields.length + 1) [0] =
      some (fields ++ asciiBytes ['}'] ++ ([0] ++ rest)) :=
    memcpy_eq_of_append (fields ++ asciiBytes ['}']) mid rest (List.append_assoc ..).symm
      (List.length_append ..) hmid
  refine ⟨rest, ?_⟩
  simp only [printText, ← hfields, h1, h2, h3, Option.bind_eq_bind, Option.bind_some,
    length_protocolText, Option.pure_def]
  rfl

end Text

/-! ### Headers -/

section Heads

variable {num : UInt32} {nonce text : Bytes}

def pv23AdditionalData (num : UInt32) : Bytes :=
  tuyaPv23 ++ (beBytes 4 num.toNat ++ (beBytes 4 1 ++ [0]))

def lpv35Head (num : UInt32) : Bytes :=
  tuyaLpv35 ++ (beBytes 4 0 ++ (beBytes 4 num.toNat ++ beBytes 4 1))

@[simp] theorem length_pv23AdditionalData (num : UInt32) :
    (pv23AdditionalData num).length = pv23AdDataLen := by
  simp [pv23AdditionalData, tuyaPv23, pv23AdDataLen]

@[simp] theorem length_lpv35Head (num : UInt32) : (lpv35Head num).length = dataOffset2232 := by
  simp [lpv35Head, tuyaLpv35, dataOffset2232]

theorem writePv23Head_eq (n : Nat) (hnonce : nonce.length = pv23NonceLen) :
    writePv23Head (List.replicate (n + pv23ExceptDataLen) 0) tuyaPv23 num nonce =
      some (pv23AdditionalData num ++ (nonce ++ List.replicate (n + pv23TagLen) 0)) := by
  have hzero : List.replicate (n + pv23ExceptDataLen) (0 : UInt8) =
      [] ++ (List.replicate 24 0 ++ List.replicate (n + pv23TagLen) 0) := by
    rw [List.nil_append, List.replicate_append_replicate, pv23ExceptDataLen, pv23AdDataLen,
      pv23NonceLen]
    congr 1
    omega
  rw [writePv23Head, memcpys_eq_of_append [] (List.replicate 24 0) _ hzero rfl]
  · simp only [pv23AdditionalData, List.map_cons, List.map_nil, List.flatten_cons,
      List.flatten_nil, List.append_nil, List.append_assoc, List.nil_append]
  · simp [Consecutive, tuyaPv23]
  · simp [tuyaPv23, hnonce, pv23NonceLen]

theorem writePv23Data_eq {ct tag : Bytes} (hnonce : nonce.length = pv23NonceLen)
    (htag : tag.length = pv23TagLen) :
    writePv23Data
        (pv23AdditionalData num ++ (nonce ++ List.replicate (ct.length + pv23TagLen) 0)) ct tag
        ct.length =
      some (pv23AdditionalData num ++ (nonce ++ (ct ++ tag))) := by
  have hzero : pv23AdditionalData num ++ (nonce ++ List.replicate (ct.length + pv23TagLen) 0) =
      pv23AdditionalData num ++ nonce ++ (List.replicate (ct.length + pv23TagLen) 0 ++ []) := by
    rw [List.append_nil, List.append_assoc]
  rw [writePv23Data, memcpys_eq_of_append _ _ _ hzero
    (by rw [List.length_append, length_pv23AdditionalData, hnonce])]
  · simp only [List.map_cons, List.map_nil, List.flatten_cons, List.flatten_nil, List.append_nil,
      List.append_assoc]
  · exact ⟨rfl, rfl, trivial⟩
  · simp [htag]

theorem writeLpv35_eq (text : Bytes) :
    writeLpv35 (List.replicate (dataOffset2232 + text.length + 16) 0) tuyaLpv35 text num =
      some (lpv35Head num ++ (text ++ List.replicate 16 0)) := by
  have hzero : List.replicate (dataOffset2232 + text.length + 16) (0 : UInt8) =
      List.replicate dataOffset2232 0 ++ (List.replicate text.length 0 ++ List.replicate 16 0) := by
    rw [List.replicate_append_replicate, List.replicate_append_replicate, Nat.add_assoc]
  have htext : memcpy (List.replicate (dataOffset2232 + text.length + 16) 0) dataOffset2232 text =
      some (List.replicate dataOffset2232 0 ++ (text ++ List.replicate 16 0)) :=
    memcpy_eq_of_append _ _ _ hzero (List.length_replicate ..) (List.length_replicate ..)
  rw [writeLpv35, htext]
  simp only
  rw [memcpys_eq_of_append [] (List.replicate dataOffset2232 0) _ (List.nil_append _).symm rfl]
  · simp only [lpv35Head, List.map_cons, List.map_nil, List.flatten_cons, List.flatten_nil,
      List.append_nil, List.append_assoc, List.nil_append]
  · simp [Consecutive, tuyaLpv35]
  · simp [tuyaLpv35, dataOffset2232]

end Heads

/-! ### Packing and parsing -/

section RoundTrip

variable {gcm : Aead FailCode pv23TagLen} {heap : Allocator} {pro now num : UInt32}
  {key nonce : Bytes}

theorem packDataWithCmdLpv35_of_malloc {src out buf : Bytes}
    (hout : heap.malloc (src.length + 60) = some out)
    (hbuf : heap.malloc (dataOffset2232 + (protocolText pro now src).length + 16) = some buf) :
    packDataWithCmdLpv35 heap tuyaLpv35 src pro now num =
      .ok (oprtOk, some (lpv35Head num ++ protocolText pro now src)) := by
  obtain ⟨rest, hprint⟩ := exists_printText pro now (heap.length_malloc hout)
  simp only [packDataWithCmdLpv35, hout, hprint, hbuf]
  rw [heap.length_malloc hbuf, List.take_left, writeLpv35_eq]
  simp only
  rw [← List.append_assoc, List.take_left' (by rw [List.length_append, length_lpv35Head])]

theorem packDataWithCmdPv23_of_malloc {src out buf : Bytes} (hsrc : 0 ∉ src)
    (hnonce : nonce.length = pv23NonceLen) (hout : heap.malloc (src.length + 60) = some out)
    (hbuf : heap.malloc ((protocolText pro now src).length + pv23ExceptDataLen) = some buf) :
    packDataWithCmdPv23 gcm heap tuyaPv23 src pro now num key nonce =
      match gcm.encrypt key nonce (pv23AdditionalData num) (protocolText pro now src) with
      | .error e => .ok (e.val, none)
      | .ok (ct, tag) =>
        .ok (oprtOk, some (pv23AdditionalData num ++ (nonce ++ (ct ++ tag)))) := by
  obtain ⟨rest, hprint⟩ := exists_printText pro now (heap.length_malloc hout)
  simp only [packDataWithCmdPv23, hout, hprint, hbuf]
  rw [heap.length_malloc hbuf, writePv23Head_eq _ hnonce]
  have hslice : slice (pv23AdditionalData num ++ (nonce ++
      List.replicate ((protocolText pro now src).length + pv23TagLen) 0)) 12 pv23NonceLen =
        nonce :=
    slice_eq_of_append _ _ rfl (length_pv23AdditionalData num) hnonce
  have had : slice (pv23AdditionalData num ++ (nonce ++
      List.replicate ((protocolText pro now src).length + pv23TagLen) 0)) 0 pv23AdDataLen =
        pv23AdditionalData num :=
    slice_eq_of_append [] _ rfl rfl (length_pv23AdditionalData num)
  simp only
  rw [hslice, had, cString_append_zero (zero_notMem_protocolText hsrc)]
  cases henc : gcm.encrypt key nonce (pv23AdditionalData num) (protocolText pro now src) with
  | error e => rfl
  | ok r =>
    obtain ⟨ct, tag⟩ := r
    obtain ⟨hct, htag⟩ := gcm.length_encrypt henc
    simp only
    rw [← hct, writePv23Data_eq hnonce htag]
    simp only
    rw [List.take_of_length_le]
    simp only [List.length_append, length_pv23AdditionalData, hnonce, htag, pv23ExceptDataLen]
    omega

theorem exists_tuyaPackProtocolData {src : Bytes} (cmd : DpCmdType) (hsrc : 0 ∉ src)
    (hnonce : nonce.length = pv23NonceLen) :
    ∃ r, tuyaPackProtocolData gcm heap cmd src pro now num key nonce = .ok r := by
  rw [tuyaPackProtocolData]
  split_ifs with hlan hmq
  · cases hout : heap.malloc (src.length + 60) with
    | none => exact ⟨_, by rw [packDataWithCmdLpv35, hout]⟩
    | some out =>
      cases hbuf : heap.malloc (dataOffset2232 + (protocolText pro now src).length + 16) with
      | none =>
        obtain ⟨rest, hprint⟩ := exists_printText pro now (heap.length_malloc hout)
        exact ⟨_, by simp only [packDataWithCmdLpv35, hout, hprint, hbuf]; rfl⟩
      | some buf => exact ⟨_, packDataWithCmdLpv35_of_malloc hout hbuf⟩
  · cases hout : heap.malloc (src.length + 60) with
    | none => exact ⟨_, by rw [packDataWithCmdPv23, hout]⟩
    | some out =>
      cases hbuf : heap.malloc ((protocolText pro now src).length + pv23ExceptDataLen) with
      | none =>
        obtain ⟨rest, hprint⟩ := exists_printText pro now (heap.length_malloc hout)
        exact ⟨_, by simp only [packDataWithCmdPv23, hout, hprint, hbuf]; rfl⟩
      | some buf =>
        rw [packDataWithCmdPv23_of_malloc hsrc hnonce hout hbuf]
        split
        · exact ⟨_, rfl⟩
        · exact ⟨_, rfl⟩
  · exact ⟨_, rfl⟩

theorem parseDataWithLpv35_eq {text : Bytes} (hlen : text.length + 15 < 2 ^ 31)
    (hheap : heap.malloc (text.length + 1) ≠ none) :
    parseDataWithLpv35 heap (lpv35Head num ++ text) = .ok (oprtOk, some (text ++ [0])) := by
  obtain ⟨ec, hec⟩ := Option.ne_none_iff_exists'.mp hheap
  have hdata : (lpv35Head num ++ text).length = 15 + text.length := by
    rw [List.length_append, length_lpv35Head, dataOffset2232]
  have hecLen : u32Sub (lpv35Head num ++ text).length dataOffset2232 = text.length := by
    rw [hdata, dataOffset2232, u32Sub_of_le (by omega) (by omega)]
    omega
  have htext : slice (lpv35Head num ++ text) dataOffset2232 text.length = text :=
    slice_eq_of_append (lpv35Head num) [] (by rw [List.append_nil]) (length_lpv35Head num) rfl
  have hcopy : memcpy ec 0 (text ++ [0]) = some (text ++ [0]) :=
    (memcpy_eq_of_append [] ec [] (List.append_nil _).symm rfl
      (by rw [heap.length_malloc hec, List.length_append]; rfl)).trans (by simp)
  rw [parseDataWithLpv35]
  simp only [hecLen]
  rw [u32_of_lt (by omega), hec]
  simp only
  rw [readSpan_of_le (by rw [hdata, dataOffset2232]), htext]
  simp only [hcopy]

theorem parseDataWithPv23_eq {text ct tag : Bytes} (hlen : text.length + 40 < 2 ^ 31)
    (hnonce : nonce.length = pv23NonceLen)
    (henc : gcm.encrypt key nonce (pv23AdditionalData num) text = .ok (ct, tag))
    (hheap : heap.malloc (text.length + 1) ≠ none) :
    parseDataWithPv23 gcm heap (pv23AdditionalData num ++ (nonce ++ (ct ++ tag))) key =
      .ok (oprtOk, some (text ++ [0])) := by
  obtain ⟨ec, hec⟩ := Option.ne_none_iff_exists'.mp hheap
  obtain ⟨hct, htag⟩ := gcm.length_encrypt henc
  set data := pv23AdditionalData num ++ (nonce ++ (ct ++ tag)) with hdata
  have hlength : data.length = 40 + text.length := by
    simp only [hdata, List.length_append, length_pv23AdditionalData, hnonce, hct, htag,
      pv23AdDataLen, pv23NonceLen, pv23TagLen]
    omega
  have hdataLen : u32Sub data.length pv23ExceptDataLen = text.length := by
    rw [hlength, pv23ExceptDataLen, pv23AdDataLen, pv23NonceLen, pv23TagLen,
      u32Sub_of_le (by omega) (by omega)]
    omega
  have htagOff : u32Sub data.length pv23TagLen = 24 + text.length := by
    rw [hlength, pv23TagLen, u32Sub_of_le (by omega) (by omega)]
    omega
  have hversion : data.take 3 = tuyaPv23 := rfl
  have hreserve : slice data 11 1 = [0] :=
    slice_eq_of_append (tuyaPv23 ++ beBytes 4 num.toNat ++ beBytes 4 1) (nonce ++ (ct ++ tag))
      (by simp only [hdata, pv23AdditionalData, List.append_assoc]) rfl rfl
  have had : slice data 0 pv23AdDataLen = pv23AdditionalData num :=
    slice_eq_of_append [] _ hdata rfl (length_pv23AdditionalData num)
  have hnonce' : slice data 12 pv23NonceLen = nonce :=
    slice_eq_of_append _ _ hdata (length_pv23AdditionalData num) hnonce
  have hct' : slice data 24 text.length = ct :=
    slice_eq_of_append (pv23AdditionalData num ++ nonce) tag
      (by rw [hdata, List.append_assoc])
      (by rw [List.length_append, length_pv23AdditionalData, hnonce]; rfl) hct
  have htag' : slice data (24 + text.length) pv23TagLen = tag :=
    slice_eq_of_append (pv23AdditionalData num ++ (nonce ++ ct)) []
      (by simp only [hdata, List.append_assoc, List.append_nil])
      (by
        simp only [List.length_append, length_pv23AdditionalData, hnonce, hct, pv23AdDataLen,
          pv23NonceLen]
        omega) htag
  have hcopy : memcpy ec 0 (text ++ [0]) = some (text ++ [0]) :=
    (memcpy_eq_of_append [] ec [] (List.append_nil _).symm rfl
      (by rw [heap.length_malloc hec, List.length_append]; rfl)).trans (by simp)
  rw [parseDataWithPv23, if_neg (not_not.mpr hversion), if_neg (not_not.mpr hreserve)]
  simp only [hdataLen, htagOff]
  rw [u32_of_lt (by omega), hec, readSpan_of_le (by rw [hlength, pv23NonceLen]; omega),
    readSpan_of_le (by rw [hlength]; omega),
    readSpan_of_le (by rw [hlength, pv23TagLen]; omega), hnonce', hct', htag', had]
  simp only [gcm.decrypt_encrypt henc, hcopy]

/-- **Envelopes round-trip.** On either channel, when memory can be allocated and the encryption
succeeds, `tuya_parse_protocol_data` of what `tuya_pack_protocol_data` has packed gives the text
with its NUL, which is shorter than the buffer it was printed into; and packing stays inside its
memory objects in any case. -/
theorem envelope_roundTrip (t : EnvelopeText) {cmd : DpCmdType}
    (hcmd : cmd = dpCmdLan ∨ cmd = dpCmdMq) (pro now num : UInt32)
    (hnonce : nonce.length = pv23NonceLen)
    (hheap : ∀ n ≤ t.src.length + 100, heap.malloc n ≠ none)
    (henc : cmd = dpCmdMq → ∃ r,
      gcm.encrypt key nonce (pv23AdditionalData num) (protocolText pro now t.src) = .ok r) :
    (∃ out, tuyaPackProtocolData gcm heap cmd t.src pro now num key nonce = .ok (oprtOk, some out) ∧
      tuyaParseProtocolData gcm heap cmd out key =
        .ok (oprtOk, some (protocolText pro now t.src ++ [0]))) ∧
      cString (protocolText pro now t.src ++ [0]) = protocolText pro now t.src ∧
      (protocolText pro now t.src).length < t.src.length + 60 ∧
      ∀ heap' : Allocator, ∃ r,
        tuyaPackProtocolData gcm heap' cmd t.src pro now num key nonce = .ok r := by
  have hlt := length_protocolText_lt pro now t.src
  have hsrc := t.length_src_lt
  refine ⟨?_, cString_append_zero (zero_notMem_protocolText t.zero_notMem_src) [], hlt,
    fun _ => exists_tuyaPackProtocolData cmd t.zero_notMem_src hnonce⟩
  obtain ⟨out, hout⟩ := Option.ne_none_iff_exists'.mp (hheap (t.src.length + 60) (by omega))
  rcases hcmd with rfl | rfl
  · obtain ⟨buf, hbuf⟩ := Option.ne_none_iff_exists'.mp
      (hheap (dataOffset2232 + (protocolText pro now t.src).length + 16)
        (by rw [dataOffset2232]; omega))
    refine ⟨lpv35Head num ++ protocolText pro now t.src, ?_, ?_⟩
    · rw [tuyaPackProtocolData, if_pos rfl, packDataWithCmdLpv35_of_malloc hout hbuf]
    · rw [tuyaParseProtocolData, if_neg, if_pos rfl,
        parseDataWithLpv35_eq (by omega) (hheap _ (by omega))]
      rw [List.length_append, length_lpv35Head]
      omega
  · obtain ⟨buf, hbuf⟩ := Option.ne_none_iff_exists'.mp
      (hheap ((protocolText pro now t.src).length + pv23ExceptDataLen)
        (by rw [pv23ExceptDataLen, pv23AdDataLen, pv23NonceLen, pv23TagLen]; omega))
    obtain ⟨⟨ct, tag⟩, henc⟩ := henc rfl
    refine ⟨pv23AdditionalData num ++ (nonce ++ (ct ++ tag)), ?_, ?_⟩
    · rw [tuyaPackProtocolData, if_neg (by decide), if_pos rfl,
        packDataWithCmdPv23_of_malloc t.zero_notMem_src hnonce hout hbuf, henc]
    · rw [tuyaParseProtocolData, if_neg, if_neg (by decide), if_pos rfl,
        parseDataWithPv23_eq (by omega) hnonce henc (hheap _ (by omega))]
      simp only [List.length_append, length_pv23AdditionalData, hnonce, dataOffset2232,
        pv23AdDataLen, pv23NonceLen]
      omega

end RoundTrip

def sampleText : EnvelopeText where
  src := asciiBytes ['{', '}']
  zero_notMem_src := by decide
  length_src_lt := by decide

def sampleHeap : Allocator where
  malloc n := some (List.replicate n 0)
  length_malloc h := by
    rw [← Option.some.inj h, List.length_replicate]

/-- AES-128-GCM for the envelope of that text, under a key of the bytes from 0 to 15. -/
def sampleEnvelopeGcm : Aead FailCode pv23TagLen :=
  Aead.ofEntries ⟨oprtComError, oprtComError_ne_ok⟩
    [{ key := (List.range 16).map UInt8.ofNat
       nonce := asciiBytes (List.replicate 12 '0')
       ad := pv23AdditionalData 1
       data := protocolText 4 1 sampleText.src
       ct := [0x5a, 0x36, 0xc5, 0x99, 0x6c, 0x28, 0xbd, 0x1f, 0xd0, 0x1f, 0xd6, 0xab, 0x05,
          0xea, 0x96, 0x42, 0x6c, 0x99, 0x62, 0x96, 0xc3, 0x4b, 0x84, 0x72, 0xc2, 0x37,
          0x82, 0x67, 0xfb, 0x52]
       tag := [0x19, 0xf9, 0x4b, 0xa6, 0x9b, 0x62, 0x43, 0x43, 0x09, 0x15, 0xa6, 0x20, 0xcd,
          0xcd, 0x5b, 0xe0] }]
    (by decide +kernel) (by decide +kernel)

theorem envelope_roundTrip_sampleText :
    (∃ out, tuyaPackProtocolData sampleEnvelopeGcm sampleHeap dpCmdMq sampleText.src 4 1 1
        ((List.range 16).map UInt8.ofNat) (asciiBytes (List.replicate 12 '0')) =
          .ok (oprtOk, some out) ∧
      tuyaParseProtocolData sampleEnvelopeGcm sampleHeap dpCmdMq out
        ((List.range 16).map UInt8.ofNat) =
          .ok (oprtOk, some (protocolText 4 1 sampleText.src ++ [0]))) ∧
      cString (protocolText 4 1 sampleText.src ++ [0]) = protocolText 4 1 sampleText.src ∧
      (protocolText 4 1 sampleText.src).length < sampleText.src.length + 60 ∧
      ∀ heap' : Allocator, ∃ r, tuyaPackProtocolData sampleEnvelopeGcm heap' dpCmdMq
        sampleText.src 4 1 1 ((List.range 16).map UInt8.ofNat)
        (asciiBytes (List.replicate 12 '0')) = .ok r := by
  refine envelope_roundTrip sampleText (Or.inr rfl) 4 1 1 (by decide) ?_ ?_
  · intro n _
    exact Option.some_ne_none _
  · intro _
    exact ⟨_, by simp only [sampleEnvelopeGcm, Aead.ofEntries, List.find?, decide_true]; rfl⟩

end TuyaOpen.Protocol
