import TuyaOpen.Basic.Cipher
import TuyaOpen.Common.OperateRet
import Mathlib.Data.List.GetD

/-!
# AES-128 in CBC mode with padding

`tal_aes128_cbc_encode`, `tal_aes128_cbc_decode` and `tal_aes_get_actual_length` of
`tal_symmetry.c`. The cipher is an arbitrary block cipher. What happens in a call is a parameter:
whether memory is allocated, and what `tal_aes_create_init` returns. The other calls on a context
succeed, but for the encryption of a text that is not made of whole blocks: it leaves the text as it
is, and `tal_aes_free` takes the place of its error.
-/

namespace TuyaOpen.Security

/-- What happens in a call that encrypts or decrypts. -/
structure CryptCall where
  malloc : Bool
  /-- What `tal_aes_create_init` returns. -/
  create : OperateRet

def CryptCall.fine : CryptCall := ⟨true, oprtOk⟩

/-- The bytes that `__Add_Pkcs` writes behind `len` bytes. -/
def addPkcs (len : Nat) : Bytes := List.replicate (16 - len % 16) (UInt8.ofNat (16 - len % 16))

/-- `tal_aes128_cbc_encode_raw`. -/
def talAes128CbcEncodeRaw (c : BlockCipher 16) (key iv data : Bytes) (create : OperateRet) :
    Except OperateRet Bytes :=
  if create ≠ oprtOk then .error create
  else if data.length % 16 = 0 then .ok (cbcEncrypt c key (data.length / 16) iv data).1
  else .ok data

/-- `tal_aes128_cbc_decode_raw`. -/
def talAes128CbcDecodeRaw (c : BlockCipher 16) (key iv data : Bytes) (create : OperateRet) :
    Except OperateRet Bytes :=
  if create ≠ oprtOk then .error create
  else if data.length % 16 = 0 then .ok (cbcDecrypt c key (data.length / 16) iv data).1
  else .ok data

/-- `tal_aes128_cbc_encode`: a fault, an error, or the data. -/
def talAes128CbcEncode (c : BlockCipher 16) (key iv data : Bytes) (call : CryptCall) :
    Option (Except OperateRet Bytes) :=
  let len := u32 data.length
  if len = 0 then some (.error oprtInvalidParm)
  else if call.malloc = false then some (.error oprtMallocFailed)
  else
    -- the size of the buffer may wrap around
    match memcpys (List.replicate (u32 (len + 16)) 0)
        [(0, data.take len), (len, addPkcs len)] with
    | none => none
    | some buf =>
      some (talAes128CbcEncodeRaw c key iv (buf.take (u32 (len + (16 - len % 16)))) call.create)

/-- `tal_aes128_cbc_decode`: a fault, an error, or the data. -/
def talAes128CbcDecode (c : BlockCipher 16) (key iv data : Bytes) (call : CryptCall) :
    Option (Except OperateRet Bytes) :=
  let len := u32 data.length
  if len = 0 then some (.error oprtInvalidParm)
  else if call.malloc = false then some (.error oprtMallocFailed)
  else
    match memcpys (List.replicate (u32 (len + 1)) 0) [(0, data.take len), (len, [0])] with
    | none => none
    | some buf => some (talAes128CbcDecodeRaw c key iv (buf.take len) call.create)

/-- `tal_aes_get_actual_length`: there may be no data. -/
def talAesGetActualLength (decData : Option Bytes) (decDataLen : Nat) : ℤ :=
  match decData with
  | none => oprtInvalidParm
  | some decData =>
    if decDataLen = 0 ∨ decDataLen % 16 ≠ 0 then oprtInvalidParm
    else
      let lastdataVal := (decData.getD (decDataLen - 1) 0).toNat
      if 16 < lastdataVal then -2
      else if decDataLen ≤ lastdataVal then -3
      else decDataLen - lastdataVal

/-! ### Encoding -/

theorem length_addPkcs (len : Nat) : (addPkcs len).length = 16 - len % 16 :=
  List.length_replicate

theorem length_append_addPkcs (data : Bytes) :
    (data ++ addPkcs data.length).length = (data.length / 16 + 1) * 16 := by
  rw [List.length_append, length_addPkcs]
  omega

theorem memcpys_replicate {n : Nat} {a b : Bytes} (h : a.length + b.length ≤ n) :
    memcpys (List.replicate n 0) [(0, a), (a.length, b)] =
      some (a ++ b ++ List.replicate (n - (a.length + b.length)) 0) := by
  have hmem : List.replicate n (0 : UInt8) =
      [] ++ (List.replicate (a.length + b.length) 0 ++
        List.replicate (n - (a.length + b.length)) 0) := by
    rw [List.nil_append, List.replicate_append_replicate, Nat.add_sub_cancel' h]
  have hws : Consecutive 0 [(0, a), (a.length, b)] := ⟨rfl, (Nat.zero_add _).symm, trivial⟩
  rw [memcpys_eq_of_append [] _ _ hmem rfl hws (by simp)]
  simp

section Encode

variable (c : BlockCipher 16) (key : Bytes) {iv data : Bytes} {call : CryptCall}

def encrypted (iv data : Bytes) : Bytes :=
  (cbcEncrypt c key (data.length / 16 + 1) iv (data ++ addPkcs data.length)).1

theorem length_encrypted (hiv : iv.length = 16) (data : Bytes) :
    (encrypted c key iv data).length = (data.length / 16 + 1) * 16 :=
  (length_cbcEncrypt hiv (length_append_addPkcs data)).1

theorem talAes128CbcEncodeRaw_padded (create : OperateRet) :
    talAes128CbcEncodeRaw c key iv (data ++ addPkcs data.length) create =
      if create ≠ oprtOk then .error create else .ok (encrypted c key iv data) := by
  rw [talAes128CbcEncodeRaw, length_append_addPkcs, if_pos (Nat.mul_mod_left _ _),
    Nat.mul_div_cancel _ (by decide)]
  rfl

theorem talAes128CbcEncode_eq (hdata : data ≠ []) (hlen : data.length < 4294967280) :
    talAes128CbcEncode c key iv data call =
      some (if call.malloc = false then .error oprtMallocFailed
        else if call.create ≠ oprtOk then .error call.create
        else .ok (encrypted c key iv data)) := by
  have hpos : data.length ≠ 0 := fun h => hdata (List.eq_nil_of_length_eq_zero h)
  have hpad : (addPkcs data.length).length = 16 - data.length % 16 := length_addPkcs _
  have hsum : u32 (data.length + (16 - data.length % 16)) =
      (data ++ addPkcs data.length).length := by
    rw [u32_of_lt (by omega), List.length_append, hpad]
  rw [talAes128CbcEncode, u32_of_lt (show data.length < 4294967296 by omega), if_neg hpos,
    u32_of_lt (show data.length + 16 < 4294967296 by omega), hsum, List.take_length,
    memcpys_replicate (by omega)]
  split_ifs with hmalloc
  · rfl
  all_goals
    dsimp only
    rw [List.take_left, talAes128CbcEncodeRaw_padded]
  · rw [if_pos ‹_›]
  · rw [if_neg ‹_›]

end Encode

/-! ### Decoding -/

section Decode

variable (c : BlockCipher 16) (key : Bytes) {iv data : Bytes} {call : CryptCall}

theorem talAes128CbcDecode_eq (hdata : data ≠ []) (hlen : data.length < 4294967295) :
    talAes128CbcDecode c key iv data call =
      some (if call.malloc = false then .error oprtMallocFailed
        else talAes128CbcDecodeRaw c key iv data call.create) := by
  have hpos : data.length ≠ 0 := fun h => hdata (List.eq_nil_of_length_eq_zero h)
  rw [talAes128CbcDecode, u32_of_lt (show data.length < 4294967296 by omega), if_neg hpos,
    u32_of_lt (show data.length + 1 < 4294967296 by omega), List.take_length,
    memcpys_replicate (show data.length + [(0 : UInt8)].length ≤ data.length + 1 from le_rfl)]
  split_ifs with hmalloc
  · rfl
  · dsimp only
    rw [List.append_assoc, List.take_left]

theorem talAes128CbcDecodeRaw_encrypted (hiv : iv.length = 16) :
    talAes128CbcDecodeRaw c key iv (encrypted c key iv data) oprtOk =
      .ok (data ++ addPkcs data.length) := by
  rw [talAes128CbcDecodeRaw, length_encrypted c key hiv, if_neg (fun h => h rfl),
    if_pos (Nat.mul_mod_left _ _), Nat.mul_div_cancel _ (by decide), encrypted,
    cbcDecrypt_cbcEncrypt hiv (length_append_addPkcs data)]

theorem getD_append_addPkcs (data : Bytes) :
    ((data ++ addPkcs data.length).getD ((data.length / 16 + 1) * 16 - 1) 0).toNat =
      16 - data.length % 16 := by
  have hlast : data.length ≤ (data.length / 16 + 1) * 16 - 1 := by omega
  have hlt : (data.length / 16 + 1) * 16 - 1 - data.length < 16 - data.length % 16 := by omega
  rw [List.getD_append_right _ _ _ _ hlast, addPkcs, List.getD_replicate _ hlt,
    UInt8.toNat_ofNat']
  omega

theorem talAesGetActualLength_padded (hdata : data ≠ []) :
    talAesGetActualLength (some (data ++ addPkcs data.length)) ((data.length / 16 + 1) * 16) =
      data.length := by
  have hpos : data.length ≠ 0 := fun h => hdata (List.eq_nil_of_length_eq_zero h)
  have hblocks : ¬((data.length / 16 + 1) * 16 = 0 ∨ (data.length / 16 + 1) * 16 % 16 ≠ 0) := by
    omega
  rw [talAesGetActualLength, if_neg hblocks, getD_append_addPkcs, if_neg (by omega),
    if_neg (by omega)]
  omega

end Decode

end TuyaOpen.Security
