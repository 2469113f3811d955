import TuyaOpen.Basic.Cipher
import TuyaOpen.Common.OperateRet

/-!
# Encryption of BLE frames

`ble_cryption.c`: the key of a frame is an MD5 of secrets of the device that the mode byte of the
frame selects, and the frame is encrypted with AES-128 in CBC mode. Two values are kept from frame
to frame: `service_rand`, which the decryption of modes 11 and 16 sets to the initialization
vector of the frame, and the last key of mode 11.
-/

namespace TuyaOpen.Ble

/-! ### Modes -/

/-- `ENCRYPTION_MODE_NONE`. -/
def encryptionModeNone : UInt8 := 0

/-- `ENCRYPTION_MODE_KEY_11`. -/
def encryptionModeKey11 : UInt8 := 11

/-- `ENCRYPTION_MODE_KEY_12`. -/
def encryptionModeKey12 : UInt8 := 12

/-- `ENCRYPTION_MODE_KEY_14`. -/
def encryptionModeKey14 : UInt8 := 14

/-- `ENCRYPTION_MODE_SESSION_KEY15`. -/
def encryptionModeSessionKey15 : UInt8 := 15

/-- `ENCRYPTION_MODE_KEY_16`. -/
def encryptionModeKey16 : UInt8 := 16

/-- `ENCRYPTION_MODE_MAX`. -/
def encryptionModeMax : UInt8 := 17

/-! ### Environment and state -/

/-- What the BLE service calls outside itself: AES-128, MD5, whether an allocation of a given size
succeeds, and the result of `tal_ble_server_common_send`. -/
structure BleEnv where
  aes128 : BlockCipher 16
  md5 : Bytes → Bytes
  length_md5 : ∀ data, (md5 data).length = 16
  malloc : Nat → Bool
  commonSend : Bytes → OperateRet

/-- `ble_crypto_param_t`, as far as it is used. Each field is the part of its buffer that goes into
a key: `AUTH_KEY_LEN`, `LOGIN_KEY_LEN_16`, `SECRET_KEY_LEN`, 16 and `PAIR_RANDOM_LEN` bytes. -/
structure BleCryptoParam where
  authKey : Bytes
  loginKey : Bytes
  secKey : Bytes
  uuid : Bytes
  pairRand : Bytes
  length_authKey : authKey.length = 32
  length_loginKey : loginKey.length = 16
  length_secKey : secKey.length = 16
  length_uuid : uuid.length = 16
  length_pairRand : pairRand.length = 6
  deriving DecidableEq

theorem length_zeroPairRand : (List.replicate 6 (0 : UInt8)).length = 6 := rfl

/-- The static values `service_rand` and `key_out_key11`. -/
structure BleCryptState where
  serviceRand : Bytes
  keyOutKey11 : Bytes
  length_serviceRand : serviceRand.length = 16
  length_keyOutKey11 : keyOutKey11.length = 16
  deriving DecidableEq

namespace BleCryptState

def zero : BleCryptState := ⟨List.replicate 16 0, List.replicate 16 0, rfl, rfl⟩

/-- A write of 16 bytes into `service_rand`. -/
def setServiceRand (st : BleCryptState) (b : Bytes) : BleCryptState :=
  if h : b.length = 16 then { st with serviceRand := b, length_serviceRand := h } else st

/-- A write of 16 bytes into `key_out_key11`. -/
def setKeyOutKey11 (st : BleCryptState) (b : Bytes) : BleCryptState :=
  if h : b.length = 16 then { st with keyOutKey11 := b, length_keyOutKey11 := h } else st

end BleCryptState

/-! ### Keys -/

/-- The first `len` bytes of `key_in_buffer` behind the `switch` of `ble_key_generate`. -/
def keyIn (env : BleEnv) (st : BleCryptState) (p : BleCryptoParam) (mode : UInt8) : Bytes :=
  if mode = encryptionModeKey11 then p.authKey ++ p.uuid ++ st.serviceRand
  else if mode = encryptionModeKey12 then st.keyOutKey11 ++ p.pairRand
  else if mode = encryptionModeKey14 then p.loginKey ++ p.secKey
  else if mode = encryptionModeSessionKey15 then p.loginKey ++ p.secKey ++ p.pairRand
  else if mode = encryptionModeKey16 then p.authKey ++ env.md5 p.uuid ++ st.serviceRand
  else []

/-- `ble_key_generate`, for a mode other than `ENCRYPTION_MODE_NONE`: the key and the new static
values. -/
def bleKeyGenerate (env : BleEnv) (st : BleCryptState) (p : BleCryptoParam) (mode : UInt8) :
    Option (Bytes × BleCryptState) :=
  if encryptionModeMax ≤ mode ∨ keyIn env st p mode = [] then none
  else
    let key := env.md5 (keyIn env st p mode)
    some (key, if mode = encryptionModeKey11 then st.setKeyOutKey11 key else st)

/-! ### Encryption and decryption -/

/-- `ble_add_pkcs`: nothing is added to whole blocks. -/
def bleAddPkcs (data : Bytes) : Bytes :=
  if data.length % 16 = 0 then data
  else data ++ List.replicate (16 - data.length % 16) (UInt8.ofNat (16 - data.length % 16))

/-- `tuya_ble_encryption`: the error, or the output and the new static values. -/
def tuyaBleEncryption (env : BleEnv) (st : BleCryptState) (p : BleCryptoParam) (mode : UInt8)
    (iv data : Bytes) : Except Nat (Bytes × BleCryptState) :=
  if encryptionModeMax ≤ mode then .error 2
  else if mode = encryptionModeNone then .ok (data, st)
  else
    match bleKeyGenerate env st p mode with
    | none => .error 4
    | some (key, st) =>
      let padded := bleAddPkcs data
      .ok ((cbcEncrypt env.aes128 key (padded.length / 16) iv padded).1, st)

/-- `service_rand` after the first byte and the vector of a frame have been read. -/
def storeServiceRand (st : BleCryptState) (raw : Bytes) : BleCryptState :=
  if raw.getD 0 0 = encryptionModeKey11 ∨ raw.getD 0 0 = encryptionModeKey16 then
    st.setServiceRand (slice raw 1 16)
  else st

/-- The bytes that `tal_aes128_cbc_decode_raw` writes: it reports success for every length, and
writes nothing when the length is not a multiple of the block. -/
def aes128CbcDecodeRaw (env : BleEnv) (key iv data : Bytes) : Bytes :=
  if data.length % 16 = 0 then (cbcDecrypt env.aes128 key (data.length / 16) iv data).1 else []

/-- `tuya_ble_decryption` of the frame `raw`: the error, or the bytes written to the start of
`out_buf`, `out_len` and the new static values. -/
def tuyaBleDecryption (env : BleEnv) (st : BleCryptState) (p : BleCryptoParam) (raw : Bytes) :
    Except Nat (Bytes × Nat × BleCryptState) :=
  if raw.length < 17 then .error 1
  else if encryptionModeMax ≤ raw.getD 0 0 then .error 2
  else if raw.getD 0 0 = encryptionModeNone then .ok (raw.drop 1, raw.length - 1, st)
  else
    match bleKeyGenerate env (storeServiceRand st raw) p (raw.getD 0 0) with
    | none => .error 4
    | some (key, st) =>
      .ok (aes128CbcDecodeRaw env key (slice raw 1 16) (raw.drop 17), raw.length - 17, st)

/-! ### Decryption undoes encryption -/

section RoundTrip

variable {env : BleEnv} {st st' : BleCryptState} {p : BleCryptoParam} {mode : UInt8}
  {iv data out : Bytes}

theorem length_bleAddPkcs (data : Bytes) :
    (bleAddPkcs data).length = (data.length + 15) / 16 * 16 := by
  unfold bleAddPkcs
  split_ifs with h
  · omega
  · rw [List.length_append, List.length_replicate]
    omega

theorem exists_bleKeyGenerate (hmax : ¬encryptionModeMax ≤ mode) (hkey : keyIn env st p mode ≠ []) :
    ∃ st', bleKeyGenerate env st p mode = some (env.md5 (keyIn env st p mode), st') := by
  rw [bleKeyGenerate, if_neg (not_or.mpr ⟨hmax, hkey⟩)]
  exact ⟨_, rfl⟩

end RoundTrip

end TuyaOpen.Ble
