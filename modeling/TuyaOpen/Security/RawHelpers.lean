import TuyaOpen.Security.Symmetry

/-!
# The raw helpers of the AES modes

The functions `tal_aes*_raw` of `tal_symmetry.c`. Each one creates a context, sets the key, makes
one cipher call and, where there is a context, frees it. The calls on a context go to a platform,
whose state and answers are arbitrary. The counter mode is a loop of `tal_symmetry.c` itself over
calls for one block.

The label at the end of every helper assigns the status of `tal_aes_free` to the variable that
holds the status so far. Where there is a context that can be freed, a helper therefore returns
`OPRT_OK` whatever went wrong before.

## Main results

* `rawHelper_ok_iff`: when a helper returns `OPRT_OK`.
* `reportsOnlySuccess_iff`: when `OPRT_OK` means that every call has succeeded.
* `talAes128CbcEncodeRaw_mbedtls`, `talAes128CbcDecodeRaw_mbedtls`: the helpers with the calls of
  `mbedtls_symmetry.c`, in place.
-/

namespace TuyaOpen.Security.Raw

/-! ### The calls on a context -/

/-- `TAL_SYMMETRY_CRYPT_MODE`. -/
inductive CryptMode
  | decrypt
  | encrypt
  deriving DecidableEq

/-- What `tal_aes_create_init` leaves: its status, the handle, which may be NULL, and the state of
the platform. -/
structure Created (S H : Type) where
  ret : OperateRet
  ctx : Option H
  state : S

/-- The status of a call that fills buffers, the buffers, and the state of the platform. -/
structure Reply (S α : Type) where
  ret : OperateRet
  out : α
  state : S

/-- The functions `tkl_aes_*` on a platform with states `S` and handles `H`. A text that a cipher
call reads is given as its `length` bytes, and `out` is the buffer that the call may write. -/
structure AesPlatform (S H : Type) where
  createInit : S → Created S H
  setkeyEnc : (ctx : Option H) → (key : Bytes) → (keybits : Nat) → S → Reply S Unit
  setkeyDec : (ctx : Option H) → (key : Bytes) → (keybits : Nat) → S → Reply S Unit
  cryptEcb : (ctx : Option H) → CryptMode → (input out : Bytes) → S → Reply S Bytes
  /-- The initialization vector is updated. -/
  cryptCbc : (ctx : Option H) → CryptMode → (iv input out : Bytes) → S → Reply S (Bytes × Bytes)
  free : H → S → Reply S Unit

variable {S H α : Type} (p : AesPlatform S H)

/-! ### The counter mode -/

/-- The buffers of the counter mode: the offset in the stream block, the two blocks, and the output
so far. -/
structure CtrBuffers where
  ncOff : Nat
  nonceCounter : Bytes
  streamBlock : Bytes
  output : Bytes
  deriving DecidableEq

def increment : Bytes → Bytes
  | [] => []
  | b :: bs => if b + 1 ≠ 0 then (b + 1) :: bs else 0 :: increment bs

/-- Adds one to `nonce_counter`, whose least significant byte stands last. -/
def nextNonce (nonceCounter : Bytes) : Bytes := (increment nonceCounter.reverse).reverse

/-- The byte `c` of the input with byte `n` of the stream block. -/
def CtrBuffers.put (b : CtrBuffers) (n : Nat) (c : UInt8) : CtrBuffers :=
  { b with output := b.output ++ [c ^^^ b.streamBlock.getD n 0] }

/-- The loop of `tal_aes_crypt_ctr` over the input, with the offset `n`. -/
def ctrLoop (ctx : Option H) : (input : Bytes) → (n : Nat) → CtrBuffers → S → Reply S CtrBuffers
  | [], n, b, s => ⟨oprtOk, { b with ncOff := n }, s⟩
  | c :: input, n, b, s =>
    if n = 0 then
      let r := p.cryptEcb ctx .encrypt b.nonceCounter b.streamBlock s
      if r.ret ≠ oprtOk then ⟨r.ret, { b with streamBlock := r.out }, r.state⟩
      else
        let b := { b with streamBlock := r.out, nonceCounter := nextNonce b.nonceCounter }
        ctrLoop ctx input 1 (b.put 0 c) r.state
    else ctrLoop ctx input ((n + 1) % 16) (b.put n c) s

/-- The pointers of `tal_aes_crypt_ctr` to its buffers: `none` where one of them is NULL. -/
abbrev CtrArg := Option CtrBuffers

/-- `tal_aes_crypt_ctr`. -/
def talAesCryptCtr (ctx : Option H) (input : Bytes) (b : CtrArg) (s : S) : Reply S CtrArg :=
  match b with
  | none => ⟨oprtInvalidParm, none, s⟩
  | some b =>
    if 0x0F < b.ncOff then ⟨oprtInvalidParm, some b, s⟩
    else
      let r := ctrLoop p ctx input b.ncOff b s
      ⟨r.ret, some r.out, r.state⟩

/-! ### The helpers -/

abbrev Setkey (S H : Type) := Option H → S → Reply S Unit

abbrev CipherCall (S H α : Type) := Option H → S → Reply S α

section Helper

variable (keyCall : Setkey S H) (cryptCall : CipherCall S H α) (out : α)

/-- What a helper has done when it comes to its label `exit`. -/
def untilExit (s : S) : Reply S α :=
  let created := p.createInit s
  if created.ret ≠ oprtOk then ⟨created.ret, out, created.state⟩
  else
    let keyed := keyCall created.ctx created.state
    if keyed.ret ≠ oprtOk then ⟨keyed.ret, out, keyed.state⟩
    else cryptCall created.ctx keyed.state

/-- The body that the helpers share: a context, the key, the cipher call, and the cleanup, whose
status takes the place of the one before. -/
def rawHelper (s : S) : Reply S α :=
  let r := untilExit p keyCall cryptCall out s
  match (p.createInit s).ctx with
  | none => r
  | some ctx =>
    let freed := p.free ctx r.state
    ⟨freed.ret, r.out, freed.state⟩

end Helper

section Members

variable (data key iv : Bytes)

/-- `tal_aes128_ecb_encode_raw`. -/
def talAes128EcbEncodeRaw (ecData : Bytes) : S → Reply S Bytes :=
  rawHelper p (p.setkeyEnc · key 128) (p.cryptEcb · .encrypt data ecData) ecData

/-- `tal_aes128_ecb_decode_raw`. -/
def talAes128EcbDecodeRaw (decData : Bytes) : S → Reply S Bytes :=
  rawHelper p (p.setkeyDec · key 128) (p.cryptEcb · .decrypt data decData) decData

/-- `tal_aes128_cbc_encode_raw`. -/
def talAes128CbcEncodeRaw (ecData : Bytes) : S → Reply S (Bytes × Bytes) :=
  rawHelper p (p.setkeyEnc · key 128) (p.cryptCbc · .encrypt iv data ecData) (iv, ecData)

/-- `tal_aes128_cbc_decode_raw`. -/
def talAes128CbcDecodeRaw (decData : Bytes) : S → Reply S (Bytes × Bytes) :=
  rawHelper p (p.setkeyDec · key 128) (p.cryptCbc · .decrypt iv data decData) (iv, decData)

/-- `tal_aes256_cbc_encode_raw`. -/
def talAes256CbcEncodeRaw (ecData : Bytes) : S → Reply S (Bytes × Bytes) :=
  rawHelper p (p.setkeyEnc · key 256) (p.cryptCbc · .encrypt iv data ecData) (iv, ecData)

/-- `tal_aes256_cbc_decode_raw`. -/
def talAes256CbcDecodeRaw (decData : Bytes) : S → Reply S (Bytes × Bytes) :=
  rawHelper p (p.setkeyDec · key 256) (p.cryptCbc · .decrypt iv data decData) (iv, decData)

/-- `tal_aes256_ctr_raw`. -/
def talAes256CtrRaw (b : CtrArg) : S → Reply S CtrArg :=
  rawHelper p (p.setkeyEnc · key 256) (talAesCryptCtr p · data b) b

end Members

/-! ### What a helper returns -/

section Status

variable {p} {keyCall : Setkey S H} {cryptCall : CipherCall S H α} {out : α} {s : S}

theorem rawHelper_of_none (h : (p.createInit s).ctx = none) :
    rawHelper p keyCall cryptCall out s = untilExit p keyCall cryptCall out s := by
  rw [rawHelper, h]

theorem ret_rawHelper_of_some {ctx : H} (h : (p.createInit s).ctx = some ctx) :
    (rawHelper p keyCall cryptCall out s).ret =
      (p.free ctx (untilExit p keyCall cryptCall out s).state).ret := by
  rw [rawHelper, h]

theorem ret_untilExit_eq_ok_iff :
    (untilExit p keyCall cryptCall out s).ret = oprtOk ↔
      (p.createInit s).ret = oprtOk ∧
        (keyCall (p.createInit s).ctx (p.createInit s).state).ret = oprtOk ∧
        (cryptCall (p.createInit s).ctx
          (keyCall (p.createInit s).ctx (p.createInit s).state).state).ret = oprtOk := by
  by_cases hcreate : (p.createInit s).ret = oprtOk
  · by_cases hkey : (keyCall (p.createInit s).ctx (p.createInit s).state).ret = oprtOk
    · simp [untilExit, hcreate, hkey]
    · simp [untilExit, hcreate, hkey]
  · simp [untilExit, hcreate]

theorem rawHelper_ok_iff :
    (rawHelper p keyCall cryptCall out s).ret = oprtOk ↔
      ((p.createInit s).ctx = none ∧ (untilExit p keyCall cryptCall out s).ret = oprtOk) ∨
        ∃ ctx, (p.createInit s).ctx = some ctx ∧
          (p.free ctx (untilExit p keyCall cryptCall out s).state).ret = oprtOk := by
  cases h : (p.createInit s).ctx with
  | none => simp [rawHelper_of_none h]
  | some ctx => simp [ret_rawHelper_of_some h]

end Status

/-! ### Calls of the helpers -/

/-- A call of one of the helpers, with its arguments. -/
inductive RawCall
  | aes128EcbEncode (data key ecData : Bytes)
  | aes128EcbDecode (data key decData : Bytes)
  | aes128CbcEncode (data key iv ecData : Bytes)
  | aes128CbcDecode (data key iv decData : Bytes)
  | aes256CbcEncode (data key iv ecData : Bytes)
  | aes256CbcDecode (data key iv decData : Bytes)
  | aes256Ctr (input key : Bytes) (b : CtrArg)

def Reply.void (r : Reply S α) : Reply S Unit := ⟨r.ret, (), r.state⟩

namespace RawCall

def run (s : S) : RawCall → OperateRet
  | aes128EcbEncode data key ecData => (talAes128EcbEncodeRaw p data key ecData s).ret
  | aes128EcbDecode data key decData => (talAes128EcbDecodeRaw p data key decData s).ret
  | aes128CbcEncode data key iv ecData => (talAes128CbcEncodeRaw p data key iv ecData s).ret
  | aes128CbcDecode data key iv decData => (talAes128CbcDecodeRaw p data key iv decData s).ret
  | aes256CbcEncode data key iv ecData => (talAes256CbcEncodeRaw p data key iv ecData s).ret
  | aes256CbcDecode data key iv decData => (talAes256CbcDecodeRaw p data key iv decData s).ret
  | aes256Ctr input key b => (talAes256CtrRaw p input key b s).ret

def setkey : RawCall → Setkey S H
  | aes128EcbEncode _ key _ => (p.setkeyEnc · key 128)
  | aes128EcbDecode _ key _ => (p.setkeyDec · key 128)
  | aes128CbcEncode _ key _ _ => (p.setkeyEnc · key 128)
  | aes128CbcDecode _ key _ _ => (p.setkeyDec · key 128)
  | aes256CbcEncode _ key _ _ => (p.setkeyEnc · key 256)
  | aes256CbcDecode _ key _ _ => (p.setkeyDec · key 256)
  | aes256Ctr _ key _ => (p.setkeyEnc · key 256)

def cipher (ctx : Option H) (s : S) : RawCall → Reply S Unit
  | aes128EcbEncode data _ ecData => (p.cryptEcb ctx .encrypt data ecData s).void
  | aes128EcbDecode data _ decData => (p.cryptEcb ctx .decrypt data decData s).void
  | aes128CbcEncode data _ iv ecData => (p.cryptCbc ctx .encrypt iv data ecData s).void
  | aes128CbcDecode data _ iv decData => (p.cryptCbc ctx .decrypt iv data decData s).void
  | aes256CbcEncode data _ iv ecData => (p.cryptCbc ctx .encrypt iv data ecData s).void
  | aes256CbcDecode data _ iv decData => (p.cryptCbc ctx .decrypt iv data decData s).void
  | aes256Ctr input _ b => (talAesCryptCtr p ctx input b s).void

variable (call : RawCall) (s : S)

/-- The context, the key setup and the cipher call of the helper have all succeeded. -/
structure AllSucceed : Prop where
  createInit : (p.createInit s).ret = oprtOk
  setkey : (call.setkey p (p.createInit s).ctx (p.createInit s).state).ret = oprtOk
  cipher : (call.cipher p (p.createInit s).ctx
    (call.setkey p (p.createInit s).ctx (p.createInit s).state).state).ret = oprtOk

/-- The helper returns `OPRT_OK` only if all its calls have succeeded. -/
def ReportsOnlySuccess : Prop := call.run p s = oprtOk → call.AllSucceed p s

abbrev atExit : Reply S Unit :=
  untilExit p (call.setkey p) (fun ctx s => call.cipher p ctx s) () s

/-- `tal_aes_free` reports a failure when the helper calls it. -/
def FreeFails : Prop :=
  ∃ ctx, (p.createInit s).ctx = some ctx ∧ (p.free ctx (call.atExit p s).state).ret ≠ oprtOk

end RawCall

theorem ret_rawHelper_void (keyCall : Setkey S H) (cryptCall : CipherCall S H α) (out : α) (s : S) :
    (rawHelper p keyCall (fun ctx s => (cryptCall ctx s).void) () s).ret =
      (rawHelper p keyCall cryptCall out s).ret := by
  have hexit : untilExit p keyCall (fun ctx s => (cryptCall ctx s).void) () s =
      (untilExit p keyCall cryptCall out s).void := by
    simp only [untilExit]
    split_ifs <;> rfl
  simp only [rawHelper, hexit]
  cases (p.createInit s).ctx <;> rfl

theorem RawCall.run_eq (call : RawCall) (s : S) :
    call.run p s =
      (rawHelper p (call.setkey p) (fun ctx s => call.cipher p ctx s) () s).ret := by
  cases call <;> exact (ret_rawHelper_void p _ _ _ s).symm

/-- **A success is reported.** `OPRT_OK` means that the context, the key setup and the cipher call
have succeeded exactly when they do succeed, or there is no context that the helper frees, or the
cleanup itself fails. -/
theorem reportsOnlySuccess_iff (call : RawCall) (s : S) :
    call.ReportsOnlySuccess p s ↔
      call.AllSucceed p s ∨ (p.createInit s).ctx = none ∨ call.FreeFails p s := by
  have hall : (call.atExit p s).ret = oprtOk ↔ call.AllSucceed p s :=
    ret_untilExit_eq_ok_iff.trans ⟨fun h => ⟨h.1, h.2.1, h.2.2⟩, fun h => ⟨h.1, h.2, h.3⟩⟩
  rw [RawCall.ReportsOnlySuccess, RawCall.run_eq, rawHelper_ok_iff, RawCall.FreeFails]
  cases hctx : (p.createInit s).ctx with
  | none => simpa using hall.mp
  | some ctx =>
    simp only [reduceCtorEq, false_and, false_or, Option.some.injEq, exists_eq_left']
    rw [imp_iff_not_or, or_comm]

/-! ### The calls of mbed TLS -/

def ecbBlocks (f : Bytes → Bytes) : Nat → Bytes → Bytes
  | 0, _ => []
  | k + 1, data => f (data.take 16) ++ ecbBlocks f k (data.drop 16)

/-- The functions of `mbedtls_symmetry.c` on a block cipher. The state is the key of the context,
and the context has been allocated. -/
def mbedtls (c : BlockCipher 16) : AesPlatform Bytes Unit where
  createInit key := ⟨oprtOk, some (), key⟩
  setkeyEnc _ key keybits old :=
    if keybits = 128 ∨ keybits = 192 ∨ keybits = 256 then ⟨oprtOk, (), key⟩
    else ⟨oprtComError, (), old⟩
  setkeyDec _ key keybits old :=
    if keybits = 128 ∨ keybits = 192 ∨ keybits = 256 then ⟨oprtOk, (), key⟩
    else ⟨oprtComError, (), old⟩
  cryptEcb _ mode input out key :=
    if input.length % 16 ≠ 0 then ⟨oprtInvalidParm, out, key⟩
    else
      let f := match mode with
        | .encrypt => c.enc key
        | .decrypt => c.dec key
      ⟨oprtOk, ecbBlocks f (input.length / 16) input ++ out.drop input.length, key⟩
  cryptCbc _ mode iv input out key :=
    if input.length % 16 ≠ 0 then ⟨oprtComError, (iv, out), key⟩
    else
      let r := match mode with
        | .encrypt => cbcEncrypt c key (input.length / 16) iv input
        | .decrypt => cbcDecrypt c key (input.length / 16) iv input
      ⟨oprtOk, (r.2, r.1 ++ out.drop input.length), key⟩
  free _ key := ⟨oprtOk, (), key⟩

section Mbedtls

variable (c : BlockCipher 16)

theorem RawCall.run_mbedtls (call : RawCall) (s : Bytes) : call.run (mbedtls c) s = oprtOk := by
  rw [RawCall.run_eq]
  exact ret_rawHelper_of_some rfl

/-- The encoding of five bytes fails, and the helper reports a success. -/
theorem not_reportsOnlySuccess :
    ¬ RawCall.ReportsOnlySuccess (mbedtls (.trivial 16))
      (.aes128EcbEncode [1, 2, 3, 4, 5] (List.replicate 16 0) (List.replicate 5 0)) [] := by
  intro h
  have hcipher := (h (RawCall.run_mbedtls _ _ _)).cipher
  exact absurd hcipher (by decide)

variable (data key iv s : Bytes)

theorem talAes128CbcEncodeRaw_mbedtls :
    Security.talAes128CbcEncodeRaw c key iv data oprtOk =
      .ok (talAes128CbcEncodeRaw (mbedtls c) data key iv data s).out.2 := by
  by_cases h : data.length % 16 = 0 <;>
    simp [Security.talAes128CbcEncodeRaw, talAes128CbcEncodeRaw, rawHelper, untilExit, mbedtls, h]

theorem talAes128CbcDecodeRaw_mbedtls :
    Security.talAes128CbcDecodeRaw c key iv data oprtOk =
      .ok (talAes128CbcDecodeRaw (mbedtls c) data key iv data s).out.2 := by
  by_cases h : data.length % 16 = 0 <;>
    simp [Security.talAes128CbcDecodeRaw, talAes128CbcDecodeRaw, rawHelper, untilExit, mbedtls, h]

end Mbedtls

end TuyaOpen.Security.Raw
