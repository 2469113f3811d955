import TuyaOpen.Basic.Bytes

/-!
# Ciphers and message authentication codes

Cryptographic primitives as structures that carry what a program relies on: the lengths of their
outputs, and that decryption under the same parameters undoes encryption. Nothing is said about
secrecy or unforgeability. A primitive that reports an error does so with a code of type `ε`.

CBC chaining is not a primitive: `cbcEncrypt` and `cbcDecrypt` are the usual loops over the
blocks of an arbitrary block cipher. Both also return the chaining value that a streaming
implementation leaves behind in the buffer of the initialization vector.

## Main results

* `cbcDecrypt_cbcEncrypt`: CBC decryption undoes CBC encryption and leaves the same chaining
  value.
-/

namespace TuyaOpen

/-- A block cipher on blocks of `n` bytes. -/
structure BlockCipher (n : Nat) where
  enc : Bytes → Bytes → Bytes
  dec : Bytes → Bytes → Bytes
  length_enc : ∀ key block, block.length = n → (enc key block).length = n
  length_dec : ∀ key block, block.length = n → (dec key block).length = n
  dec_enc : ∀ key block, block.length = n → dec key (enc key block) = block

/-- Authenticated encryption with a detached tag of `tagLen` bytes. -/
structure Aead (ε : Type) (tagLen : Nat) where
  encrypt : (key nonce ad data : Bytes) → Except ε (Bytes × Bytes)
  decrypt : (key nonce ad data tag : Bytes) → Except ε Bytes
  length_encrypt : ∀ {key nonce ad data ct tag}, encrypt key nonce ad data = .ok (ct, tag) →
    ct.length = data.length ∧ tag.length = tagLen
  length_decrypt : ∀ {key nonce ad data tag pt}, decrypt key nonce ad data tag = .ok pt →
    pt.length = data.length
  decrypt_encrypt : ∀ {key nonce ad data ct tag}, encrypt key nonce ad data = .ok (ct, tag) →
    decrypt key nonce ad ct tag = .ok data

/-- A stream cipher, its own inverse under the same key and nonce. -/
structure StreamCipher (ε : Type) where
  crypt : (key nonce data : Bytes) → Except ε Bytes
  length_crypt : ∀ {key nonce data out}, crypt key nonce data = .ok out →
    out.length = data.length
  crypt_crypt : ∀ {key nonce data out}, crypt key nonce data = .ok out →
    crypt key nonce out = .ok data

/-- A message authentication code of `len` bytes. -/
structure Mac (ε : Type) (len : Nat) where
  mac : (key data : Bytes) → Except ε Bytes
  length_mac : ∀ {key data out}, mac key data = .ok out → out.length = len

/-! ### Primitives known at some inputs

A primitive may be known by its values at some inputs only, as from test vectors. At every other
input it reports the error `e`. -/

section Entries

variable {ε : Type}

/-- A value of an authenticated encryption. -/
structure Aead.Entry where
  key : Bytes
  nonce : Bytes
  ad : Bytes
  data : Bytes
  ct : Bytes
  tag : Bytes

def Aead.Entry.findCt (vs : List Aead.Entry) (key nonce ad ct tag : Bytes) : Option Aead.Entry :=
  vs.find? fun v => (key, nonce, ad, ct, tag) = (v.key, v.nonce, v.ad, v.ct, v.tag)

def Aead.ofEntries {tagLen : Nat} (e : ε) (vs : List Aead.Entry)
    (hlen : ∀ v ∈ vs, v.ct.length = v.data.length ∧ v.tag.length = tagLen)
    (hdec : ∀ v ∈ vs, (Aead.Entry.findCt vs v.key v.nonce v.ad v.ct v.tag).map (·.data) =
      some v.data) : Aead ε tagLen where
  encrypt key nonce ad data :=
    match vs.find? fun v => (key, nonce, ad, data) = (v.key, v.nonce, v.ad, v.data) with
    | none => .error e
    | some v => .ok (v.ct, v.tag)
  decrypt key nonce ad ct tag :=
    match Aead.Entry.findCt vs key nonce ad ct tag with
    | none => .error e
    | some v => .ok v.data
  length_encrypt {key nonce ad data ct tag} h := by
    split at h
    · cases h
    · next v hv =>
      have heq := List.find?_some hv
      simp only [Prod.mk.injEq, decide_eq_true_eq] at heq
      obtain ⟨rfl, rfl⟩ := Prod.mk.inj (Except.ok.inj h)
      rw [heq.2.2.2]
      exact hlen v (List.mem_of_find?_eq_some hv)
  length_decrypt {key nonce ad ct tag pt} h := by
    split at h
    · cases h
    · next v hv =>
      have heq := List.find?_some hv
      simp only [Prod.mk.injEq, decide_eq_true_eq] at heq
      rw [← Except.ok.inj h, heq.2.2.2.1, (hlen v (List.mem_of_find?_eq_some hv)).1]
  decrypt_encrypt {key nonce ad data ct tag} h := by
    split at h
    · cases h
    · next v hv =>
      have heq := List.find?_some hv
      simp only [Prod.mk.injEq, decide_eq_true_eq] at heq
      obtain ⟨rfl, rfl, rfl, rfl⟩ := heq
      obtain ⟨rfl, rfl⟩ := Prod.mk.inj (Except.ok.inj h)
      obtain ⟨w, hw, hdata⟩ := Option.map_eq_some_iff.mp (hdec v (List.mem_of_find?_eq_some hv))
      rw [hw]
      exact congrArg _ hdata

/-- The message authentication code with the given values `(key, data, code)`. -/
def Mac.ofEntries {len : Nat} (e : ε) (vs : List (Bytes × Bytes × Bytes))
    (h : ∀ v ∈ vs, v.2.2.length = len) : Mac ε len where
  mac key data :=
    match vs.find? fun v => (key, data) = (v.1, v.2.1) with
    | none => .error e
    | some v => .ok v.2.2
  length_mac hmac := by
    split at hmac
    · cases hmac
    · next v hv =>
      obtain rfl := Except.ok.inj hmac
      exact h v (List.mem_of_find?_eq_some hv)

def StreamCipher.unknown (e : ε) : StreamCipher ε where
  crypt _ _ _ := .error e
  length_crypt h := by cases h
  crypt_crypt h := by cases h

def BlockCipher.trivial (n : Nat) : BlockCipher n where
  enc _ block := block
  dec _ block := block
  length_enc _ _ h := h
  length_dec _ _ h := h
  dec_enc _ _ _ := rfl

end Entries

/-! ### Exclusive or of byte strings -/

def xorBytes (a b : Bytes) : Bytes := List.zipWith (· ^^^ ·) a b

@[simp] theorem length_xorBytes (a b : Bytes) :
    (xorBytes a b).length = min a.length b.length := by
  simp [xorBytes]

theorem xorBytes_xorBytes : ∀ {a b : Bytes}, a.length ≤ b.length → xorBytes (xorBytes a b) b = a
  | [], _, _ => by simp [xorBytes]
  | x :: a, y :: b, h => by
    have ih := xorBytes_xorBytes (a := a) (b := b) (by simpa using h)
    simp only [xorBytes, List.zipWith_cons_cons] at ih ⊢
    rw [ih, UInt8.xor_assoc, UInt8.xor_self, UInt8.xor_zero]

/-! ### Cipher block chaining -/

section Cbc

variable {n : Nat} (c : BlockCipher n) (key : Bytes)

/-- CBC encryption of the first `k` blocks of `data`, and the chaining value after them. -/
def cbcEncrypt : Nat → Bytes → Bytes → Bytes × Bytes
  | 0, iv, _ => ([], iv)
  | k + 1, iv, data =>
    let x := c.enc key (xorBytes (data.take n) iv)
    let r := cbcEncrypt k x (data.drop n)
    (x ++ r.1, r.2)

/-- CBC decryption of the first `k` blocks of `data`, and the chaining value after them. -/
def cbcDecrypt : Nat → Bytes → Bytes → Bytes × Bytes
  | 0, iv, _ => ([], iv)
  | k + 1, iv, data =>
    let x := data.take n
    let r := cbcDecrypt k x (data.drop n)
    (xorBytes (c.dec key x) iv ++ r.1, r.2)

variable {c key}

private theorem length_xorBlock {iv data : Bytes} {k : Nat} (hiv : iv.length = n)
    (hd : data.length = (k + 1) * n) : (xorBytes (data.take n) iv).length = n := by
  have hle : n ≤ (k + 1) * n := Nat.le_mul_of_pos_left n k.succ_pos
  rw [length_xorBytes, List.length_take]
  omega

private theorem length_drop_block {data : Bytes} {k : Nat} (hd : data.length = (k + 1) * n) :
    (data.drop n).length = k * n := by
  rw [List.length_drop, hd, Nat.succ_mul]
  omega

theorem length_cbcEncrypt {k : Nat} {iv data : Bytes} (hiv : iv.length = n)
    (hd : data.length = k * n) :
    (cbcEncrypt c key k iv data).1.length = k * n ∧
      (cbcEncrypt c key k iv data).2.length = n := by
  induction k generalizing iv data with
  | zero => simp [cbcEncrypt, hiv]
  | succ k ih =>
    have hx := c.length_enc key _ (length_xorBlock hiv hd)
    obtain ⟨h1, h2⟩ := ih hx (length_drop_block hd)
    simp only [cbcEncrypt, List.length_append, h1, hx, h2, Nat.succ_mul, and_true]
    omega

theorem length_cbcDecrypt {k : Nat} {iv data : Bytes} (hiv : iv.length = n)
    (hd : data.length = k * n) : (cbcDecrypt c key k iv data).1.length = k * n := by
  induction k generalizing iv data with
  | zero => simp [cbcDecrypt]
  | succ k ih =>
    have htake : (data.take n).length = n := by
      rw [List.length_take, hd]
      exact Nat.min_eq_left (Nat.le_mul_of_pos_left n k.succ_pos)
    have h1 := ih htake (length_drop_block hd)
    simp only [cbcDecrypt, List.length_append, length_xorBytes, c.length_dec key _ htake, hiv, h1,
      Nat.min_self, Nat.succ_mul]
    omega

/-- **CBC round trip.** Decryption under the same key and initialization vector gives the data
back and ends with the same chaining value. -/
theorem cbcDecrypt_cbcEncrypt {k : Nat} {iv data : Bytes} (hiv : iv.length = n)
    (hd : data.length = k * n) :
    cbcDecrypt c key k iv (cbcEncrypt c key k iv data).1 =
      (data, (cbcEncrypt c key k iv data).2) := by
  induction k generalizing iv data with
  | zero =>
    have hnil : data = [] := List.eq_nil_of_length_eq_zero (by simpa using hd)
    simp [cbcEncrypt, cbcDecrypt, hnil]
  | succ k ih =>
    set x := c.enc key (xorBytes (data.take n) iv) with hxdef
    have hxor := length_xorBlock hiv hd
    have hx : x.length = n := c.length_enc key _ hxor
    have hfirst : xorBytes (c.dec key x) iv = data.take n := by
      rw [hxdef, c.dec_enc key _ hxor, xorBytes_xorBytes]
      rw [List.length_take]
      omega
    have htake (ys : Bytes) : (x ++ ys).take n = x := List.take_left' hx
    have hdrop (ys : Bytes) : (x ++ ys).drop n = ys := List.drop_left' hx
    simp only [cbcEncrypt, cbcDecrypt, ← hxdef, htake, hdrop]
    rw [ih hx (length_drop_block hd), hfirst, List.take_append_drop]

end Cbc

end TuyaOpen
