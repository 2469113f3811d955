import TuyaOpen.Basic.Cipher
import TuyaOpen.Common.OperateRet

/-!
# Frames of the LAN protocol 3.5

`lpv35_frame_serialize` and `lpv35_frame_parse` of `tuya_protocol.c`. A frame is

  head + additional data + nonce + ciphertext + tag + tail,

where the additional data are version, reserved byte, sequence, type and the length of nonce,
ciphertext and tag. Everything between head and tail goes into the tag of AES-GCM.

## Main results

* `lpv35FrameParse_serialize`: a frame is parsed to what it was made of.
* `eq_of_lpv35FrameParse`: nothing else is accepted.
* `lpv35Frame_roundTrip`: both, with the size of the frame.
-/

namespace TuyaOpen.Protocol

/-- The places where a frame of the LAN protocol is read beyond its end. -/
inductive FrameFault
  | head
  | fields
  | nonce
  | tag
  | data
  deriving DecidableEq

/-! ### Constants -/

/-- `LPV35_FRAME_HEAD`. -/
def lpv35FrameHead : Bytes := [0x00, 0x00, 0x66, 0x99]

/-- `LPV35_FRAME_TAIL`. -/
def lpv35FrameTail : Bytes := [0x00, 0x00, 0x99, 0x66]

/-- `LPV35_FRAME_NONCE_SIZE`. -/
def lpv35FrameNonceSize : Nat := 12

/-- `LPV35_FRAME_TAG_SIZE`. -/
def lpv35FrameTagSize : Nat := 16

/-- `sizeof(lpv35_additional_data_t)`, which is packed. -/
def sizeofLpv35AdditionalData : Nat := 14

/-! ### Frames -/

/-- `lpv35_frame_object_t`. Its `data_len` is the length of `data`. -/
structure Lpv35Frame where
  sequence : UInt32
  type : UInt32
  data : Bytes
  deriving DecidableEq

/-- An object whose frame has a length in the range of `int`. -/
structure Lpv35FrameObject extends Lpv35Frame where
  length_data_lt : data.length + 50 < 2 ^ 31
  deriving DecidableEq

/-- `lpv35_frame_buffer_size_get`. -/
def lpv35FrameBufferSizeGet (f : Lpv35Frame) : Nat :=
  lpv35FrameHead.length + sizeofLpv35AdditionalData + lpv35FrameNonceSize + f.data.length +
    lpv35FrameTagSize + lpv35FrameTail.length

/-- The `lpv35_additional_data_t` of a frame. -/
def lpv35AdditionalData (f : Lpv35Frame) : Bytes :=
  [0, 0] ++ (beBytes 4 f.sequence.toNat ++ (beBytes 4 f.type.toNat ++
    beBytes 4 (lpv35FrameNonceSize + f.data.length + lpv35FrameTagSize)))

def lpv35FrameBytes (f : Lpv35Frame) (nonce ct tag : Bytes) : Bytes :=
  lpv35FrameHead ++ (lpv35AdditionalData f ++ (nonce ++ (ct ++ (tag ++ lpv35FrameTail))))

/-- `lpv35_frame_serialize`, when the random bytes are `nonce`: what it writes, or an error. -/
def lpv35FrameSerialize (gcm : Aead FailCode lpv35FrameTagSize) (key nonce : Bytes)
    (f : Lpv35Frame) : Except OperateRet Bytes :=
  if key = [] then .error oprtInvalidParm
  else
    match gcm.encrypt key nonce (lpv35AdditionalData f) f.data with
    | .error e => .error e.val
    | .ok (ct, tag) => .ok (lpv35FrameBytes f nonce ct tag)

/-- `lpv35_frame_parse` behind the checks of the length, with `data_len` bytes of ciphertext. -/
def lpv35FrameDecrypt (gcm : Aead FailCode lpv35FrameTagSize) (malloc : Nat → Bool)
    (key input nonce : Bytes) (dataLen : Nat) :
    Except FrameFault (OperateRet × Option Lpv35Frame) :=
  match readSpan input (u32 (30 + dataLen)) lpv35FrameTagSize with
  | none => .error .tag
  | some tag =>
    if malloc (u32 (dataLen + 1)) then
      match readSpan input 30 dataLen with
      | none => .error .data
      | some ct =>
        match gcm.decrypt key nonce (slice input 4 sizeofLpv35AdditionalData) ct tag with
        | .error e => .ok (e.val, none)
        | .ok data =>
          .ok (oprtOk, some
            { sequence := UInt32.ofNat (beNat (slice input 6 4))
              type := UInt32.ofNat (beNat (slice input 10 4))
              data := data })
    else .ok (oprtMallocFailed, none)

/-- `lpv35_frame_parse`: its return value, and the frame when it is `OPRT_OK`. -/
def lpv35FrameParse (gcm : Aead FailCode lpv35FrameTagSize) (malloc : Nat → Bool)
    (key input : Bytes) : Except FrameFault (OperateRet × Option Lpv35Frame) :=
  if key = [] ∨ input = [] then .ok (oprtInvalidParm, none)
  else if input.length < 4 then .error .head
  else if input.take 4 ≠ lpv35FrameHead ∨ slice input (input.length - 4) 4 ≠ lpv35FrameTail then
    .ok (oprtVersionFmtErr, none)
  else if input.length < 18 then .error .fields
  else if beNat (slice input 14 4) ≠ u32Sub input.length 22 then .ok (oprtComError, none)
  else
    match readSpan input 18 lpv35FrameNonceSize with
    | none => .error .nonce
    | some nonce =>
      lpv35FrameDecrypt gcm malloc key input nonce (u32Sub (beNat (slice input 14 4)) 28)

/-! ### The layout -/

section Layout

variable {f : Lpv35Frame} {nonce ct tag : Bytes}

@[simp] theorem length_lpv35AdditionalData (f : Lpv35Frame) :
    (lpv35AdditionalData f).length = sizeofLpv35AdditionalData := by
  simp [lpv35AdditionalData, sizeofLpv35AdditionalData]

theorem length_lpv35FrameBytes (hnonce : nonce.length = lpv35FrameNonceSize)
    (hct : ct.length = f.data.length) (htag : tag.length = lpv35FrameTagSize) :
    (lpv35FrameBytes f nonce ct tag).length = lpv35FrameBufferSizeGet f := by
  simp only [lpv35FrameBytes, List.length_append, length_lpv35AdditionalData, hnonce, hct, htag,
    lpv35FrameBufferSizeGet]
  omega

theorem lpv35FrameBufferSizeGet_eq (f : Lpv35Frame) :
    lpv35FrameBufferSizeGet f = 50 + f.data.length := by
  simp only [lpv35FrameBufferSizeGet, lpv35FrameHead, lpv35FrameTail, sizeofLpv35AdditionalData,
    lpv35FrameNonceSize, lpv35FrameTagSize, List.length_cons, List.length_nil]
  omega

theorem lpv35FrameBytes_eq (f : Lpv35Frame) (nonce ct tag : Bytes) :
    lpv35FrameBytes f nonce ct tag =
      lpv35FrameHead ++ ([0, 0] ++ (beBytes 4 f.sequence.toNat ++ (beBytes 4 f.type.toNat ++
        (beBytes 4 (lpv35FrameNonceSize + f.data.length + lpv35FrameTagSize) ++
          (nonce ++ (ct ++ (tag ++ lpv35FrameTail))))))) := by
  simp only [lpv35FrameBytes, lpv35AdditionalData, List.append_assoc]

theorem slice_sequence (f : Lpv35Frame) (nonce ct tag : Bytes) :
    slice (lpv35FrameBytes f nonce ct tag) 6 4 = beBytes 4 f.sequence.toNat :=
  slice_eq_of_append (lpv35FrameHead ++ [0, 0]) _
    (by rw [lpv35FrameBytes_eq, ← List.append_assoc lpv35FrameHead]) rfl rfl

theorem slice_type (f : Lpv35Frame) (nonce ct tag : Bytes) :
    slice (lpv35FrameBytes f nonce ct tag) 10 4 = beBytes 4 f.type.toNat :=
  slice_eq_of_append (lpv35FrameHead ++ [0, 0] ++ beBytes 4 f.sequence.toNat) _
    (by rw [lpv35FrameBytes_eq, ← List.append_assoc lpv35FrameHead, ← List.append_assoc]) rfl rfl

theorem slice_length (f : Lpv35Frame) (nonce ct tag : Bytes) :
    slice (lpv35FrameBytes f nonce ct tag) 14 4 =
      beBytes 4 (lpv35FrameNonceSize + f.data.length + lpv35FrameTagSize) :=
  slice_eq_of_append
    (lpv35FrameHead ++ [0, 0] ++ beBytes 4 f.sequence.toNat ++ beBytes 4 f.type.toNat)
    (nonce ++ (ct ++ (tag ++ lpv35FrameTail)))
    (by rw [lpv35FrameBytes_eq]; simp only [List.append_assoc]) rfl (length_beBytes _ _)

theorem slice_additionalData (f : Lpv35Frame) (nonce ct tag : Bytes) :
    slice (lpv35FrameBytes f nonce ct tag) 4 sizeofLpv35AdditionalData = lpv35AdditionalData f :=
  slice_eq_of_append lpv35FrameHead _ rfl rfl (length_lpv35AdditionalData f)

theorem slice_nonce (hnonce : nonce.length = lpv35FrameNonceSize) :
    slice (lpv35FrameBytes f nonce ct tag) 18 lpv35FrameNonceSize = nonce :=
  slice_eq_of_append (lpv35FrameHead ++ lpv35AdditionalData f) _
    (by rw [lpv35FrameBytes, List.append_assoc]) rfl hnonce

theorem slice_ciphertext (hnonce : nonce.length = lpv35FrameNonceSize)
    (hct : ct.length = f.data.length) :
    slice (lpv35FrameBytes f nonce ct tag) 30 f.data.length = ct := by
  refine slice_eq_of_append (lpv35FrameHead ++ (lpv35AdditionalData f ++ nonce))
    (tag ++ lpv35FrameTail) (by simp only [lpv35FrameBytes, List.append_assoc]) ?_ hct
  rw [List.length_append, List.length_append, hnonce]
  rfl

theorem slice_tag (hnonce : nonce.length = lpv35FrameNonceSize)
    (hct : ct.length = f.data.length) (htag : tag.length = lpv35FrameTagSize) :
    slice (lpv35FrameBytes f nonce ct tag) (30 + f.data.length) lpv35FrameTagSize = tag := by
  refine slice_eq_of_append (lpv35FrameHead ++ (lpv35AdditionalData f ++ (nonce ++ ct)))
    lpv35FrameTail (by simp only [lpv35FrameBytes, List.append_assoc]) ?_ htag
  simp only [List.length_append, length_lpv35AdditionalData, hnonce, hct, lpv35FrameHead,
    lpv35FrameNonceSize, sizeofLpv35AdditionalData, List.length_cons, List.length_nil]
  omega

theorem slice_tail (hnonce : nonce.length = lpv35FrameNonceSize)
    (hct : ct.length = f.data.length) (htag : tag.length = lpv35FrameTagSize) :
    slice (lpv35FrameBytes f nonce ct tag) (46 + f.data.length) 4 = lpv35FrameTail := by
  refine slice_eq_of_append (lpv35FrameHead ++ (lpv35AdditionalData f ++ (nonce ++ (ct ++ tag))))
    [] (by simp [lpv35FrameBytes]) ?_ rfl
  simp only [List.length_append, length_lpv35AdditionalData, hnonce, hct, htag, lpv35FrameHead,
    lpv35FrameNonceSize, lpv35FrameTagSize, sizeofLpv35AdditionalData, List.length_cons,
    List.length_nil]
  omega

theorem append_slices {input : Bytes} {n : Nat} (h : input.length = 50 + n) :
    input = input.take 4 ++ (slice input 4 14 ++ (slice input 18 12 ++ (slice input 30 n ++
      (slice input (30 + n) 16 ++ slice input (46 + n) 4)))) := by
  have hend : slice input (46 + n) 4 = input.drop (30 + n + 16) := by
    rw [slice, List.take_of_length_le (by rw [List.length_drop]; omega)]
    congr 1
    omega
  rw [hend, slice_append_drop, slice_append_drop, slice_append_drop input 18 12,
    slice_append_drop input 4 14, List.take_append_drop]

end Layout

/-! ### A frame is parsed to what it was made of -/

section Parse

variable {gcm : Aead FailCode lpv35FrameTagSize} {malloc : Nat → Bool} {key : Bytes}

theorem lpv35FrameDecrypt_eq {f : Lpv35Frame} {nonce ct tag : Bytes}
    (hdata : f.data.length + 50 < 2 ^ 31) (hnonce : nonce.length = lpv35FrameNonceSize)
    (hct : ct.length = f.data.length) (htag : tag.length = lpv35FrameTagSize)
    (hmalloc : malloc (f.data.length + 1) = true) :
    lpv35FrameDecrypt gcm malloc key (lpv35FrameBytes f nonce ct tag) nonce f.data.length =
      match gcm.decrypt key nonce (lpv35AdditionalData f) ct tag with
      | .error e => .ok (e.val, none)
      | .ok data => .ok (oprtOk, some { f with data := data }) := by
  have hlen := length_lpv35FrameBytes hnonce hct htag
  rw [lpv35FrameBufferSizeGet_eq] at hlen
  rw [lpv35FrameDecrypt, u32_of_lt (n := 30 + f.data.length) (by omega),
    readSpan_of_le (by rw [hlen, lpv35FrameTagSize]; omega), slice_tag hnonce hct htag,
    u32_of_lt (n := f.data.length + 1) (by omega)]
  simp only [hmalloc, if_true]
  rw [readSpan_of_le (by rw [hlen]; omega), slice_ciphertext hnonce hct, slice_additionalData,
    slice_sequence, slice_type, beNat_beBytes_of_lt (UInt32.toNat_lt _),
    beNat_beBytes_of_lt (UInt32.toNat_lt _)]
  simp only [UInt32.ofNat_toNat]

theorem lpv35FrameParse_eq {f : Lpv35Frame} {nonce ct tag : Bytes} (hkey : key ≠ [])
    (hdata : f.data.length + 50 < 2 ^ 31) (hnonce : nonce.length = lpv35FrameNonceSize)
    (hct : ct.length = f.data.length) (htag : tag.length = lpv35FrameTagSize) :
    lpv35FrameParse gcm malloc key (lpv35FrameBytes f nonce ct tag) =
      lpv35FrameDecrypt gcm malloc key (lpv35FrameBytes f nonce ct tag) nonce f.data.length := by
  have hlen := length_lpv35FrameBytes hnonce hct htag
  rw [lpv35FrameBufferSizeGet_eq] at hlen
  set input := lpv35FrameBytes f nonce ct tag with hinput
  have hnil : ¬(key = [] ∨ input = []) := by
    rintro (h | h)
    · exact hkey h
    · rw [h, List.length_nil] at hlen
      omega
  have hhead : input.take 4 = lpv35FrameHead := rfl
  have htail : slice input (input.length - 4) 4 = lpv35FrameTail := by
    rw [hlen, show 50 + f.data.length - 4 = 46 + f.data.length by omega]
    exact slice_tail hnonce hct htag
  have hlength : beNat (slice input 14 4) = 28 + f.data.length := by
    rw [hinput, slice_length, lpv35FrameNonceSize, lpv35FrameTagSize,
      beNat_beBytes_of_lt (by omega)]
    omega
  have hsub : u32Sub input.length 22 = 28 + f.data.length := by
    rw [hlen, u32Sub_of_le (by omega) (by omega)]
    omega
  have hdataLen : u32Sub (28 + f.data.length) 28 = f.data.length := by
    rw [u32Sub_of_le (by omega) (by omega)]
    omega
  rw [lpv35FrameParse, if_neg hnil, if_neg (by omega), if_neg (by simp [hhead, htail]),
    if_neg (by omega), if_neg (by rw [hlength, hsub]; exact fun h => h rfl),
    readSpan_of_le (by rw [hlen, lpv35FrameNonceSize]; omega), slice_nonce hnonce, hlength,
    hdataLen]

theorem lpv35FrameParse_serialize {f : Lpv35FrameObject} {nonce ct tag : Bytes} (hkey : key ≠ [])
    (hnonce : nonce.length = lpv35FrameNonceSize)
    (henc : gcm.encrypt key nonce (lpv35AdditionalData f.toLpv35Frame) f.data = .ok (ct, tag))
    (hmalloc : malloc (f.data.length + 1) = true) :
    lpv35FrameParse gcm malloc key (lpv35FrameBytes f.toLpv35Frame nonce ct tag) =
      .ok (oprtOk, some f.toLpv35Frame) := by
  obtain ⟨hct, htag⟩ := gcm.length_encrypt henc
  rw [lpv35FrameParse_eq hkey f.length_data_lt hnonce hct htag,
    lpv35FrameDecrypt_eq f.length_data_lt hnonce hct htag hmalloc, gcm.decrypt_encrypt henc]

/-! ### Nothing else is accepted -/

/-- Decryption under `key` succeeds for one message only, with its own nonce, additional data and
tag: the ideal of an authenticated encryption after a single use of the key. -/
def OnlyAuthentic (gcm : Aead FailCode lpv35FrameTagSize) (key nonce ad ct tag : Bytes) : Prop :=
  ∀ nonce' ad' ct' tag' data, gcm.decrypt key nonce' ad' ct' tag' = .ok data →
    nonce' = nonce ∧ ad' = ad ∧ ct' = ct ∧ tag' = tag

theorem of_lpv35FrameParse_some {input : Bytes} {rt : OperateRet} {f : Lpv35Frame}
    (h : lpv35FrameParse gcm malloc key input = .ok (rt, some f)) :
    rt = oprtOk ∧ 18 ≤ input.length ∧ f.type = UInt32.ofNat (beNat (slice input 10 4)) := by
  rw [lpv35FrameParse] at h
  split_ifs at h with hnil h4 hfmt h18 hlength
  · cases h
  · cases h
  · cases h
  split at h
  · cases h
  · rw [lpv35FrameDecrypt] at h
    split at h
    · cases h
    · split_ifs at h
      · split at h
        · cases h
        · split at h
          · cases h
          · obtain ⟨hrt, hf⟩ := Prod.mk.inj (Except.ok.inj h)
            refine ⟨hrt.symm, Nat.not_lt.mp h18, ?_⟩
            rw [← Option.some.inj hf]
      · cases h

theorem of_lpv35FrameDecrypt {input nonce : Bytes} {dataLen : Nat} {g : Option Lpv35Frame}
    (h : lpv35FrameDecrypt gcm malloc key input nonce dataLen = .ok (oprtOk, g)) :
    30 + dataLen ≤ input.length ∧
      ∃ data, gcm.decrypt key nonce (slice input 4 sizeofLpv35AdditionalData)
          (slice input 30 dataLen) (slice input (u32 (30 + dataLen)) lpv35FrameTagSize) =
            .ok data ∧
        g = some { sequence := UInt32.ofNat (beNat (slice input 6 4))
                   type := UInt32.ofNat (beNat (slice input 10 4))
                   data := data } := by
  rw [lpv35FrameDecrypt] at h
  by_cases htag : u32 (30 + dataLen) + lpv35FrameTagSize ≤ input.length
  swap
  · rw [readSpan_eq_none (by omega)] at h
    cases h
  rw [readSpan_of_le htag] at h
  by_cases hmalloc : malloc (u32 (dataLen + 1)) = true
  swap
  · simp only [hmalloc] at h
    cases h
  simp only [hmalloc, if_true] at h
  by_cases hct : 30 + dataLen ≤ input.length
  swap
  · rw [readSpan_eq_none (by omega)] at h
    cases h
  rw [readSpan_of_le hct] at h
  refine ⟨hct, ?_⟩
  cases hdec : gcm.decrypt key nonce (slice input 4 sizeofLpv35AdditionalData)
      (slice input 30 dataLen) (slice input (u32 (30 + dataLen)) lpv35FrameTagSize) with
  | error e =>
    simp only [hdec] at h
    exact absurd (Prod.mk.inj (Except.ok.inj h)).1 e.property
  | ok data =>
    simp only [hdec] at h
    exact ⟨data, rfl, (Prod.mk.inj (Except.ok.inj h)).2.symm⟩

/-- An input that `lpv35_frame_parse` accepts has head, tail and length of a frame, and its
ciphertext has been decrypted. -/
theorem of_lpv35FrameParse {input : Bytes} {g : Option Lpv35Frame}
    (hlen : input.length < 2 ^ 31) (h : lpv35FrameParse gcm malloc key input = .ok (oprtOk, g)) :
    ∃ n, input.length = 50 + n ∧ input.take 4 = lpv35FrameHead ∧
      slice input (46 + n) 4 = lpv35FrameTail ∧ beNat (slice input 14 4) = 28 + n ∧
      lpv35FrameDecrypt gcm malloc key input (slice input 18 lpv35FrameNonceSize) n =
        .ok (oprtOk, g) := by
  rw [lpv35FrameParse] at h
  by_cases hnil : key = [] ∨ input = []
  · rw [if_pos hnil] at h
    cases h
  rw [if_neg hnil] at h
  by_cases h4 : input.length < 4
  · rw [if_pos h4] at h
    cases h
  rw [if_neg h4] at h
  by_cases hfmt : input.take 4 ≠ lpv35FrameHead ∨ slice input (input.length - 4) 4 ≠ lpv35FrameTail
  · rw [if_pos hfmt] at h
    cases h
  rw [if_neg hfmt] at h
  by_cases h18 : input.length < 18
  · rw [if_pos h18] at h
    cases h
  rw [if_neg h18] at h
  by_cases hlength : beNat (slice input 14 4) ≠ u32Sub input.length 22
  · rw [if_pos hlength] at h
    cases h
  rw [if_neg hlength] at h
  rw [not_or, not_not, not_not] at hfmt
  rw [not_not] at hlength
  by_cases h30 : 18 + lpv35FrameNonceSize ≤ input.length
  swap
  · rw [readSpan_eq_none (by omega)] at h
    cases h
  rw [readSpan_of_le h30] at h
  rw [lpv35FrameNonceSize] at h30
  have hsub : u32Sub input.length 22 = input.length - 22 :=
    u32Sub_of_le (by omega) (by omega)
  rw [hsub] at hlength
  simp only [hlength] at h
  -- A length below 28 wraps around, and then the ciphertext leaves the input.
  have h50 : 50 ≤ input.length := by
    by_contra hlt
    have hwrap := (of_lpv35FrameDecrypt h).1
    rw [u32Sub_of_lt (by omega) (by omega)] at hwrap
    omega
  rw [u32Sub_of_le (by omega) (by omega)] at h
  refine ⟨input.length - 50, by omega, hfmt.1, ?_, by omega, ?_⟩
  · rw [← hfmt.2]
    congr 1
    omega
  · rw [← h]
    congr 1

/-- When one message has been authenticated under a key, its frame is the only input that
`lpv35_frame_parse` accepts. -/
theorem eq_of_lpv35FrameParse {input : Bytes} {g : Option Lpv35Frame} {f : Lpv35Frame}
    {nonce ct tag : Bytes} (hlen : input.length < 2 ^ 31)
    (hauth : OnlyAuthentic gcm key nonce (lpv35AdditionalData f) ct tag)
    (h : lpv35FrameParse gcm malloc key input = .ok (oprtOk, g)) :
    input = lpv35FrameBytes f nonce ct tag := by
  obtain ⟨n, hn, hhead, htail, -, hdecrypt⟩ := of_lpv35FrameParse hlen h
  obtain ⟨-, data, hdec, -⟩ := of_lpv35FrameDecrypt hdecrypt
  rw [u32_of_lt (by omega)] at hdec
  obtain ⟨hnonce, had, hct, htag⟩ := hauth _ _ _ _ _ hdec
  rw [append_slices hn, hhead, htail, lpv35FrameBytes, ← had, ← hnonce, ← hct, ← htag]
  rfl

/-- **Frames round-trip.** `lpv35_frame_serialize` writes `lpv35_frame_buffer_size_get` bytes, of
which `lpv35_frame_parse` gives the object back; and no other input is accepted under that key. -/
theorem lpv35Frame_roundTrip (f : Lpv35FrameObject) {nonce ct tag : Bytes} (hkey : key ≠ [])
    (hnonce : nonce.length = lpv35FrameNonceSize)
    (henc : gcm.encrypt key nonce (lpv35AdditionalData f.toLpv35Frame) f.data = .ok (ct, tag))
    (hauth : OnlyAuthentic gcm key nonce (lpv35AdditionalData f.toLpv35Frame) ct tag)
    (hmalloc : malloc (f.data.length + 1) = true) :
    ∃ out, lpv35FrameSerialize gcm key nonce f.toLpv35Frame = .ok out ∧
      out.length = lpv35FrameBufferSizeGet f.toLpv35Frame ∧
      lpv35FrameParse gcm malloc key out = .ok (oprtOk, some f.toLpv35Frame) ∧
      ∀ (input : Bytes) (g : Option Lpv35Frame), input.length < 2 ^ 31 →
        lpv35FrameParse gcm malloc key input = .ok (oprtOk, g) → input = out := by
  obtain ⟨hct, htag⟩ := gcm.length_encrypt henc
  refine ⟨lpv35FrameBytes f.toLpv35Frame nonce ct tag, ?_, length_lpv35FrameBytes hnonce hct htag,
    lpv35FrameParse_serialize hkey hnonce henc hmalloc, ?_⟩
  · rw [lpv35FrameSerialize, if_neg hkey, henc]
  · exact fun input g hlen h => eq_of_lpv35FrameParse hlen hauth h

end Parse

/-- The object with sequence 1, the type of a heartbeat and the text `{}`. -/
def sampleFrame : Lpv35FrameObject where
  sequence := 1
  type := 9
  data := [0x7b, 0x7d]
  length_data_lt := by decide

/-- AES-128-GCM for that object, under a key of the bytes from 0 to 15 and a nonce of sevens. -/
def sampleGcm : Aead FailCode lpv35FrameTagSize :=
  Aead.ofEntries ⟨oprtComError, oprtComError_ne_ok⟩
    [{ key := (List.range 16).map UInt8.ofNat
       nonce := List.replicate 12 7
       ad := lpv35AdditionalData sampleFrame.toLpv35Frame
       data := sampleFrame.data
       ct := [0xea, 0x31]
       tag := [0x4f, 0xc8, 0x72, 0x0c, 0x7a, 0xb8, 0x80, 0x2b, 0x99, 0x98, 0x0d, 0x80, 0xfc, 0x14, 0x79, 0x17] }]
    (by decide +kernel) (by decide +kernel)

theorem lpv35Frame_roundTrip_sampleFrame :
    ∃ out, lpv35FrameSerialize sampleGcm ((List.range 16).map UInt8.ofNat) (List.replicate 12 7)
        sampleFrame.toLpv35Frame = .ok out ∧
      out.length = lpv35FrameBufferSizeGet sampleFrame.toLpv35Frame ∧
      lpv35FrameParse sampleGcm (fun _ => true) ((List.range 16).map UInt8.ofNat) out =
        .ok (oprtOk, some sampleFrame.toLpv35Frame) ∧
      ∀ (input : Bytes) (g : Option Lpv35Frame), input.length < 2 ^ 31 →
        lpv35FrameParse sampleGcm (fun _ => true) ((List.range 16).map UInt8.ofNat) input =
          .ok (oprtOk, g) → input = out := by
  refine lpv35Frame_roundTrip sampleFrame (by decide) rfl rfl ?_ rfl
  intro nonce' ad' ct' tag' data h
  simp only [sampleGcm, Aead.ofEntries] at h
  split at h
  · cases h
  · next v hv =>
    have heq := List.find?_some hv
    rw [List.mem_singleton.mp (List.mem_of_find?_eq_some hv)] at heq
    simp only [Prod.mk.injEq, decide_eq_true_eq] at heq
    exact heq.2

end TuyaOpen.Protocol
