import Mathlib.Data.List.GetD
import Mathlib.Order.Basic
import TuyaOpen.AiProtocol.Types

/-!
# Packet heads, signatures and encryption

The functions of `tuya_ai_protocol.c` that sending and receiving share: the accessors of a
packet head, `__ai_packet_sign`, `__ai_encrypt_packet` and `__ai_decrypt_packet`.

The head is `version`, the 16-bit `sequence`, one byte with `iv_flag`, `security_level` and
`frag_flag` in its 1, 5 and 2 bits from the low end, and `reserve`.

## Main results

* `headSequence_packetHead` and its siblings: the accessors read back what was written.
* `aiPacketSign_append`: a signature depends on the signed packet only.
* `CryptInvertible`, `cryptInvertible_of_sl3`, `cryptInvertible_of_sl4`: what a receiver needs
  of the ciphers, and that CBC and GCM give it.
-/

namespace TuyaOpen.AiProtocol

/-! ### Packet heads -/

/-- The bytes of an `AI_PACKET_HEAD_T`, version 1. -/
def packetHead (sequence : Nat) (iv : Bool) (sl : AiPacketSl) (frag : AiFragFlag) : Bytes :=
  1 :: beBytes 2 sequence ++ [UInt8.ofNat (iv.toNat + 2 * sl.bits + 64 * frag.bits), 0]

def headFlags (buf : Bytes) : Nat := (buf.getD 3 0).toNat

/-- `head->iv_flag`. -/
def headIvFlag (buf : Bytes) : Bool := headFlags buf % 2 = 1

/-- `head->frag_flag`. -/
def headFragFlag (buf : Bytes) : AiFragFlag := .ofBits (headFlags buf / 64)

/-- `UNI_NTOHS(head->sequence)`. -/
def headSequence (buf : Bytes) : Nat := beNat (slice buf 1 2)

/-- The number of bytes of the initialization vector in a head with a given `iv_flag`. -/
def ivSize (iv : Bool) : Nat := if iv then aiIvLen else 0

/-- `__ai_get_head_len`. -/
def aiGetHeadLen (buf : Bytes) : Nat := packetHeadSize + ivSize (headIvFlag buf) + 4

/-- `__ai_get_packet_len`. -/
def aiGetPacketLen (buf : Bytes) : Nat :=
  beNat (slice buf (packetHeadSize + ivSize (headIvFlag buf)) 4)

/-- `__ai_get_payload_len`. -/
def aiGetPayloadLen (buf : Bytes) : Nat := u32Sub (aiGetPacketLen buf) aiSignLen

@[simp] theorem length_packetHead (sequence : Nat) (iv : Bool) (sl : AiPacketSl)
    (frag : AiFragFlag) : (packetHead sequence iv sl frag).length = packetHeadSize := by
  simp [packetHead, packetHeadSize]

theorem headFlags_packetHead (sequence : Nat) (iv : Bool) (sl : AiPacketSl) (frag : AiFragFlag)
    (rest : Bytes) :
    headFlags (packetHead sequence iv sl frag ++ rest) =
      iv.toNat + 2 * sl.bits + 64 * frag.bits := by
  have hbyte : iv.toNat + 2 * sl.bits + 64 * frag.bits < 256 := by
    cases iv <;> cases sl <;> cases frag <;> decide
  simp only [headFlags, packetHead, beBytes, List.nil_append, List.cons_append,
    List.getD_cons_succ, List.getD_cons_zero]
  exact (UInt8.toNat_ofNat').trans (Nat.mod_eq_of_lt hbyte)

@[simp] theorem headIvFlag_packetHead (sequence : Nat) (iv : Bool) (sl : AiPacketSl)
    (frag : AiFragFlag) (rest : Bytes) :
    headIvFlag (packetHead sequence iv sl frag ++ rest) = iv := by
  rw [headIvFlag, headFlags_packetHead]
  cases iv <;> cases sl <;> cases frag <;> decide

@[simp] theorem headFragFlag_packetHead (sequence : Nat) (iv : Bool) (sl : AiPacketSl)
    (frag : AiFragFlag) (rest : Bytes) :
    headFragFlag (packetHead sequence iv sl frag ++ rest) = frag := by
  rw [headFragFlag, headFlags_packetHead]
  cases iv <;> cases sl <;> cases frag <;> decide

theorem headSequence_packetHead {sequence : Nat} (h : sequence < 65536) (iv : Bool)
    (sl : AiPacketSl) (frag : AiFragFlag) (rest : Bytes) :
    headSequence (packetHead sequence iv sl frag ++ rest) = sequence := by
  have hslice : slice (packetHead sequence iv sl frag ++ rest) 1 2 = beBytes 2 sequence := by
    simp [slice, packetHead]
  rw [headSequence, hslice, beNat_beBytes_of_lt h]

theorem headFlags_append {buf : Bytes} (h : packetHeadSize ≤ buf.length) (rest : Bytes) :
    headFlags (buf ++ rest) = headFlags buf := by
  have h3 : 3 < buf.length := by
    simp only [packetHeadSize] at h
    omega
  simp only [headFlags, List.getD_append _ _ _ _ h3]

theorem headIvFlag_append {buf : Bytes} (h : packetHeadSize ≤ buf.length) (rest : Bytes) :
    headIvFlag (buf ++ rest) = headIvFlag buf := by
  rw [headIvFlag, headFlags_append h, headIvFlag]

theorem headFragFlag_append {buf : Bytes} (h : packetHeadSize ≤ buf.length) (rest : Bytes) :
    headFragFlag (buf ++ rest) = headFragFlag buf := by
  rw [headFragFlag, headFlags_append h, headFragFlag]

theorem headSequence_append {buf : Bytes} (h : packetHeadSize ≤ buf.length) (rest : Bytes) :
    headSequence (buf ++ rest) = headSequence buf := by
  simp only [packetHeadSize] at h
  rw [headSequence, slice_append_left (by omega), headSequence]

theorem aiGetHeadLen_append {buf : Bytes} (h : packetHeadSize ≤ buf.length) (rest : Bytes) :
    aiGetHeadLen (buf ++ rest) = aiGetHeadLen buf := by
  rw [aiGetHeadLen, headIvFlag_append h, aiGetHeadLen]

theorem aiGetPacketLen_append {buf : Bytes} (h : aiGetHeadLen buf ≤ buf.length) (rest : Bytes) :
    aiGetPacketLen (buf ++ rest) = aiGetPacketLen buf := by
  simp only [aiGetHeadLen] at h
  rw [aiGetPacketLen, headIvFlag_append (by omega), slice_append_left (by omega), aiGetPacketLen]

theorem aiGetPacketLen_lt (buf : Bytes) : aiGetPacketLen buf < 4294967296 := by
  have hlt := beNat_lt (slice buf (packetHeadSize + ivSize (headIvFlag buf)) 4)
  have hlen : (slice buf (packetHeadSize + ivSize (headIvFlag buf)) 4).length ≤ 4 := by
    simp only [slice, List.length_take]
    omega
  have hpow : 256 ^ (slice buf (packetHeadSize + ivSize (headIvFlag buf)) 4).length ≤ 256 ^ 4 :=
    Nat.pow_le_pow_right (by decide) hlen
  rw [aiGetPacketLen]
  omega

theorem aiGetHeadLen_eq (buf : Bytes) :
    aiGetHeadLen buf = if headIvFlag buf then 25 else 9 := by
  cases h : headIvFlag buf <;> simp [aiGetHeadLen, h, ivSize, packetHeadSize, aiIvLen]

theorem nine_le_aiGetHeadLen (buf : Bytes) : 9 ≤ aiGetHeadLen buf := by
  rw [aiGetHeadLen_eq]
  split <;> omega

theorem aiGetHeadLen_le (buf : Bytes) : aiGetHeadLen buf ≤ 25 := by
  rw [aiGetHeadLen_eq]
  split <;> omega

/-! ### Signatures -/

/-- The spans of a packet that `__ai_packet_sign` copies into `sign_data`: all of the packet up
to 64 bytes, else its first 32 bytes and the last bytes of the payload, at most 32. -/
def signSpans (headLen payloadLen : Nat) : List (Nat × Nat) :=
  if u32 (headLen + payloadLen) ≤ 64 then [(0, u32 (headLen + payloadLen))]
  else
    [(0, 32),
      if 32 < payloadLen then (headLen + (payloadLen - 32), 32) else (headLen, payloadLen)]

/-- `sign_len`. -/
def signLen (headLen payloadLen : Nat) : Nat :=
  if u32 (headLen + payloadLen) ≤ 64 then u32 (headLen + payloadLen) else 64

/-- The first `sign_len` bytes of `sign_data`, when every span lies inside the buffer. -/
def signData (buf : Bytes) : Option Bytes :=
  (readSpans buf (signSpans (aiGetHeadLen buf) (aiGetPayloadLen buf))).map fun data =>
    data ++ List.replicate (signLen (aiGetHeadLen buf) (aiGetPayloadLen buf) - data.length) 0

/-- `__ai_packet_sign`. -/
def aiPacketSign (env : AiEnv) (p : AiBasicProto) (buf : Bytes) : Except AiStop Bytes :=
  match signData buf with
  | none => .error (.fault .signSlice)
  | some data => (env.sha256Mac.mac p.signKey data).mapError .err

theorem length_of_aiPacketSign {env : AiEnv} {p : AiBasicProto} {buf sign : Bytes}
    (h : aiPacketSign env p buf = .ok sign) : sign.length = aiSignLen := by
  unfold aiPacketSign at h
  split at h
  · cases h
  · next data _ =>
    cases hm : env.sha256Mac.mac p.signKey data with
    | error e => simp [hm, Except.mapError] at h
    | ok s =>
      simp only [hm, Except.mapError, Except.ok.injEq] at h
      exact h ▸ env.sha256Mac.length_mac hm

theorem fault_of_aiPacketSign {env : AiEnv} {p : AiBasicProto} {buf : Bytes} {f : MemFault}
    (h : aiPacketSign env p buf = .error (.fault f)) : f = .signSlice ∧ signData buf = none := by
  unfold aiPacketSign at h
  split at h
  · next hnone =>
    cases h
    exact ⟨rfl, hnone⟩
  · next data _ =>
    cases hm : env.sha256Mac.mac p.signKey data with
    | error e => simp [hm, Except.mapError] at h
    | ok s => simp [hm, Except.mapError] at h

theorem aiPacketSign_of_signKey_eq {env : AiEnv} {p q : AiBasicProto} (h : p.signKey = q.signKey)
    (buf : Bytes) : aiPacketSign env p buf = aiPacketSign env q buf := by
  rw [aiPacketSign, aiPacketSign, h]

theorem signSpans_le {headLen payloadLen : Nat} (h : headLen + payloadLen < 4294967296)
    {s : Nat × Nat} (hs : s ∈ signSpans headLen payloadLen) :
    s.1 + s.2 ≤ headLen + payloadLen := by
  unfold signSpans at hs
  rw [u32_of_lt h] at hs
  split_ifs at hs with h64 h32
  · rw [List.mem_singleton] at hs
    simp [hs]
  · simp only [List.mem_cons, List.not_mem_nil, or_false] at hs
    rcases hs with rfl | rfl
    · show 0 + 32 ≤ _
      omega
    · show headLen + (payloadLen - 32) + 32 ≤ _
      omega
  · simp only [List.mem_cons, List.not_mem_nil, or_false] at hs
    rcases hs with rfl | rfl
    · show 0 + 32 ≤ _
      omega
    · exact le_rfl

theorem aiPacketSign_append {env : AiEnv} {p : AiBasicProto} {buf : Bytes}
    (hhead : aiGetHeadLen buf ≤ buf.length)
    (hlen : aiGetHeadLen buf + aiGetPayloadLen buf ≤ buf.length)
    (hlt : aiGetHeadLen buf + aiGetPayloadLen buf < 4294967296) (rest : Bytes) :
    aiPacketSign env p (buf ++ rest) = aiPacketSign env p buf := by
  have hsize : packetHeadSize ≤ buf.length := by
    rw [aiGetHeadLen] at hhead
    omega
  have hpl : aiGetPayloadLen (buf ++ rest) = aiGetPayloadLen buf := by
    rw [aiGetPayloadLen, aiGetPacketLen_append hhead, aiGetPayloadLen]
  have hspans : readSpans (buf ++ rest) (signSpans (aiGetHeadLen buf) (aiGetPayloadLen buf)) =
      readSpans buf (signSpans (aiGetHeadLen buf) (aiGetPayloadLen buf)) :=
    readSpans_append_left fun s hs => (signSpans_le hlt hs).trans hlen
  rw [aiPacketSign, signData, aiGetHeadLen_append hsize, hpl, hspans, aiPacketSign, signData]

/-! ### Encryption -/

/-- `__ai_get_sl` for a packet to send. For a received packet it is the security level of the
configuration. -/
def aiGetSl (cfg : AiConfig) (type : UInt8) : AiPacketSl :=
  if type = aiPtClientHello then .sl0 else cfg.securityLevel

/-- The padding that `__ai_encrypt_add_pkcs` and `tal_pkcs7padding_buffer` write behind `len`
bytes. -/
def pkcsPad (len : Nat) : Bytes := List.replicate (16 - len % 16) (UInt8.ofNat (16 - len % 16))

/-- `__ai_encrypt_add_pkcs`, `tal_pkcs7padding_buffer`. -/
def aiEncryptAddPkcs (data : Bytes) : Bytes := data ++ pkcsPad data.length

/-- `__ai_encrypt_packet`. CBC leaves its chaining value in `encrypt_iv`. -/
def aiEncryptPacket (env : AiEnv) (p : AiBasicProto) (type : UInt8) (data : Bytes) :
    Except AiStop (Bytes × AiBasicProto) :=
  match aiGetSl env.cfg type with
  | .sl0 => .ok (data, p)
  | .sl2 =>
    -- Only the data goes through the cipher, the padding behind it does not.
    match env.chacha20.crypt p.cryptKey (p.encryptIv.take 12) data with
    | .error rt => .error (.err rt)
    | .ok out => .ok (out ++ pkcsPad data.length, p)
  | .sl3 =>
    let padded := aiEncryptAddPkcs data
    let r := cbcEncrypt env.aes256 p.cryptKey (padded.length / 16) p.encryptIv padded
    .ok (r.1, p.setEncryptIv r.2)
  | .sl4 =>
    match env.gcm.encrypt p.cryptKey p.encryptIv [] (aiEncryptAddPkcs data) with
    | .error rt => .error (.err rt)
    | .ok (ct, tag) => .ok (ct ++ tag, p)

theorem aiEncryptPacket_frame {env : AiEnv} {p p' : AiBasicProto} {type : UInt8} {data ct : Bytes}
    (h : aiEncryptPacket env p type data = .ok (ct, p')) : ∃ iv, p' = p.setEncryptIv iv := by
  have hself : p = p.setEncryptIv p.encryptIv := p.setEncryptIv_self.symm
  unfold aiEncryptPacket at h
  split at h
  · cases h
    exact ⟨_, hself⟩
  · split at h <;> cases h
    exact ⟨_, hself⟩
  · cases h
    exact ⟨_, rfl⟩
  · split at h <;> cases h
    exact ⟨_, hself⟩

/-! ### Decryption -/

/-- A byte read through a `char *`, converted to `uint32_t`. -/
def charValue (cfg : AiConfig) (b : UInt8) : Nat :=
  if cfg.charIsSigned ∧ 128 ≤ b.toNat then 4294967296 + b.toNat - 256 else b.toNat

/-- `n - output[n - 1]`, the length after the padding is removed. -/
def removePadding (cfg : AiConfig) (output : Bytes) (n : Nat) : Except AiStop Nat :=
  match output[u32Sub n 1]? with
  | none => .error (.fault .padByte)
  | some b => .ok (u32Sub n (charValue cfg b))

/-- The cleared buffer `decrypt_buf` of `size` bytes with `plain` copied to its start. -/
def fillBuf (size : Nat) (plain : Bytes) : Except AiStop Bytes :=
  match memcpy (List.replicate size 0) 0 plain with
  | none => .error (.fault .decryptRange)
  | some buf => .ok buf

/-- The last steps of `__ai_decrypt_packet` after `plain` has been written to the output buffer
of `size` bytes: the padding of the `n` bytes there is removed. -/
def finishDecrypt (cfg : AiConfig) (size : Nat) (plain : Bytes) (n : Nat) (p : AiBasicProto) :
    Except AiStop (Bytes × Nat × AiBasicProto) :=
  match fillBuf size plain with
  | .error e => .error e
  | .ok buf =>
    match removePadding cfg buf n with
    | .error e => .error e
    | .ok deLen => .ok (buf, deLen, p)

/-- `__ai_decrypt_packet`, for an output buffer of `size` bytes. The result is the buffer and
`de_len`. -/
def aiDecryptPacket (env : AiEnv) (p : AiBasicProto) (data : Bytes) (size : Nat) :
    Except AiStop (Bytes × Nat × AiBasicProto) :=
  match env.cfg.securityLevel with
  | .sl0 =>
    match fillBuf size data with
    | .error e => .error e
    | .ok buf => .ok (buf, data.length, p)
  | .sl2 =>
    match env.chacha20.crypt p.cryptKey (p.decryptIv.take 12) data with
    | .error rt => .error (.err rt)
    | .ok plain => finishDecrypt env.cfg size plain data.length p
  | .sl3 =>
    -- `tal_aes256_cbc_decode_raw` reports success for every length, and writes nothing when the
    -- length is not a multiple of the block.
    if data.length % 16 = 0 then
      let r := cbcDecrypt env.aes256 p.cryptKey (data.length / 16) p.decryptIv data
      finishDecrypt env.cfg size r.1 data.length (p.setDecryptIv r.2)
    else finishDecrypt env.cfg size [] data.length p
  | .sl4 =>
    -- With fewer bytes than a tag `len - AI_GCM_TAG_LEN` is next to `2 ^ 32`.
    if data.length < aiGcmTagLen then .error (.fault .decryptRange)
    else
      match env.gcm.decrypt p.cryptKey p.decryptIv [] (data.take (data.length - aiGcmTagLen))
        (data.drop (data.length - aiGcmTagLen)) with
      | .error rt => .error (.err rt)
      | .ok plain => finishDecrypt env.cfg size plain plain.length p

theorem finishDecrypt_proto {cfg : AiConfig} {size n deLen : Nat} {plain buf : Bytes}
    {p p' : AiBasicProto} (h : finishDecrypt cfg size plain n p = .ok (buf, deLen, p')) : p' = p := by
  unfold finishDecrypt at h
  split at h
  · cases h
  · split at h
    · cases h
    · cases h
      rfl

theorem aiDecryptPacket_frame {env : AiEnv} {p p' : AiBasicProto} {data buf : Bytes}
    {size deLen : Nat} (h : aiDecryptPacket env p data size = .ok (buf, deLen, p')) :
    ∃ iv, p' = p.setDecryptIv iv := by
  have hself : p = p.setDecryptIv p.decryptIv := p.setDecryptIv_self.symm
  unfold aiDecryptPacket at h
  split at h
  · split at h <;> cases h
    exact ⟨_, hself⟩
  · split at h
    · cases h
    · exact ⟨_, (finishDecrypt_proto h).trans hself⟩
  · split at h
    · exact ⟨_, finishDecrypt_proto h⟩
    · exact ⟨_, (finishDecrypt_proto h).trans hself⟩
  · split at h
    · cases h
    · split at h
      · cases h
      · exact ⟨_, (finishDecrypt_proto h).trans hself⟩

theorem finishDecrypt_ne_fragCopy {cfg : AiConfig} {size n : Nat} {plain : Bytes}
    {p : AiBasicProto} : finishDecrypt cfg size plain n p ≠ .error (.fault .fragCopy) := by
  intro h
  unfold finishDecrypt fillBuf removePadding at h
  split at h
  · next hfill =>
    cases h
    split at hfill <;> cases hfill
  · split at h
    · next hpad =>
      cases h
      split at hpad <;> cases hpad
    · cases h

theorem aiDecryptPacket_ne_fragCopy {env : AiEnv} {p : AiBasicProto} {data : Bytes} {size : Nat} :
    aiDecryptPacket env p data size ≠ .error (.fault .fragCopy) := by
  intro h
  unfold aiDecryptPacket at h
  split at h
  · next hsl => exact absurd hsl env.cfg.securityLevel_ne
  · split at h
    · cases h
    · exact finishDecrypt_ne_fragCopy h
  · split at h <;> exact finishDecrypt_ne_fragCopy h
  · split at h
    · cases h
    · split at h
      · cases h
      · exact finishDecrypt_ne_fragCopy h

/-! ### Decryption undoes encryption -/

/-- Encryption is invertible: a receiver with the same key, whose `decrypt_iv` is the sender's
`encrypt_iv`, decrypts what the sender encrypts, into any buffer that is large enough, and keeps
its `decrypt_iv` equal to the sender's `encrypt_iv`. -/
def CryptInvertible (env : AiEnv) : Prop :=
  ∀ (p q : AiBasicProto) (type : UInt8) (data ct : Bytes) (p' : AiBasicProto) (size : Nat),
    type ≠ aiPtClientHello → q.cryptKey = p.cryptKey → q.decryptIv = p.encryptIv →
      aiEncryptPacket env p type data = .ok (ct, p') → ct.length ≤ size → size < 4294967296 →
        ∃ buf, aiDecryptPacket env q ct size =
            .ok (buf, data.length, q.setDecryptIv p'.encryptIv) ∧
          buf.length = size ∧ buf.take data.length = data

section CryptInvertible

variable {env : AiEnv} {p q p' : AiBasicProto} {type : UInt8} {data ct : Bytes} {size : Nat}

theorem aiGetSl_of_ne (cfg : AiConfig) (h : type ≠ aiPtClientHello) :
    aiGetSl cfg type = cfg.securityLevel := if_neg h

theorem length_pkcsPad (len : Nat) : (pkcsPad len).length = 16 - len % 16 :=
  List.length_replicate

theorem length_aiEncryptAddPkcs (data : Bytes) :
    (aiEncryptAddPkcs data).length = (data.length / 16 + 1) * 16 := by
  rw [aiEncryptAddPkcs, List.length_append, length_pkcsPad]
  omega

theorem fillBuf_of_le {plain : Bytes} (h : plain.length ≤ size) :
    fillBuf size plain = .ok (plain ++ List.replicate (size - plain.length) 0) := by
  have hmem : memcpy (List.replicate size (0 : UInt8)) 0 plain =
      some (plain ++ List.replicate (size - plain.length) 0) := by
    rw [memcpy_of_le (by simpa using h)]
    simp
  rw [fillBuf, hmem]

theorem removePadding_aiEncryptAddPkcs (cfg : AiConfig) (data rest : Bytes)
    (h : (aiEncryptAddPkcs data).length < 4294967296) :
    removePadding cfg (aiEncryptAddPkcs data ++ rest) (aiEncryptAddPkcs data).length =
      .ok data.length := by
  have hlen := length_aiEncryptAddPkcs data
  set n := (aiEncryptAddPkcs data).length with hn
  set cz := 16 - data.length % 16 with hcz
  have hsub : u32Sub n 1 = n - 1 := u32Sub_of_le h (by omega)
  have hbyte : (aiEncryptAddPkcs data ++ rest)[n - 1]? = some (UInt8.ofNat cz) := by
    rw [List.getElem?_append_left (by omega), aiEncryptAddPkcs, List.getElem?_append_right (by omega),
      pkcsPad, List.getElem?_replicate_of_lt (by omega)]
  have hval : charValue cfg (UInt8.ofNat cz) = cz := by
    have hnat : (UInt8.ofNat cz).toNat = cz := by
      rw [UInt8.toNat_ofNat']
      omega
    rw [charValue, hnat, if_neg (by omega)]
  rw [removePadding, hsub, hbyte]
  simp only [hval]
  rw [u32Sub_of_le h (by omega)]
  congr 1
  omega

theorem finishDecrypt_aiEncryptAddPkcs (cfg : AiConfig) (p : AiBasicProto)
    (hle : (aiEncryptAddPkcs data).length ≤ size) (hlt : size < 4294967296) :
    ∃ buf, finishDecrypt cfg size (aiEncryptAddPkcs data) (aiEncryptAddPkcs data).length p =
        .ok (buf, data.length, p) ∧ buf.length = size ∧ buf.take data.length = data := by
  refine ⟨aiEncryptAddPkcs data ++ List.replicate (size - (aiEncryptAddPkcs data).length) 0,
    ?_, ?_, ?_⟩
  · rw [finishDecrypt, fillBuf_of_le hle]
    simp only [removePadding_aiEncryptAddPkcs cfg data _ (by omega)]
  · rw [List.length_append, List.length_replicate]
    omega
  · rw [aiEncryptAddPkcs, List.append_assoc, List.take_left]

theorem length_le_of_aiEncryptPacket (h : aiEncryptPacket env p type data = .ok (ct, p')) :
    data.length ≤ ct.length := by
  have hpad := length_aiEncryptAddPkcs data
  unfold aiEncryptPacket at h
  split at h
  · obtain ⟨rfl, -⟩ := Prod.mk.inj (Except.ok.inj h)
    exact Nat.le_refl _
  · split at h
    · cases h
    · next out hout =>
      obtain ⟨rfl, -⟩ := Prod.mk.inj (Except.ok.inj h)
      rw [List.length_append, env.chacha20.length_crypt hout]
      omega
  · obtain ⟨rfl, -⟩ := Prod.mk.inj (Except.ok.inj h)
    have hk : (aiEncryptAddPkcs data).length / 16 = data.length / 16 + 1 := by omega
    have hlen := @length_cbcEncrypt 16 env.aes256 p.cryptKey _ _ _ p.length_encryptIv hpad
    simp only [hk, hlen.1]
    omega
  · split at h
    · cases h
    · next c tag hgcm =>
      obtain ⟨rfl, -⟩ := Prod.mk.inj (Except.ok.inj h)
      rw [List.length_append, (env.gcm.length_encrypt hgcm).1]
      omega

theorem cryptInvertible_of_sl3 (h : env.cfg.securityLevel = .sl3) : CryptInvertible env := by
  intro p q type data ct p' size htype hkey hiv henc hle hlt
  have hpad := length_aiEncryptAddPkcs data
  have hk : (aiEncryptAddPkcs data).length / 16 = data.length / 16 + 1 := by omega
  have hlen := @length_cbcEncrypt 16 env.aes256 p.cryptKey _ _ _ p.length_encryptIv hpad
  have htrip := @cbcDecrypt_cbcEncrypt 16 env.aes256 p.cryptKey _ _ _ p.length_encryptIv hpad
  simp only [aiEncryptPacket, aiGetSl_of_ne _ htype, h, hk, Except.ok.injEq, Prod.mk.injEq] at henc
  obtain ⟨rfl, rfl⟩ := henc
  set r := cbcEncrypt env.aes256 p.cryptKey (data.length / 16 + 1) p.encryptIv
    (aiEncryptAddPkcs data) with hr
  have hmod : r.1.length % 16 = 0 := by omega
  have hdiv : r.1.length / 16 = data.length / 16 + 1 := by omega
  rw [AiBasicProto.encryptIv_setEncryptIv p hlen.2, aiDecryptPacket]
  simp only [h, hmod, ↓reduceIte, hdiv, hkey, hiv, htrip]
  rw [hlen.1, ← hpad]
  exact finishDecrypt_aiEncryptAddPkcs env.cfg _ (by omega) hlt

theorem cryptInvertible_of_sl4 (h : env.cfg.securityLevel = .sl4) : CryptInvertible env := by
  intro p q type data ct p' size htype hkey hiv henc hle hlt
  simp only [aiEncryptPacket, aiGetSl_of_ne _ htype, h] at henc
  split at henc
  · cases henc
  · next c tag hgcm =>
    simp only [Except.ok.injEq, Prod.mk.injEq] at henc
    obtain ⟨rfl, rfl⟩ := henc
    obtain ⟨hc, ht⟩ := env.gcm.length_encrypt hgcm
    have hlen : (c ++ tag).length - aiGcmTagLen = c.length := by
      rw [List.length_append, ht, Nat.add_sub_cancel]
    have hself : q.setDecryptIv p.encryptIv = q := by rw [← hiv, AiBasicProto.setDecryptIv_self]
    have hge : ¬(c ++ tag).length < aiGcmTagLen := by
      rw [List.length_append, ht]
      omega
    rw [aiDecryptPacket]
    simp only [h, hge, ↓reduceIte, hlen, List.take_left, List.drop_left, hkey, hiv,
      env.gcm.decrypt_encrypt hgcm, hself]
    rw [List.length_append] at hle
    exact finishDecrypt_aiEncryptAddPkcs env.cfg _ (by omega) hlt

end CryptInvertible

end TuyaOpen.AiProtocol
