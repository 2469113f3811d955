import TuyaOpen.AiProtocol.Receive
import TuyaOpen.AiProtocol.Send

/-!
# Lengths of received packets

The check `packet_len + head_len > sizeof(recv_buf)` is the only one between the length field of
a packet and the accesses that use it. It is an unsigned 32-bit comparison with no lower bound, so
it also lets in lengths shorter than a signature, and lengths next to `2 ^ 32` whose sum with
`head_len` wraps. The length of the decrypted text is corrected by its last byte without a check.
-/

namespace TuyaOpen.AiProtocol

/-! ### Accesses to a received packet -/

/-- The received bytes of a packet that has passed the size check of `tuya_ai_basic_pkt_read`: its
head and as much of the body as the reading loop asks for. -/
structure PassedSizeCheck (cfg : AiConfig) (recv : Bytes) : Prop where
  le_recvBufSize : u32 (aiGetPacketLen recv + aiGetHeadLen recv) ≤ cfg.recvBufSize
  length_eq : recv.length = aiGetHeadLen recv + bodyNeed recv

def tagLen : AiPacketSl → Nat
  | .sl4 => aiGcmTagLen
  | _ => 0

/-- The range handed to `__ai_decrypt_packet`. -/
def payloadRange (cfg : AiConfig) (recv : Bytes) : Bytes :=
  slice (recvBuf cfg recv) (aiGetHeadLen recv) (aiGetPayloadLen recv)

/-- The call of `__ai_decrypt_packet` on a received packet. -/
def decryptRecv (env : AiEnv) (p : AiBasicProto) (recv : Bytes) :
    Except AiStop (Bytes × Nat × AiBasicProto) :=
  aiDecryptPacket env p (payloadRange env.cfg recv)
    (u32 (aiGetPacketLen recv + aiGetHeadLen recv + aiAddPktLen))

/-- The arithmetic on the length of a received packet is safe: the packet holds a signature, its
size is computed without a wrap and fits `recv_buf`; the slices that are hashed, the signature and
the range that is decrypted lie inside the received bytes; and decryption accesses nothing outside
its buffers and never gives more than the decrypted length. -/
structure LengthsSafe (env : AiEnv) (p : AiBasicProto) (recv : Bytes) : Prop where
  sign_le : aiSignLen ≤ aiGetPacketLen recv
  no_wrap : aiGetHeadLen recv + aiGetPacketLen recv < 4294967296
  le_recvBufSize : aiGetHeadLen recv + aiGetPacketLen recv ≤ env.cfg.recvBufSize
  payload : aiGetPayloadLen recv + aiSignLen = aiGetPacketLen recv
  spans : ∀ s ∈ signSpans (aiGetHeadLen recv) (aiGetPayloadLen recv),
    s.1 + s.2 ≤ aiGetHeadLen recv + aiGetPacketLen recv
  signature : aiGetHeadLen recv + aiGetPayloadLen recv + aiSignLen ≤
    aiGetHeadLen recv + aiGetPacketLen recv
  range : aiGetHeadLen recv + aiGetPayloadLen recv ≤ aiGetHeadLen recv + aiGetPacketLen recv
  tag : tagLen env.cfg.securityLevel ≤ aiGetPayloadLen recv
  decrypt_inside : ∀ f, decryptRecv env p recv ≠ .error (.fault f)
  decryptLen_le : ∀ buf decryptLen p', decryptRecv env p recv = .ok (buf, decryptLen, p') →
    decryptLen ≤ aiGetPayloadLen recv - tagLen env.cfg.securityLevel

/-! ### The decrypted text -/

/-- The text that `__ai_decrypt_packet` finds in its output buffer, unless the cipher reports an
error. -/
def decryptedBytes (env : AiEnv) (p : AiBasicProto) (data : Bytes) : Option Bytes :=
  match env.cfg.securityLevel with
  | .sl0 => some data
  | .sl2 => (env.chacha20.crypt p.cryptKey (p.decryptIv.take 12) data).toOption
  | .sl3 =>
    if data.length % 16 = 0 then
      some (cbcDecrypt env.aes256 p.cryptKey (data.length / 16) p.decryptIv data).1
    else some (List.replicate data.length 0)
  | .sl4 =>
    (env.gcm.decrypt p.cryptKey p.decryptIv [] (data.take (data.length - aiGcmTagLen))
      (data.drop (data.length - aiGcmTagLen))).toOption

/-- A decrypted text has a last byte, and as a `char` it is at most the length of the text. -/
def PaddingFits (cfg : AiConfig) (plain : Bytes) : Prop :=
  ∃ b, plain.getLast? = some b ∧ charValue cfg b ≤ plain.length

section Decrypt

variable {env : AiEnv} {p : AiBasicProto} {data plain : Bytes} {size : Nat}

theorem toOption_eq_some {ε α : Type} {x : Except ε α} {a : α} (h : x.toOption = some a) :
    x = .ok a := by
  cases x with
  | error e => cases h
  | ok b => exact congrArg _ (Option.some.inj h)

theorem toOption_eq_none {ε α : Type} {x : Except ε α} (h : x.toOption = none) :
    ∃ e, x = .error e := by
  cases x with
  | error e => exact ⟨e, rfl⟩
  | ok b => cases h

theorem length_decryptedBytes (h : decryptedBytes env p data = some plain) :
    plain.length = data.length - tagLen env.cfg.securityLevel := by
  unfold decryptedBytes at h
  split at h
  · next hsl => simp [hsl, tagLen, ← Option.some.inj h]
  · next hsl =>
    rw [env.chacha20.length_crypt (toOption_eq_some h), hsl]
    rfl
  · next hsl =>
    rw [hsl]
    split_ifs at h with hmod
    · have hblocks : data.length = data.length / 16 * 16 := by omega
      rw [← Option.some.inj h, @length_cbcDecrypt 16 _ _ _ _ _ p.length_decryptIv hblocks]
      simp only [tagLen]
      omega
    · simp [← Option.some.inj h, tagLen]
  · next hsl =>
    rw [env.gcm.length_decrypt (toOption_eq_some h), hsl, List.length_take]
    simp only [tagLen]
    omega

theorem aiDecryptPacket_of_some (hle : data.length ≤ size)
    (htag : tagLen env.cfg.securityLevel ≤ data.length)
    (h : decryptedBytes env p data = some plain) :
    ∃ p', aiDecryptPacket env p data size = finishDecrypt env.cfg size plain plain.length p' := by
  have hlen := length_decryptedBytes h
  unfold decryptedBytes at h
  unfold aiDecryptPacket
  split at h
  · next hsl => exact absurd hsl env.cfg.securityLevel_ne
  · next hsl =>
    simp only [hsl, tagLen, Nat.sub_zero] at hlen
    simp only [hsl, toOption_eq_some h, hlen]
    exact ⟨p, rfl⟩
  · next hsl =>
    simp only [hsl, tagLen, Nat.sub_zero] at hlen
    simp only [hsl]
    split_ifs at h with hmod
    · rw [if_pos hmod, Option.some.inj h, hlen]
      exact ⟨_, rfl⟩
    · have hfill : fillBuf size [] = fillBuf size plain := by
        rw [fillBuf_of_le (Nat.zero_le _), fillBuf_of_le (by omega), ← Option.some.inj h,
          List.length_replicate, List.replicate_append_replicate, Nat.add_sub_cancel' hle]
        rfl
      rw [if_neg hmod, finishDecrypt, hfill, ← hlen]
      exact ⟨p, rfl⟩
  · next hsl =>
    simp only [hsl, tagLen] at htag
    simp only [hsl, toOption_eq_some h]
    rw [if_neg (by omega)]
    exact ⟨p, rfl⟩

theorem aiDecryptPacket_of_none (htag : tagLen env.cfg.securityLevel ≤ data.length)
    (h : decryptedBytes env p data = none) :
    ∃ rt, aiDecryptPacket env p data size = .error (.err rt) := by
  unfold decryptedBytes at h
  unfold aiDecryptPacket
  split at h
  · cases h
  · next hsl =>
    obtain ⟨rt, hrt⟩ := toOption_eq_none h
    exact ⟨rt, by simp only [hsl, hrt]⟩
  · split_ifs at h
  · next hsl =>
    simp only [hsl, tagLen] at htag
    obtain ⟨rt, hrt⟩ := toOption_eq_none h
    refine ⟨rt, ?_⟩
    simp only [hsl, hrt]
    rw [if_neg (by omega)]

theorem charValue_lt (cfg : AiConfig) (b : UInt8) : charValue cfg b < 4294967296 := by
  have hb : b.toNat < 256 := b.toNat_lt
  unfold charValue
  split_ifs <;> omega

theorem finishDecrypt_safe_iff (cfg : AiConfig) (hle : plain.length ≤ size)
    (hlt : size < 4294967295) :
    ((∀ f, finishDecrypt cfg size plain plain.length p ≠ .error (.fault f)) ∧
        ∀ buf n p', finishDecrypt cfg size plain plain.length p = .ok (buf, n, p') →
          n ≤ plain.length) ↔
      PaddingFits cfg plain := by
  rw [finishDecrypt, fillBuf_of_le hle]
  simp only
  rcases List.eq_nil_or_concat' plain with rfl | ⟨front, b, rfl⟩
  · -- Without a text the byte in front of the output buffer is read.
    have hindex : u32Sub 0 1 = 4294967295 := u32Sub_of_lt (by decide) (by decide)
    have hnone : (List.replicate size (0 : UInt8))[4294967295]? = none :=
      List.getElem?_eq_none (by rw [List.length_replicate]; omega)
    simp only [List.length_nil, List.nil_append, Nat.sub_zero, removePadding, hindex, hnone]
    refine iff_of_false (fun h => h.1 .padByte rfl) ?_
    rintro ⟨b, hb, -⟩
    cases hb
  · set n := (front ++ [b]).length with hn
    have hpos : 1 ≤ n := by simp [hn]
    have hbyte : (front ++ [b] ++ List.replicate (size - n) 0)[u32Sub n 1]? = some b := by
      rw [u32Sub_of_le (by omega) hpos, List.getElem?_append_left (by omega)]
      simp [hn]
    have hc := charValue_lt cfg b
    simp only [removePadding, hbyte]
    have hfits : PaddingFits cfg (front ++ [b]) ↔ charValue cfg b ≤ n := by
      simp [PaddingFits, hn]
    rw [hfits]
    refine ⟨fun h => ?_, fun h => ⟨fun f hf => (by cases hf), ?_⟩⟩
    · have hle' := h.2 _ _ _ rfl
      by_contra hlt'
      rw [u32Sub_of_lt hc (by omega)] at hle'
      omega
    · intro buf m p' hok
      cases hok
      rw [u32Sub_of_le (by omega) h]
      omega

theorem aiDecryptPacket_safe_iff (hle : data.length ≤ size) (hlt : size < 4294967295)
    (htag : tagLen env.cfg.securityLevel ≤ data.length) :
    ((∀ f, aiDecryptPacket env p data size ≠ .error (.fault f)) ∧
        ∀ buf n p', aiDecryptPacket env p data size = .ok (buf, n, p') →
          n ≤ data.length - tagLen env.cfg.securityLevel) ↔
      ∀ plain, decryptedBytes env p data = some plain → PaddingFits env.cfg plain := by
  cases hplain : decryptedBytes env p data with
  | none =>
    obtain ⟨rt, hrt⟩ := aiDecryptPacket_of_none htag hplain
    rw [hrt]
    refine iff_of_true ⟨fun f hf => ?_, fun buf n p' hok => ?_⟩ fun plain h => ?_
    · cases hf
    · cases hok
    · cases h
  | some plain =>
    have hlen := length_decryptedBytes hplain
    obtain ⟨p', hp'⟩ := aiDecryptPacket_of_some hle htag hplain
    rw [hp', ← hlen, finishDecrypt_safe_iff env.cfg (by omega) hlt]
    simp only [Option.some.injEq, forall_eq']

end Decrypt

/-! ### Which packets are handled safely -/

section Safe

variable {env : AiEnv} {p : AiBasicProto} {recv : Bytes}

theorem length_payloadRange {cfg : AiConfig} (hrecv : recv.length ≤ cfg.recvBufSize)
    (h : aiGetHeadLen recv + aiGetPayloadLen recv ≤ cfg.recvBufSize) :
    (payloadRange cfg recv).length = aiGetPayloadLen recv := by
  refine length_slice ?_
  rw [recvBuf, List.length_append, List.length_replicate]
  omega

/-- **Received lengths.** A packet that passes the size check is handled safely just when
`packet_len` has room for a signature, and for a tag where there is one, `packet_len + head_len`
does not wrap, and the last byte of the decrypted text is at most its length. -/
theorem lengthsSafe_iff (hpass : PassedSizeCheck env.cfg recv) :
    LengthsSafe env p recv ↔
      aiSignLen + tagLen env.cfg.securityLevel ≤ aiGetPacketLen recv ∧
        aiGetHeadLen recv + aiGetPacketLen recv < 4294967296 ∧
          ∀ plain, decryptedBytes env p (payloadRange env.cfg recv) = some plain →
            PaddingFits env.cfg plain := by
  -- Without a wrap the received bytes are head and packet, and fit the buffers.
  have key (hsign : aiSignLen ≤ aiGetPacketLen recv)
      (hwrap : aiGetHeadLen recv + aiGetPacketLen recv < 4294967296) :
      aiGetHeadLen recv + aiGetPacketLen recv ≤ env.cfg.recvBufSize ∧
        (payloadRange env.cfg recv).length = aiGetPayloadLen recv ∧
          u32 (aiGetPacketLen recv + aiGetHeadLen recv + aiAddPktLen) =
            aiGetPacketLen recv + aiGetHeadLen recv + aiAddPktLen ∧
          aiGetPacketLen recv + aiGetHeadLen recv + aiAddPktLen < 4294967295 := by
    have hM := env.cfg.maxFragmentLength_le
    have hpl := aiGetPayloadLen_add hsign
    have hu : u32 (aiGetPacketLen recv + aiGetHeadLen recv) =
        aiGetPacketLen recv + aiGetHeadLen recv := u32_of_lt (by omega)
    have hle := hpass.le_recvBufSize
    have hlen := hpass.length_eq
    rw [bodyNeed, hu] at hlen
    rw [hu] at hle
    simp only [AiConfig.recvBufSize, aiAddPktLen] at hle ⊢
    refine ⟨by omega, length_payloadRange ?_ ?_, u32_of_lt (by omega), by omega⟩
    · simp only [AiConfig.recvBufSize, aiAddPktLen]
      omega
    · simp only [AiConfig.recvBufSize, aiAddPktLen]
      omega
  constructor
  · intro hsafe
    obtain ⟨hfit, hrange, hsize, hlt⟩ := key hsafe.sign_le hsafe.no_wrap
    have hpl := hsafe.payload
    have htag := hsafe.tag
    refine ⟨by omega, hsafe.no_wrap, ?_⟩
    rw [← aiDecryptPacket_safe_iff (by omega) hlt (by omega), ← hsize, hrange]
    exact ⟨hsafe.decrypt_inside, hsafe.decryptLen_le⟩
  · rintro ⟨hsign, hwrap, hpad⟩
    obtain ⟨hfit, hrange, hsize, hlt⟩ := key (by omega) hwrap
    have hpl : aiGetPayloadLen recv + aiSignLen = aiGetPacketLen recv :=
      aiGetPayloadLen_add (by omega)
    rw [← aiDecryptPacket_safe_iff (by omega) hlt (by omega), ← hsize, hrange] at hpad
    refine ⟨by omega, hwrap, hfit, hpl, fun s hs => ?_, by omega, by omega, by omega, hpad.1,
      hpad.2⟩
    have hspan := signSpans_le (by omega) hs
    omega

/-- The text packet of the sample connection is handled safely. -/
theorem lengthsSafe_sampleText :
    PassedSizeCheck sampleConfig (sampleUnsigned .noFrag 1 sampleText ++ sampleTextSign) ∧
      LengthsSafe sampleEnv (storeIv sampleProto (sampleUnsigned .noFrag 1 sampleText))
        (sampleUnsigned .noFrag 1 sampleText ++ sampleTextSign) := by
  have hpass : PassedSizeCheck sampleConfig
      (sampleUnsigned .noFrag 1 sampleText ++ sampleTextSign) :=
    ⟨by decide +kernel, by decide +kernel⟩
  have hplain : decryptedBytes sampleEnv
      (storeIv sampleProto (sampleUnsigned .noFrag 1 sampleText))
      (payloadRange sampleConfig (sampleUnsigned .noFrag 1 sampleText ++ sampleTextSign)) =
        some sampleText.data := by
    decide +kernel
  refine ⟨hpass, (lengthsSafe_iff hpass).mpr ⟨by decide +kernel, by decide +kernel, ?_⟩⟩
  rintro plain hsome
  obtain rfl := Option.some.inj (hplain.symm.trans hsome)
  exact ⟨9, by decide +kernel, by decide +kernel⟩

def shortPacket : Bytes := [1, 0, 1, 8, 0, 0, 0, 0, 10] ++ List.replicate 10 0

/-- The size check lets in a packet that is too short for a signature. -/
theorem not_lengthsSafe_of_passedSizeCheck :
    ¬∀ env p recv, PassedSizeCheck env.cfg recv → LengthsSafe env p recv := by
  intro h
  have hsafe := h sampleEnv sampleProto shortPacket ⟨by decide +kernel, by decide +kernel⟩
  have hsign : ¬aiSignLen ≤ aiGetPacketLen shortPacket := by decide +kernel
  exact hsign hsafe.sign_le

end Safe

end TuyaOpen.AiProtocol
