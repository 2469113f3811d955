import TuyaOpen.Protocol.Envelope

/-!
# Envelopes of any length

`tuya_parse_protocol_data` for arbitrary bytes. One test of the length, with the fixed part of a
LAN payload, stands in front of both layouts. The fixed part of an MQTT payload is longer, and the
length of its ciphertext is a difference of unsigned numbers: for a payload with fewer bytes it
wraps around.
-/

namespace TuyaOpen.Protocol

/-- A buffer whose length is an `int`. A negative length is refused like one below
`DATA_OFFSET_22_32`. -/
structure EnvelopeInput where
  data : Bytes
  length_data_lt : data.length < 2 ^ 31

def fixedPartLen (cmd : DpCmdType) : Nat :=
  if cmd = dpCmdMq then pv23ExceptDataLen else dataOffset2232

/-- The input passes the checks of `__parse_data_with_pv23`. -/
def Pv23Version (data : Bytes) : Prop := data.take 3 = tuyaPv23 ∧ slice data 11 1 = [0]

instance (data : Bytes) : Decidable (Pv23Version data) :=
  inferInstanceAs (Decidable (_ ∧ _))

/-- `data_len` of `__parse_data_with_pv23` and `ec_len` of `__parse_data_with_lpv35`, when the
parser gets there. -/
def envelopeDataLen (cmd : DpCmdType) (data : Bytes) : Option Nat :=
  if data.length < dataOffset2232 then none
  else if cmd = dpCmdLan then some (u32Sub data.length dataOffset2232)
  else if cmd = dpCmdMq ∧ Pv23Version data then some (u32Sub data.length pv23ExceptDataLen)
  else none

/-- The parser stays inside its memory objects, the length that it computes is what the fixed part
leaves, and an input that is shorter than the fixed part is an error without output. -/
structure ParseBounded (gcm : Aead FailCode pv23TagLen) (heap : Allocator) (cmd : DpCmdType)
    (data key : Bytes) : Prop where
  inside : ∃ r, tuyaParseProtocolData gcm heap cmd data key = .ok r
  not_wrapped : ∀ n, envelopeDataLen cmd data = some n → n + fixedPartLen cmd = data.length
  short : data.length < fixedPartLen cmd → ∃ rt, rt ≠ oprtOk ∧
    tuyaParseProtocolData gcm heap cmd data key = .ok (rt, none)

/-- A payload that starts like one of PV 2.3 and passes the test of the length, but is shorter than
the fixed part. -/
def ShortPv23 (data : Bytes) : Prop :=
  dataOffset2232 ≤ data.length ∧ data.length < pv23ExceptDataLen ∧ Pv23Version data

section Bounds

variable {gcm : Aead FailCode pv23TagLen} {heap : Allocator} {data key : Bytes} {cmd : DpCmdType}

theorem exists_memcpy_text {n : Nat} {ec text : Bytes} (hec : heap.malloc (n + 1) = some ec)
    (htext : text.length = n) : ∃ ec', memcpy ec 0 (text ++ [0]) = some ec' := by
  refine ⟨_, memcpy_of_le ?_⟩
  rw [heap.length_malloc hec, List.length_append, htext, List.length_singleton, Nat.zero_add]

theorem ParseBounded.of_length_lt (h : data.length < dataOffset2232) :
    ParseBounded gcm heap cmd data key where
  inside := ⟨_, if_pos h⟩
  not_wrapped n hn := by
    rw [envelopeDataLen, if_pos h] at hn
    cases hn
  short _ := ⟨_, by decide, if_pos h⟩

theorem exists_parseDataWithLpv35 (hlen : data.length < 2 ^ 31)
    (h : dataOffset2232 ≤ data.length) : ∃ r, parseDataWithLpv35 heap data = .ok r := by
  rw [dataOffset2232] at h
  rw [parseDataWithLpv35, dataOffset2232, u32Sub_of_le (by omega) h, u32_of_lt (by omega)]
  cases hec : heap.malloc (data.length - 15 + 1) with
  | none => exact ⟨_, rfl⟩
  | some ec =>
    have hspan : 15 + (data.length - 15) ≤ data.length := by omega
    obtain ⟨ec', hec'⟩ := exists_memcpy_text hec (length_slice hspan)
    dsimp only
    rw [readSpan_of_le hspan]
    dsimp only
    rw [hec']
    exact ⟨_, rfl⟩

theorem exists_parseDataWithPv23 (hlen : data.length < 2 ^ 31)
    (h : pv23ExceptDataLen ≤ data.length) : ∃ r, parseDataWithPv23 gcm heap data key = .ok r := by
  have hfixed : pv23ExceptDataLen = 40 := rfl
  rw [hfixed] at h
  rw [parseDataWithPv23]
  split_ifs
  · exact ⟨_, rfl⟩
  · exact ⟨_, rfl⟩
  have htag : u32Sub data.length pv23TagLen = data.length - 16 :=
    u32Sub_of_le (by omega) (by rw [pv23TagLen]; omega)
  rw [hfixed, u32Sub_of_le (by omega) h, htag]
  dsimp only
  rw [u32_of_lt (by omega)]
  cases hec : heap.malloc (data.length - 40 + 1) with
  | none => exact ⟨_, rfl⟩
  | some ec =>
    have hct : 24 + (data.length - 40) ≤ data.length := by omega
    dsimp only
    rw [readSpan_of_le (by rw [pv23NonceLen]; omega), readSpan_of_le hct,
      readSpan_of_le (by rw [pv23TagLen]; omega)]
    dsimp only
    split
    · exact ⟨_, rfl⟩
    · next text htext =>
      obtain ⟨ec', hec'⟩ :=
        exists_memcpy_text hec ((gcm.length_decrypt htext).trans (length_slice hct))
      rw [hec']
      exact ⟨_, rfl⟩

theorem tuyaParseProtocolData_of_malloc_none {n : Nat} (hn : envelopeDataLen cmd data = some n)
    (hmalloc : heap.malloc (u32 (n + 1)) = none) :
    tuyaParseProtocolData gcm heap cmd data key = .ok (oprtMallocFailed, none) := by
  have hne : dpCmdMq ≠ dpCmdLan := by decide
  rw [envelopeDataLen] at hn
  rw [tuyaParseProtocolData]
  split_ifs at hn with hshort hlan hmq
  · rw [if_neg hshort, if_pos hlan, parseDataWithLpv35]
    rw [Option.some.inj hn, hmalloc]
  · obtain ⟨rfl, hversion, hreserve⟩ := hmq
    rw [if_neg hshort, if_neg hne, if_pos rfl, parseDataWithPv23,
      if_neg (not_not.mpr hversion), if_neg (not_not.mpr hreserve)]
    dsimp only
    rw [Option.some.inj hn, hmalloc]

theorem parseDataWithPv23_of_not_version (h : ¬Pv23Version data) :
    parseDataWithPv23 gcm heap data key = .ok (oprtVersionFmtErr, none) := by
  rw [parseDataWithPv23]
  by_cases hversion : data.take 3 = tuyaPv23
  · rw [if_neg (not_not.mpr hversion), if_pos fun hreserve => h ⟨hversion, hreserve⟩]
  · rw [if_pos hversion]

theorem parseBounded_lan (hlen : data.length < 2 ^ 31) :
    ParseBounded gcm heap dpCmdLan data key := by
  have hfixed : fixedPartLen dpCmdLan = dataOffset2232 := rfl
  by_cases h : data.length < dataOffset2232
  · exact .of_length_lt h
  refine ⟨?_, fun n hn => ?_, fun hshort => absurd hshort h⟩
  · rw [tuyaParseProtocolData, if_neg h, if_pos rfl]
    exact exists_parseDataWithLpv35 hlen (Nat.not_lt.mp h)
  · rw [envelopeDataLen, if_neg h, if_pos rfl] at hn
    rw [dataOffset2232] at hn hfixed h
    rw [← Option.some.inj hn, hfixed, u32Sub_of_le (by omega) (by omega)]
    omega

theorem parseBounded_mq_iff (hlen : data.length < 2 ^ 31) :
    ParseBounded gcm heap dpCmdMq data key ↔ ¬ShortPv23 data := by
  have hne : dpCmdMq ≠ dpCmdLan := by decide
  have hfixed : fixedPartLen dpCmdMq = 40 := rfl
  have hexcept : pv23ExceptDataLen = 40 := rfl
  constructor
  · rintro ⟨-, hwrapped, -⟩ ⟨hmin, hmax, hversion⟩
    rw [hexcept] at hmax
    have hcomputed : envelopeDataLen dpCmdMq data = some (data.length + 4294967296 - 40) := by
      rw [envelopeDataLen, if_neg (Nat.not_lt.mpr hmin), if_neg hne, if_pos ⟨rfl, hversion⟩,
        hexcept, u32Sub_of_lt (by decide) hmax]
    have hsum := hwrapped _ hcomputed
    rw [hfixed] at hsum
    omega
  · intro hshort
    by_cases h : data.length < dataOffset2232
    · exact .of_length_lt h
    have hparse : tuyaParseProtocolData gcm heap dpCmdMq data key =
        parseDataWithPv23 gcm heap data key := by
      rw [tuyaParseProtocolData, if_neg h, if_neg hne, if_pos rfl]
    by_cases hversion : Pv23Version data
    · have hle : 40 ≤ data.length := by
        by_contra hlt
        exact hshort ⟨Nat.not_lt.mp h, Nat.lt_of_not_le hlt, hversion⟩
      refine ⟨?_, fun n hn => ?_, fun hlt => ?_⟩
      · rw [hparse]
        exact exists_parseDataWithPv23 hlen hle
      · rw [envelopeDataLen, if_neg h, if_neg hne, if_pos ⟨rfl, hversion⟩, hexcept,
          u32Sub_of_le (by omega) hle] at hn
        rw [← Option.some.inj hn, hfixed]
        omega
      · rw [hfixed] at hlt
        omega
    · have hrefused := @parseDataWithPv23_of_not_version gcm heap data key hversion
      refine ⟨⟨_, hparse.trans hrefused⟩, fun n hn => ?_,
        fun _ => ⟨_, by decide, hparse.trans hrefused⟩⟩
      rw [envelopeDataLen, if_neg h, if_neg hne, if_neg fun hmq => hversion hmq.2] at hn
      cases hn

end Bounds

/-- **Payloads of any length.** A LAN payload is always parsed safely, and an MQTT payload unless it
starts like one of PV 2.3, with at least 15 bytes and fewer than 40. -/
theorem parseBounded_iff (gcm : Aead FailCode pv23TagLen) (heap : Allocator)
    (input : EnvelopeInput) (key : Bytes) :
    ParseBounded gcm heap dpCmdLan input.data key ∧
      (ParseBounded gcm heap dpCmdMq input.data key ↔ ¬ShortPv23 input.data) :=
  ⟨parseBounded_lan input.length_data_lt, parseBounded_mq_iff input.length_data_lt⟩

def shortInput : EnvelopeInput := ⟨tuyaPv23 ++ List.replicate 12 0, by decide +kernel⟩

/-- The length of its ciphertext wraps around. -/
theorem not_parseBounded_shortInput :
    ¬ParseBounded sampleEnvelopeGcm sampleHeap dpCmdMq shortInput.data (List.replicate 16 0) := by
  intro h
  have hcomputed : envelopeDataLen dpCmdMq shortInput.data = some 4294967271 := by
    decide +kernel
  exact absurd (h.not_wrapped _ hcomputed) (by decide +kernel)

end TuyaOpen.Protocol
