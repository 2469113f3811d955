import TuyaOpen.Ble.Response

/-!
# Lengths along the send path of BLE

A DP payload is checked against `TUYA_BLE_TRANSMISSION_MAX_DATA_LEN` by `__dp_data_report_data`,
goes through `tuya_ble_send` and `tuya_ble_send_packet`, and is encoded by `ble_packet_encode` in
two buffers of `TUYA_BLE_AIR_FRAME_MAX` bytes. The limit of the first function leaves 29 bytes for
what the last one adds, which is 14 bytes of header and checksum, up to 15 bytes of padding and 17
bytes of mode and vector. The last function writes the plain frame first and checks its length
then.
-/

namespace TuyaOpen.Ble

/-! ### What the encoder writes -/

/-- The length check of `ble_packet_encode` lets the packet pass. -/
def PassesLengthCheck (packet : BlePacket) : Prop :=
  14 + packet.data.length + paddingLen (14 + packet.data.length) ≤ tuyaBleAirFrameMax

instance (packet : BlePacket) : Decidable (PassesLengthCheck packet) :=
  inferInstanceAs (Decidable (_ ≤ _))

/-- The parts of `ble_frame` that `ble_packet_encode` writes, each by offset and length: the fields
of the plain frame and, behind the length check, the padding that `ble_add_pkcs` puts behind it. -/
def bleFrameSpans (env : BleEnv) (packet : BlePacket) : List (Nat × Nat) :=
  let len := packet.data.length
  if env.malloc tuyaBleAirFrameMax then
    [(0, 4), (4, 4), (8, 2), (10, 2), (12, len), (12 + len, 2)] ++
      if PassesLengthCheck packet ∧ packet.encryptMode < encryptionModeMax ∧
          packet.encryptMode ≠ encryptionModeNone then
        [(14 + len, (14 + len + 15) / 16 * 16 - (14 + len))]
      else []
  else []

/-- The parts of `enc_buf` that `ble_packet_encode` writes: the mode and, behind the length check,
the vector and the output of `tuya_ble_encryption`. -/
def encBufSpans (env : BleEnv) (ble : BleMgr) (packet : BlePacket) : List (Nat × Nat) :=
  let len := packet.data.length
  if env.malloc tuyaBleAirFrameMax then
    (0, 1) ::
      if PassesLengthCheck packet then
        (1, 16) ::
          if packet.encryptMode = encryptionModeNone then [(17, 14 + len)]
          else if (bleKeyGenerate env ble.crypt ble.cryptoParam packet.encryptMode).isSome then
            [(17, (14 + len + 15) / 16 * 16)]
          else []
      else []
  else []

/-- `ble_packet_encode` writes only inside its buffers, and fails or makes a frame. -/
def EncodesInside (env : BleEnv) (ble : BleMgr) (iv : Bytes) (packet : BlePacket) : Prop :=
  (∀ s ∈ bleFrameSpans env packet ++ encBufSpans env ble packet,
      s.1 + s.2 ≤ tuyaBleAirFrameMax) ∧
    ∃ rt out ble', blePacketEncode env ble iv packet = .ok (rt, out, ble') ∧
      (rt = oprtOk ↔ out.isSome)

/-! ### DP payloads -/

/-- `TUYA_BLE_TRANSMISSION_MAX_DATA_LEN`. -/
def tuyaBleTransmissionMaxDataLen : Nat := tuyaBleAirFrameMax - 29

/-- `FRM_QRY_DEV_INFO_REQ`. -/
def frmQryDevInfoReq : UInt16 := 0

/-- The mode that `tuya_ble_send_packet` sets. -/
def sendMode (isBound : Bool) (type : UInt16) : UInt8 :=
  if type = frmQryDevInfoReq then if isBound then encryptionModeKey14 else encryptionModeKey11
  else if isBound then encryptionModeSessionKey15 else encryptionModeKey12

/-- `__dp_data_report_data`, `tuya_ble_send` and `tuya_ble_send_packet` of a paired device: the
packet that `ble_packet_resp` gets, if the payload is accepted. -/
def dpDataReportData (isBound : Bool) (type : UInt16) (data : Bytes) : Option BlePacket :=
  if h : tuyaBleTransmissionMaxDataLen < data.length ∨ data.length = 0 then none
  else
    some
      { sn := 0
        type := type
        data := data
        encryptMode := sendMode isBound type
        length_data_lt := by
          simp only [tuyaBleTransmissionMaxDataLen, tuyaBleAirFrameMax] at h
          omega }

/-- A payload that `__dp_data_report_data` accepts is encoded, if there is memory for the
buffers. -/
def PayloadEncodable (env : BleEnv) (ble : BleMgr) (iv : Bytes) (isBound : Bool) (type : UInt16)
    (data : Bytes) : Prop :=
  env.malloc tuyaBleAirFrameMax → ∀ packet, dpDataReportData isBound type data = some packet →
    ∃ frame ble', blePacketEncode env ble iv packet = .ok (oprtOk, some frame, ble')

/-! ### Lengths -/

section Lengths

variable {env : BleEnv} {ble : BleMgr} {iv : Bytes} {packet : BlePacket}

theorem passesLengthCheck_iff : PassesLengthCheck packet ↔ packet.data.length ≤ 978 := by
  unfold PassesLengthCheck paddingLen tuyaBleAirFrameMax
  split_ifs <;> omega

theorem blePacketEncode_of_length (hmalloc : env.malloc tuyaBleAirFrameMax) :
    (1010 < packet.data.length → blePacketEncode env ble iv packet = .error .bleFrame) ∧
      (packet.data.length ≤ 1010 → 978 < packet.data.length →
        blePacketEncode env ble iv packet =
          .ok (oprtComError, none, { ble with sendSn := ble.sendSn + 1 })) ∧
      (packet.data.length ≤ 978 →
        (∃ e, tuyaBleEncryption env ble.crypt ble.cryptoParam packet.encryptMode iv
              (bleFrame ble.sendSn packet) = .error e ∧
            blePacketEncode env ble iv packet =
              .ok (oprtComError, none, { ble with sendSn := ble.sendSn + 1 })) ∨
          ∃ r, tuyaBleEncryption env ble.crypt ble.cryptoParam packet.encryptMode iv
              (bleFrame ble.sendSn packet) = .ok r ∧
            blePacketEncode env ble iv packet = .ok (oprtOk, some (packet.encryptMode :: iv ++ r.1),
              { ble with sendSn := ble.sendSn + 1, crypt := r.2 })) := by
  have hpass : ¬tuyaBleAirFrameMax < 14 + packet.data.length +
      paddingLen (14 + packet.data.length) ↔ packet.data.length ≤ 978 :=
    Nat.not_lt.trans passesLengthCheck_iff
  have hframe : tuyaBleAirFrameMax < 14 + packet.data.length ↔ 1010 < packet.data.length := by
    unfold tuyaBleAirFrameMax
    omega
  rw [blePacketEncode, if_pos hmalloc]
  dsimp only
  rw [length_bleFrame]
  refine ⟨fun hlong => if_pos (hframe.mpr hlong), fun hle hlong => ?_, fun hle => ?_⟩
  · rw [if_neg (hframe.not.mpr (Nat.not_lt.mpr hle)),
      if_pos (not_not.mp (hpass.not.mpr (Nat.not_le.mpr hlong)))]
  · rw [if_neg (hframe.not.mpr (by omega)), if_neg (hpass.mpr hle)]
    cases henc : tuyaBleEncryption env ble.crypt ble.cryptoParam packet.encryptMode iv
        (bleFrame ble.sendSn packet) with
    | error e => exact .inl ⟨e, rfl, rfl⟩
    | ok r => exact .inr ⟨r, rfl, rfl⟩

theorem spans_inside_iff (hmalloc : env.malloc tuyaBleAirFrameMax) :
    (∀ s ∈ bleFrameSpans env packet ++ encBufSpans env ble packet,
      s.1 + s.2 ≤ tuyaBleAirFrameMax) ↔ packet.data.length ≤ 1010 := by
  rw [bleFrameSpans, encBufSpans, if_pos hmalloc, if_pos hmalloc]
  constructor
  · intro h
    have hcrc : 12 + packet.data.length + 2 ≤ 1024 :=
      h (12 + packet.data.length, 2) (by simp)
    omega
  · intro hle
    by_cases hpass : PassesLengthCheck packet
    · have hlen := passesLengthCheck_iff.mp hpass
      simp only [List.forall_mem_append, List.forall_mem_cons, List.not_mem_nil, if_pos hpass,
        tuyaBleAirFrameMax]
      refine ⟨⟨⟨by omega, by omega, by omega, by omega, by omega, by omega, ?_⟩, ?_⟩, by omega,
        by omega, ?_⟩
      · exact fun _ hs => hs.elim
      · split_ifs
        · exact List.forall_mem_singleton.mpr (by dsimp only; omega)
        · exact fun _ hs => by cases hs
      · split_ifs
        · exact List.forall_mem_singleton.mpr (by dsimp only; omega)
        · exact List.forall_mem_singleton.mpr (by dsimp only; omega)
        · exact fun _ hs => by cases hs
    · rw [if_neg (fun hc => hpass hc.1), if_neg hpass]
      simp only [List.forall_mem_append, List.forall_mem_cons, List.not_mem_nil,
        tuyaBleAirFrameMax]
      refine ⟨⟨⟨by omega, by omega, by omega, by omega, by omega, by omega, ?_⟩, ?_⟩, by omega, ?_⟩
      all_goals exact fun _ hs => hs.elim

theorem encodesInside_iff :
    EncodesInside env ble iv packet ↔
      (env.malloc tuyaBleAirFrameMax → packet.data.length ≤ 1010) := by
  by_cases hmalloc : env.malloc tuyaBleAirFrameMax
  · obtain ⟨-, hcom, hok⟩ := @blePacketEncode_of_length env ble iv packet hmalloc
    rw [EncodesInside, spans_inside_iff hmalloc]
    refine ⟨fun h _ => h.1, fun h => ⟨h hmalloc, ?_⟩⟩
    by_cases hlen : packet.data.length ≤ 978
    · rcases hok hlen with ⟨e, -, herr⟩ | ⟨r, -, hsome⟩
      · exact ⟨_, _, _, herr, iff_of_false (by decide) Bool.false_ne_true⟩
      · exact ⟨_, _, _, hsome, iff_of_true rfl rfl⟩
    · exact ⟨_, _, _, hcom (h hmalloc) (Nat.lt_of_not_le hlen),
        iff_of_false (by decide) Bool.false_ne_true⟩
  · refine iff_of_true ⟨?_, oprtComError, none, ble, if_neg hmalloc,
      iff_of_false (by decide) Bool.false_ne_true⟩ fun h => absurd h hmalloc
    rw [bleFrameSpans, encBufSpans, if_neg hmalloc, if_neg hmalloc]
    exact fun s hs => by cases hs

theorem exists_tuyaBleEncryption_sendMode (env : BleEnv) (st : BleCryptState) (p : BleCryptoParam)
    (isBound : Bool) (type : UInt16) (iv data : Bytes) :
    ∃ r, tuyaBleEncryption env st p (sendMode isBound type) iv data = .ok r := by
  obtain ⟨hmax, hnone, hkey⟩ : ¬encryptionModeMax ≤ sendMode isBound type ∧
      sendMode isBound type ≠ encryptionModeNone ∧ keyIn env st p (sendMode isBound type) ≠ [] := by
    have hauth : p.authKey ≠ [] := List.ne_nil_of_length_pos (by rw [p.length_authKey]; decide)
    have hlogin : p.loginKey ≠ [] := List.ne_nil_of_length_pos (by rw [p.length_loginKey]; decide)
    have hpair : p.pairRand ≠ [] := List.ne_nil_of_length_pos (by rw [p.length_pairRand]; decide)
    rw [sendMode]
    split_ifs
    · exact ⟨by decide, by decide, List.append_ne_nil_of_left_ne_nil hlogin _⟩
    · exact ⟨by decide, by decide, List.append_ne_nil_of_left_ne_nil
        (List.append_ne_nil_of_left_ne_nil hauth _) _⟩
    · exact ⟨by decide, by decide, List.append_ne_nil_of_right_ne_nil _ hpair⟩
    · exact ⟨by decide, by decide, List.append_ne_nil_of_right_ne_nil _ hpair⟩
  obtain ⟨st', hst⟩ := exists_bleKeyGenerate hmax hkey
  rw [tuyaBleEncryption, if_neg hmax, if_neg hnone, hst]
  exact ⟨_, rfl⟩

theorem dpDataReportData_eq_some {isBound : Bool} {type : UInt16} {data : Bytes}
    (h : dpDataReportData isBound type data = some packet) :
    packet.data = data ∧ packet.encryptMode = sendMode isBound type ∧ data.length ≤ 995 := by
  rw [dpDataReportData] at h
  split_ifs at h with hlen
  obtain rfl := Option.some.inj h
  have hmax : data.length ≤ 1024 - 29 := Nat.not_lt.mp (not_or.mp hlen).1
  exact ⟨rfl, rfl, hmax⟩

theorem exists_dpDataReportData (isBound : Bool) (type : UInt16) {data : Bytes}
    (hpos : 0 < data.length) (hmax : data.length ≤ 995) :
    ∃ packet, dpDataReportData isBound type data = some packet := by
  refine ⟨_, dif_neg ?_⟩
  rw [not_or]
  refine ⟨Nat.not_lt.mpr hmax, by omega⟩

theorem payloadEncodable_iff {isBound : Bool} {type : UInt16} {data : Bytes} :
    PayloadEncodable env ble iv isBound type data ↔
      (env.malloc tuyaBleAirFrameMax → data.length ≤ 978 ∨ 995 < data.length) := by
  constructor
  · intro h hmalloc
    by_contra hlen
    obtain ⟨hlong, hmax⟩ := not_or.mp hlen
    obtain ⟨packet, hpacket⟩ := @exists_dpDataReportData isBound type data (by omega) (by omega)
    obtain ⟨hdata, -, -⟩ := dpDataReportData_eq_some hpacket
    obtain ⟨frame, ble', hok⟩ := h hmalloc packet hpacket
    obtain ⟨-, hcom, -⟩ := @blePacketEncode_of_length env ble iv packet hmalloc
    rw [hcom (by rw [hdata]; omega) (by rw [hdata]; omega)] at hok
    cases hok
  · intro h hmalloc packet hpacket
    obtain ⟨hdata, hmode, hmax⟩ := dpDataReportData_eq_some hpacket
    have hlen : packet.data.length ≤ 978 := by
      rw [hdata]
      exact (h hmalloc).resolve_right (Nat.not_lt.mpr hmax)
    obtain ⟨-, -, hok⟩ := @blePacketEncode_of_length env ble iv packet hmalloc
    obtain ⟨r, hr⟩ := exists_tuyaBleEncryption_sendMode env ble.crypt ble.cryptoParam isBound type
      iv (bleFrame ble.sendSn packet)
    rw [← hmode] at hr
    rcases hok hlen with ⟨e, herr, -⟩ | ⟨r', -, hsome⟩
    · rw [hr] at herr
      cases herr
    · exact ⟨_, _, hsome⟩

/-- **The lengths of the send path** agree for packets of at most 1010 bytes, and for payloads that
are not among those with 979 to 995 bytes. -/
theorem sendLengths_iff (env : BleEnv) (ble : BleMgr) (iv : Bytes) (packet : BlePacket)
    (isBound : Bool) (type : UInt16) (data : Bytes) :
    (EncodesInside env ble iv packet ↔
        (env.malloc tuyaBleAirFrameMax → packet.data.length ≤ 1010)) ∧
      (PayloadEncodable env ble iv isBound type data ↔
        (env.malloc tuyaBleAirFrameMax → data.length ≤ 978 ∨ 995 < data.length)) :=
  ⟨encodesInside_iff, payloadEncodable_iff⟩

end Lengths

/-- A packet with 1011 bytes of data is written behind the end of its buffer, and a payload of 979
bytes is accepted and cannot be encoded. -/
theorem not_sendLengths :
    ¬∀ env ble iv packet isBound type data, EncodesInside env ble iv packet ∧
      PayloadEncodable env ble iv isBound type data := by
  intro h
  have hlong : (List.replicate 1011 (0 : UInt8)).length < 65536 := by
    rw [List.length_replicate]
    decide
  obtain ⟨hinside, hencodable⟩ := h sampleEnv sampleMgr (List.replicate 16 9)
    ⟨0, 0x8000, List.replicate 1011 0, encryptionModeKey12, hlong⟩ false 0x8006
    (List.replicate 979 0)
  have hle := encodesInside_iff.mp hinside rfl
  have hlen := payloadEncodable_iff.mp hencodable rfl
  rw [List.length_replicate] at hle hlen
  omega

end TuyaOpen.Ble
