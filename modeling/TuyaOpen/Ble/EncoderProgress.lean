import TuyaOpen.Ble.TransmitterRoundTrip

/-!
# The BLE encoder makes progress

`ble_dev_info_req` takes the packet length of the connection from the peer and does not check it.
The encoder writes the head of a subpacket into a buffer of that length and fills the rest with
data. The heads of the subpackets after the first are not longer than the one of subpacket 0: a
subpacket number is at most the number of bytes sent, which is less than the frame length in the
head of subpacket 0. So all depends on subpacket 0. With a packet length below its head the encoder
writes behind the buffer; with a packet length of exactly its head it makes a subpacket without
data.
-/

namespace TuyaOpen.Ble

/-- The calls of the loop that sends a frame with a new transmitter: the first one, and one after
every call that has returned `CONTINUE`. -/
inductive EncoderReaches (packetLen version : Nat) (buf : Bytes) (frameSeq : Nat) :
    Nat → BleFrameTrsmitr → Prop
  | create :
      EncoderReaches packetLen version buf frameSeq frameSeq (bleFrameTrsmitrCreate packetLen)
  | next {seq seq' : Nat} {t t' : BleFrameTrsmitr} :
      EncoderReaches packetLen version buf frameSeq seq t →
      bleFrameTrsmitrSendPkgEncode packetLen seq t version buf buf.length =
        .ok (oprtSvcBtApiTrsmitrContinue, t', seq') →
      EncoderReaches packetLen version buf frameSeq seq' t'

/-- A call returns an error, or makes a subpacket that is not longer than the packet length and,
when data remains, is longer than its head. -/
def Progress (packetLen version : Nat) (buf : Bytes) (seq : Nat) (t : BleFrameTrsmitr) : Prop :=
  let s := (sendStart t version buf.length seq).1
  ∃ rt t' seq',
    bleFrameTrsmitrSendPkgEncode packetLen seq t version buf buf.length = .ok (rt, t', seq') ∧
      (rt ≠ oprtOk ∧ rt ≠ oprtSvcBtApiTrsmitrContinue ∨
        t'.subpkgLen ≤ packetLen ∧
          (s.pkgTrsmitrCnt < buf.length → (sendHead s buf.length).length < t'.subpkgLen))

def MakesProgress (packetLen version : Nat) (buf : Bytes) (frameSeq : Nat) : Prop :=
  (∀ seq t, EncoderReaches packetLen version buf frameSeq seq t →
      Progress packetLen version buf seq t) ∧
    ∃ fuel r, sendPkgs packetLen version buf buf.length fuel frameSeq
      (bleFrameTrsmitrCreate packetLen) = some (.ok r)

/-- A packet has room for the head of subpacket 0 and, unless the frame is empty, for one byte of
data behind it. -/
def RoomFor (packetLen : Nat) (buf : Bytes) : Prop :=
  if buf = [] then 3 ≤ packetLen else (Varint.encode 4 buf.length).length + 2 < packetLen

theorem RoomFor.length_lt {packetLen : Nat} {buf : Bytes} (h : RoomFor packetLen buf)
    (hbuf : buf ≠ []) : (Varint.encode 4 buf.length).length + 2 < packetLen := by
  rwa [RoomFor, if_neg hbuf] at h

theorem RoomFor.length_le {packetLen : Nat} {buf : Bytes} (h : RoomFor packetLen buf) :
    (Varint.encode 4 buf.length).length + 2 ≤ packetLen := by
  by_cases hbuf : buf = []
  · rw [RoomFor, if_pos hbuf] at h
    rw [hbuf]
    exact h
  · exact Nat.le_of_lt (h.length_lt hbuf)

section Progress

variable {packetLen version frameSeq seq : Nat} {buf : Bytes} {t : BleFrameTrsmitr}

/-! ### One call -/

theorem subpkgLen_of_sendSubpkg {rt : OperateRet} {t' : BleFrameTrsmitr} {len : Nat}
    (h : sendSubpkg packetLen t buf len = .ok (rt, t')) :
    t'.subpkgLen = (sendHead t len).length +
        sendData packetLen (sendHead t len).length len t.pkgTrsmitrCnt ∧
      t'.subpkgLen ≤ t.subpkg.length ∧ (rt = oprtOk ∨ rt = oprtSvcBtApiTrsmitrContinue) := by
  obtain ⟨data, hdata, hsubpkg, hlen, -, hrt⟩ := exists_of_sendSubpkg h
  have hroom := le_of_memcpy hsubpkg
  rw [List.length_append, length_of_readSpan hdata, Nat.zero_add] at hroom
  exact ⟨hlen, hlen ▸ hroom, hrt⟩

theorem subpkgLen_of_sendPkgEncode {rt : OperateRet} {t' : BleFrameTrsmitr} {seq' : Nat}
    (hnum : (sendStart t version buf.length seq).1.subpkgNum < bleFrameLimit)
    (hlen : buf.length < bleFrameLimit)
    (h : bleFrameTrsmitrSendPkgEncode packetLen seq t version buf buf.length =
      .ok (rt, t', seq')) :
    let s := (sendStart t version buf.length seq).1
    t'.subpkgLen = (sendHead s buf.length).length +
        sendData packetLen (sendHead s buf.length).length buf.length s.pkgTrsmitrCnt ∧
      t'.subpkgLen ≤ s.subpkg.length ∧ (rt = oprtOk ∨ rt = oprtSvcBtApiTrsmitrContinue) := by
  obtain ⟨-, ⟨-, -, hlimit⟩ | ⟨hsend, -⟩⟩ := sendPkgEncode_cases h
  · exact absurd hlimit (not_or.mpr ⟨Nat.not_le.mpr hnum, Nat.not_le.mpr hlen⟩)
  · exact subpkgLen_of_sendSubpkg hsend

theorem roomFor_of_progress (hpacket : packetLen < 65536) (hlen : buf.length < bleFrameLimit)
    (h : Progress packetLen version buf frameSeq (bleFrameTrsmitrCreate packetLen)) :
    RoomFor packetLen buf := by
  set t := bleFrameTrsmitrCreate packetLen
  have hstart : (sendStart t version buf.length frameSeq).1 =
      { t with total := buf.length, version := version, seq := (bleFrameSeqGet frameSeq).1 } := rfl
  obtain ⟨rt, t', seq', hcall, hprog⟩ := h
  obtain ⟨hsublen, hle, hrt⟩ :=
    subpkgLen_of_sendPkgEncode (by rw [hstart]; exact bleFrameLimit_pos) hlen hcall
  rw [hstart] at hle hprog hsublen
  set s : BleFrameTrsmitr :=
    { t with total := buf.length, version := version, seq := (bleFrameSeqGet frameSeq).1 }
  have hhead : (sendHead s buf.length).length = (Varint.encode 4 buf.length).length + 2 :=
    length_firstHead version (bleFrameSeqGet frameSeq).1 buf.length
  have hsub : s.subpkg.length = packetLen := List.length_replicate
  have hcnt : s.pkgTrsmitrCnt = 0 := rfl
  rw [hsub] at hle
  have hdata := @sendData_eq packetLen buf.length (sendHead s buf.length).length 0 hpacket
    (by omega) (Nat.zero_le _) hlen
  rw [hcnt, hdata] at hsublen
  have hfull : buf.length ≠ 0 → (sendHead s buf.length).length < t'.subpkgLen := by
    rcases hprog with ⟨hok, hcont⟩ | ⟨-, hmore⟩
    · exact absurd hrt (not_or.mpr ⟨hok, hcont⟩)
    · exact fun hbuf => hmore (Nat.pos_of_ne_zero hbuf)
  rw [RoomFor]
  split_ifs with hbuf
  · have hnil : (Varint.encode 4 buf.length).length = 1 := by
      rw [hbuf]
      rfl
    omega
  · have hlt := hfull fun h0 => hbuf (List.eq_nil_of_length_eq_zero h0)
    omega

/-! ### The loop -/

/-- The state between two calls. Every subpacket carries data, so the number of the next one is at
most the number of bytes sent. -/
structure Sending (packetLen : Nat) (buf : Bytes) (t : BleFrameTrsmitr) : Prop where
  length_subpkg : t.subpkg.length = packetLen
  pkgDesc : t.pkgDesc ≠ .pkgInit
  total : t.total = buf.length
  cnt_lt : t.pkgTrsmitrCnt < buf.length
  num_ne : t.subpkgNum ≠ 0
  num_le : t.subpkgNum ≤ t.pkgTrsmitrCnt

theorem Sending.step (hroom : (Varint.encode 4 buf.length).length + 2 < packetLen)
    (hpacket : packetLen < 65536) (hlen : buf.length < bleFrameLimit)
    (h : Sending packetLen buf t) :
    Progress packetLen version buf seq t ∧
      ∃ rt t', bleFrameTrsmitrSendPkgEncode packetLen seq t version buf buf.length =
          .ok (rt, t', seq) ∧
        (rt = oprtSvcBtApiTrsmitrContinue ∧ Sending packetLen buf t' ∧
            t.pkgTrsmitrCnt < t'.pkgTrsmitrCnt ∨
          rt = oprtOk) := by
  have hcnt := h.cnt_lt
  have hnum := h.num_le
  have hstart : sendStart t version buf.length seq = (t, seq) := if_neg h.pkgDesc
  have hhead : sendHead t buf.length = Varint.encode 4 t.subpkgNum :=
    length_sendHead_of_ne h.num_ne
  -- The number takes no more bytes than the frame length.
  have hvar : (Varint.encode 4 t.subpkgNum).length ≤ (Varint.encode 4 buf.length).length :=
    Varint.length_encode_mono 4 (by omega)
  obtain ⟨n, t', hn, -, hsub, hcnt', htotal, -, -, hdesc, hres⟩ :=
    @sendPkgEncode_of_sending packetLen t buf seq version (by omega) hpacket h.length_subpkg
      h.pkgDesc hlen h.total (Nat.le_of_lt hcnt) h.num_ne (by omega)
  have hdata := @sendData_eq packetLen buf.length (sendHead t buf.length).length t.pkgTrsmitrCnt
    hpacket (by rw [hhead]; omega) (Nat.le_of_lt hcnt) hlen
  rw [hhead] at hdata
  have hprog {rt : OperateRet} (hcall : bleFrameTrsmitrSendPkgEncode packetLen seq t version buf
      buf.length = .ok (rt, t', seq)) : Progress packetLen version buf seq t := by
    obtain ⟨hsublen, hle, -⟩ :=
      subpkgLen_of_sendPkgEncode (by rw [hstart]; exact lt_of_le_of_lt hnum (hcnt.trans hlen)) hlen
        hcall
    rw [hstart, hhead, hdata] at hsublen
    rw [hstart, h.length_subpkg] at hle
    refine ⟨rt, t', seq, hcall, .inr ⟨hle, fun _ => ?_⟩⟩
    rw [hstart, hhead]
    omega
  rcases hres with ⟨hmore, hnum', hcall⟩ | ⟨-, hcall⟩
  · refine ⟨hprog hcall, _, t', hcall, .inl ⟨rfl, ⟨hsub, hdesc, htotal, ?_, ?_, ?_⟩, ?_⟩⟩
    all_goals omega
  · exact ⟨hprog hcall, _, t', hcall, .inr rfl⟩

theorem Sending.exists_sendPkgs (hroom : (Varint.encode 4 buf.length).length + 2 < packetLen)
    (hpacket : packetLen < 65536) (hlen : buf.length < bleFrameLimit) {fuel : Nat}
    (hfuel : buf.length - t.pkgTrsmitrCnt ≤ fuel) (h : Sending packetLen buf t) :
    ∃ r, sendPkgs packetLen version buf buf.length fuel seq t = some (.ok r) := by
  induction fuel generalizing t with
  | zero =>
    have hcnt := h.cnt_lt
    omega
  | succ fuel ih =>
    obtain ⟨-, rt, t', hcall, ⟨rfl, h', hlt⟩ | rfl⟩ := @Sending.step packetLen version seq buf t
      hroom hpacket hlen h
    · obtain ⟨r, hr⟩ := ih (by omega) h'
      refine ⟨{ r with subpkgs := bleFrameSubpacket t' :: r.subpkgs }, ?_⟩
      simp only [sendPkgs, hcall, ↓reduceIte, hr]
    · refine ⟨⟨[bleFrameSubpacket t'], oprtOk, t', seq⟩, ?_⟩
      rw [sendPkgs, hcall]
      rfl

theorem create_step (hroom : RoomFor packetLen buf) (hpacket : packetLen < 65536)
    (hlen : buf.length < bleFrameLimit) :
    Progress packetLen version buf frameSeq (bleFrameTrsmitrCreate packetLen) ∧
      ∃ rt t', bleFrameTrsmitrSendPkgEncode packetLen frameSeq (bleFrameTrsmitrCreate packetLen)
          version buf buf.length = .ok (rt, t', (bleFrameSeqGet frameSeq).2) ∧
        (rt = oprtSvcBtApiTrsmitrContinue ∧ buf ≠ [] ∧ Sending packetLen buf t' ∨
          rt = oprtOk) := by
  set t := bleFrameTrsmitrCreate packetLen
  set s : BleFrameTrsmitr :=
    { t with total := buf.length, version := version, seq := (bleFrameSeqGet frameSeq).1 } with hs
  have hstart : (sendStart t version buf.length frameSeq).1 = s := rfl
  have hhead : (sendHead s buf.length).length = (Varint.encode 4 buf.length).length + 2 :=
    length_firstHead version (bleFrameSeqGet frameSeq).1 buf.length
  have hle := hroom.length_le
  have hsubs : s.subpkg.length = packetLen := List.length_replicate
  obtain ⟨n, t', hn, -, hsub, hcnt, htotal, -, -, hdesc, hres⟩ :=
    @sendPkgEncode_of_init packetLen t buf frameSeq version
      (by rw [length_firstHead]; exact hle) hpacket List.length_replicate rfl hlen
  rw [length_firstHead] at hn
  have hdata := @sendData_eq packetLen buf.length (sendHead s buf.length).length 0 hpacket
    (by omega) (Nat.zero_le _) hlen
  have hprog {rt : OperateRet} {seq' : Nat} (hcall : bleFrameTrsmitrSendPkgEncode packetLen
      frameSeq t version buf buf.length = .ok (rt, t', seq')) :
      Progress packetLen version buf frameSeq t := by
    obtain ⟨hsublen, hfits, -⟩ :=
      subpkgLen_of_sendPkgEncode (by rw [hstart]; exact bleFrameLimit_pos) hlen hcall
    rw [hstart] at hsublen hfits
    have hcnts : s.pkgTrsmitrCnt = 0 := rfl
    rw [hcnts, hdata] at hsublen
    refine ⟨rt, t', seq', hcall, .inr ⟨hfits.trans_eq hsubs, fun hmore => ?_⟩⟩
    have hlt := hroom.length_lt (List.length_pos_iff.mp (lt_of_le_of_lt (Nat.zero_le _) hmore))
    rw [hstart, hcnts] at hmore
    rw [hstart]
    omega
  rcases hres with ⟨hmore, hnum, hcall⟩ | ⟨-, hcall⟩
  · have hbuf : buf ≠ [] := List.length_pos_iff.mp (by omega)
    have hlt := hroom.length_lt hbuf
    refine ⟨hprog hcall, _, t', hcall, .inl ⟨rfl, hbuf, hsub, hdesc, htotal, ?_, ?_, ?_⟩⟩
    all_goals omega
  · exact ⟨hprog hcall, _, t', hcall, .inr rfl⟩

/-! ### All packet lengths -/

theorem EncoderReaches.create_or_sending (hroom : RoomFor packetLen buf)
    (hpacket : packetLen < 65536) (hlen : buf.length < bleFrameLimit)
    (h : EncoderReaches packetLen version buf frameSeq seq t) :
    seq = frameSeq ∧ t = bleFrameTrsmitrCreate packetLen ∨ buf ≠ [] ∧ Sending packetLen buf t := by
  induction h with
  | create => exact .inl ⟨rfl, rfl⟩
  | @next seq seq' t t' _ hcall ih =>
    have hcont : oprtSvcBtApiTrsmitrContinue ≠ oprtOk := by decide
    rcases ih with ⟨rfl, rfl⟩ | ⟨hbuf, hsending⟩
    · obtain ⟨-, rt, t₁, hcall₁, hres⟩ := @create_step packetLen version seq buf hroom hpacket hlen
      rw [hcall] at hcall₁
      obtain ⟨rfl, hrest⟩ := Prod.mk.inj (Except.ok.inj hcall₁)
      obtain ⟨rfl, -⟩ := Prod.mk.inj hrest
      rcases hres with ⟨-, hsending⟩ | hok
      · exact .inr hsending
      · exact absurd hok hcont
    · obtain ⟨-, rt, t₁, hcall₁, hres⟩ :=
        @Sending.step packetLen version seq buf t (hroom.length_lt hbuf) hpacket hlen hsending
      rw [hcall] at hcall₁
      obtain ⟨rfl, hrest⟩ := Prod.mk.inj (Except.ok.inj hcall₁)
      obtain ⟨rfl, -⟩ := Prod.mk.inj hrest
      rcases hres with ⟨-, h', -⟩ | hok
      · exact .inr ⟨hbuf, h'⟩
      · exact absurd hok hcont

/-- **The encoder makes progress** and the loop ends just when a packet has room for the head of
subpacket 0 and, unless the frame is empty, for one byte behind it. -/
theorem makesProgress_iff (hpacket : packetLen < 65536) (hlen : buf.length < bleFrameLimit) :
    MakesProgress packetLen version buf frameSeq ↔ RoomFor packetLen buf := by
  constructor
  · rintro ⟨hprog, -⟩
    exact roomFor_of_progress hpacket hlen (hprog _ _ .create)
  · intro hroom
    obtain ⟨hfirst, rt, t', hcall, hres⟩ :=
      @create_step packetLen version frameSeq buf hroom hpacket hlen
    refine ⟨fun seq t h => ?_, ?_⟩
    · rcases h.create_or_sending hroom hpacket hlen with ⟨rfl, rfl⟩ | ⟨hbuf, hsending⟩
      · exact hfirst
      · exact (hsending.step (hroom.length_lt hbuf) hpacket hlen).1
    · rcases hres with ⟨rfl, hbuf, hsending⟩ | rfl
      · obtain ⟨r, hr⟩ := @Sending.exists_sendPkgs packetLen version (bleFrameSeqGet frameSeq).2 buf
          t' (hroom.length_lt hbuf) hpacket hlen buf.length (Nat.sub_le _ _) hsending
        refine ⟨buf.length + 1, { r with subpkgs := bleFrameSubpacket t' :: r.subpkgs }, ?_⟩
        simp only [sendPkgs, hcall, ↓reduceIte, hr]
      · refine ⟨1, ⟨[bleFrameSubpacket t'], oprtOk, t', (bleFrameSeqGet frameSeq).2⟩, ?_⟩
        rw [sendPkgs, hcall]
        rfl

/-- Two bytes on a connection with packets of 20. -/
theorem makesProgress_iff_twenty : MakesProgress 20 4 [1, 2] 0 ↔ RoomFor 20 [1, 2] :=
  makesProgress_iff (by decide) (by decide)

/-- A peer asks for a packet length of 3: subpacket 0 is a head without data. -/
theorem not_makesProgress_three :
    ¬∀ packetLen version buf frameSeq, packetLen < 65536 → buf.length < bleFrameLimit →
      MakesProgress packetLen version buf frameSeq := by
  intro h
  obtain ⟨hprog, -⟩ := h 3 4 [1, 2] 0 (by decide) (by decide)
  obtain ⟨rt, t', seq', hcall, hres⟩ := hprog _ _ .create
  have hfirst : bleFrameTrsmitrSendPkgEncode 3 0 (bleFrameTrsmitrCreate 3) 4 [1, 2] 2 =
      .ok (oprtSvcBtApiTrsmitrContinue,
        ⟨2, 4, 0, .pkgFirst, 1, 0, 3, [0, 2, 0x40]⟩, 1) := by
    decide +kernel
  have hcall' := hfirst.symm.trans hcall
  obtain ⟨rfl, hrest⟩ := Prod.mk.inj (Except.ok.inj hcall')
  obtain ⟨rfl, -⟩ := Prod.mk.inj hrest
  rcases hres with ⟨-, hcont⟩ | ⟨-, hdata⟩
  · exact hcont rfl
  · exact absurd (hdata (by decide)) (by decide)

end Progress

end TuyaOpen.Ble
