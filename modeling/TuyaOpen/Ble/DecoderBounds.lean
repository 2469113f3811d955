import TuyaOpen.Basic.Transition
import TuyaOpen.Ble.Transmitter

/-!
# The BLE decoder on arbitrary input

`ble_frame_trsmitr_recv_pkg_decode` on subpackets of a peer that sends what it likes, while
`ble_dev_info_req` replaces `subpkg` by memory of a size that the peer has asked for. The decoder
reads the head of a subpacket without looking at its length, and copies the data without looking at
the size of `subpkg`; the check of `raw_data_len` is commented out.
-/

namespace TuyaOpen.Ble

/-! ### Runs of the decoder -/

/-- A subpacket for the decoder, and the part of `ble_dev_info_req` that replaces `subpkg`: the
packet length of the request, and whether memory could be allocated. -/
inductive DecoderEvent
  | packet (raw : Bytes)
  | devInfoReq (pkgLen : UInt16) (allocated : Bool)

def decoderNext (t : BleFrameTrsmitr) : DecoderEvent → BleFrameTrsmitr
  | .packet raw =>
    match bleFrameTrsmitrRecvPkgDecode t raw with
    | .error _ => t
    | .ok (_, t) => t
  | .devInfoReq pkgLen allocated =>
    { t with subpkg := if allocated then List.replicate pkgLen.toNat 0 else [] }

/-- A call neither reads behind the subpacket nor writes behind `subpkg`, and has not counted more
bytes than the frame has. -/
def Bounded (t : BleFrameTrsmitr) : DecoderEvent → Prop
  | .packet raw => ∃ rt t', bleFrameTrsmitrRecvPkgDecode t raw = .ok (rt, t') ∧
      t'.pkgTrsmitrCnt ≤ t'.total
  | .devInfoReq _ _ => t.pkgTrsmitrCnt ≤ t.total

def HeadComplete (raw : Bytes) : Prop :=
  match Varint.decode 4 raw with
  | none => False
  | some (num, rest) =>
    num = 0 →
      match Varint.decode 4 rest with
      | none => False
      | some (_, rest) => rest ≠ []

/-- The number of bytes behind the head that are taken over: those of subpacket 0 and of the next
subpacket, as far as they belong to the frame. -/
def copiedLen (t : BleFrameTrsmitr) (raw : Bytes) : Nat :=
  match Varint.decode 4 raw with
  | none => 0
  | some (num, rest) =>
    if num = 0 then
      match Varint.decode 4 rest with
      | some (total, _ :: data) => min total data.length
      | _ => 0
    else if num = t.subpkgNum + 1 then min (t.total - t.pkgTrsmitrCnt) rest.length
    else 0

/-- The subpacket has its head, and `subpkg` has room for its data. -/
def Decodable (t : BleFrameTrsmitr) : DecoderEvent → Prop
  | .packet raw => HeadComplete raw ∧ copiedLen t raw ≤ t.subpkg.length
  | .devInfoReq _ _ => True

/-! ### One call -/

structure InOrder (t : BleFrameTrsmitr) : Prop where
  cnt_le : t.pkgTrsmitrCnt ≤ t.total
  total_lt : t.total < bleFrameLimit
  subpkgNum_lt : t.subpkgNum < bleFrameLimit
  init : t.pkgDesc = .pkgInit → t.total = 0 ∧ t.pkgTrsmitrCnt = 0

theorem inOrder_create (packetLen : Nat) : InOrder (bleFrameTrsmitrCreate packetLen) :=
  ⟨Nat.le_refl 0, bleFrameLimit_pos, bleFrameLimit_pos, fun _ => ⟨rfl, rfl⟩⟩

section Call

variable {t : BleFrameTrsmitr} {raw rest : Bytes}

theorem InOrder.recvData (h : InOrder t) (hinit : t.pkgDesc ≠ .pkgInit)
    (hfits : min (t.total - t.pkgTrsmitrCnt) rest.length ≤ t.subpkg.length) :
    ∃ rt t', recvData t rest = .ok (rt, t') ∧ InOrder t' := by
  have hcnt := h.cnt_le
  have htotal := h.total_lt
  simp only [bleFrameLimit] at htotal
  have hleft : u32Sub t.total t.pkgTrsmitrCnt = t.total - t.pkgTrsmitrCnt :=
    u32Sub_of_le (by omega) hcnt
  rw [Ble.recvData, hleft]
  have hn : (if t.total - t.pkgTrsmitrCnt < rest.length then t.total - t.pkgTrsmitrCnt
      else rest.length) = min (t.total - t.pkgTrsmitrCnt) rest.length := by
    split_ifs <;> omega
  rw [hn]
  set n := min (t.total - t.pkgTrsmitrCnt) rest.length
  have hle : n ≤ t.total - t.pkgTrsmitrCnt := Nat.min_le_left _ _
  have hsum : u32 (t.pkgTrsmitrCnt + n) = t.pkgTrsmitrCnt + n := u32_of_lt (by omega)
  have hcopy : 0 + (rest.take n).length ≤ t.subpkg.length := by
    rw [List.length_take]
    omega
  simp only [memcpy_of_le hcopy, hsum]
  split_ifs with hmore
  · exact ⟨_, _, rfl, Nat.le_of_lt hmore, h.total_lt, h.subpkgNum_lt, fun hi => absurd hi hinit⟩
  · refine ⟨_, _, rfl, ?_, h.total_lt, h.subpkgNum_lt, fun hi => by cases hi⟩
    show t.pkgTrsmitrCnt + n ≤ t.total
    omega

theorem recvData_of_lt (hcnt : t.pkgTrsmitrCnt ≤ t.total) (htotal : t.total < bleFrameLimit)
    (hlong : t.subpkg.length < min (t.total - t.pkgTrsmitrCnt) rest.length) :
    recvData t rest = .error .recvSubpkg := by
  simp only [bleFrameLimit] at htotal
  have hleft : u32Sub t.total t.pkgTrsmitrCnt = t.total - t.pkgTrsmitrCnt :=
    u32Sub_of_le (by omega) hcnt
  rw [recvData, hleft]
  have hn : (if t.total - t.pkgTrsmitrCnt < rest.length then t.total - t.pkgTrsmitrCnt
      else rest.length) = min (t.total - t.pkgTrsmitrCnt) rest.length := by
    split_ifs <;> omega
  have hcopy : t.subpkg.length < 0 + (rest.take
      (min (t.total - t.pkgTrsmitrCnt) rest.length)).length := by
    rw [List.length_take]
    omega
  simp only [hn, memcpy_eq_none hcopy]

theorem InOrder.recvFirst {total : Nat} {b : UInt8} {data : Bytes} (h : InOrder t)
    (hinit : t.pkgDesc ≠ .pkgInit) (hzero : t.pkgTrsmitrCnt = 0)
    (hvar : Varint.decode 4 rest = some (total, b :: data)) :
    (min total data.length ≤ t.subpkg.length →
        ∃ rt t', recvFirst t rest = .ok (rt, t') ∧ InOrder t') ∧
      (t.subpkg.length < min total data.length → recvFirst t rest = .error .recvSubpkg) := by
  obtain ⟨-, -, -, htotal⟩ := Varint.exists_of_decode hvar
  have hlimit : total < bleFrameLimit := htotal
  rw [Ble.recvFirst, hvar]
  dsimp only
  rw [if_neg (Nat.not_le.mpr hlimit)]
  set t₁ : BleFrameTrsmitr :=
    { t with total := total, version := b.toNat / 16, seq := b.toNat % 16 }
  have hleft : t₁.total - t₁.pkgTrsmitrCnt = total := by
    show total - t.pkgTrsmitrCnt = total
    rw [hzero, Nat.sub_zero]
  have hcnt : t₁.pkgTrsmitrCnt ≤ t₁.total := by
    show t.pkgTrsmitrCnt ≤ total
    rw [hzero]
    exact Nat.zero_le total
  have h₁ : InOrder t₁ := ⟨hcnt, hlimit, h.subpkgNum_lt, fun hi => absurd hi hinit⟩
  constructor
  · intro hfits
    exact h₁.recvData hinit (by rwa [hleft])
  · intro hlong
    exact recvData_of_lt hcnt hlimit (by rwa [hleft])

theorem InOrder.recvNumber (h : InOrder t) (num : Nat) :
    InOrder (recvNumber t num) ∧ (Ble.recvNumber t num).subpkg = t.subpkg ∧
      (Ble.recvNumber t num).subpkgNum = t.subpkgNum ∧
      (Ble.recvNumber t num).pkgDesc ≠ .pkgInit ∧
      (num = 0 → (Ble.recvNumber t num).pkgTrsmitrCnt = 0) ∧
      (num ≠ 0 → (Ble.recvNumber t num).total = t.total ∧
        (Ble.recvNumber t num).pkgTrsmitrCnt = t.pkgTrsmitrCnt) := by
  have hclear : t.pkgDesc = .pkgInit → t.total = 0 ∧ t.pkgTrsmitrCnt = 0 := h.init
  unfold Ble.recvNumber
  by_cases hnum : num = 0
  · have hdesc : BleFramePkgDesc.pkgFirst ≠ .pkgInit := by decide
    dsimp only
    rw [if_pos hnum]
    split_ifs
    all_goals
      exact ⟨⟨Nat.le_refl 0, bleFrameLimit_pos, h.subpkgNum_lt, fun hi => absurd hi hdesc⟩, rfl,
        rfl, hdesc, fun _ => rfl, fun hn => absurd hnum hn⟩
  · have hdesc : BleFramePkgDesc.pkgMiddle ≠ .pkgInit := by decide
    dsimp only
    rw [if_neg hnum]
    split_ifs with hinit
    · obtain ⟨htotal, hcnt⟩ := hclear hinit
      exact ⟨⟨Nat.le_refl 0, bleFrameLimit_pos, h.subpkgNum_lt, fun hi => absurd hi hdesc⟩, rfl,
        rfl, hdesc, fun hn => absurd hn hnum, fun _ => ⟨htotal.symm, hcnt.symm⟩⟩
    · exact ⟨⟨h.cnt_le, h.total_lt, h.subpkgNum_lt, fun hi => absurd hi hdesc⟩, rfl, rfl, hdesc,
        fun hn => absurd hn hnum, fun _ => ⟨rfl, rfl⟩⟩

theorem recvPkgDecode_cases (h : InOrder t) (raw : Bytes) :
    (Decodable t (.packet raw) ∧
        ∃ rt t', bleFrameTrsmitrRecvPkgDecode t raw = .ok (rt, t') ∧ InOrder t') ∨
      (¬Decodable t (.packet raw) ∧ ∃ f, bleFrameTrsmitrRecvPkgDecode t raw = .error f) := by
  rw [Decodable, HeadComplete, copiedLen, bleFrameTrsmitrRecvPkgDecode]
  cases hvar : Varint.decode 4 raw with
  | none => exact Or.inr ⟨fun hd => hd.1, _, rfl⟩
  | some p =>
    obtain ⟨num, rest⟩ := p
    obtain ⟨h₁, hsub, hnum, hdesc, hzero, hkeep⟩ := h.recvNumber num
    obtain ⟨-, -, -, hlt⟩ := Varint.exists_of_decode hvar
    set t₁ := recvNumber t num
    dsimp only
    rw [if_neg (Nat.not_le.mpr h₁.subpkgNum_lt), ← hsub]
    by_cases hfirst : num = 0
    · -- Subpacket 0 has two more fields in its head.
      have h₂ : InOrder { t₁ with subpkgNum := 0 } :=
        ⟨h₁.cnt_le, h₁.total_lt, bleFrameLimit_pos, h₁.init⟩
      rw [if_pos hfirst, if_pos hfirst]
      cases hvar' : Varint.decode 4 rest with
      | none => exact Or.inr ⟨fun hd => hd.1 hfirst, _, by rw [recvFirst, hvar']⟩
      | some p =>
        obtain ⟨total, rest'⟩ := p
        cases rest' with
        | nil =>
          refine Or.inr ⟨fun hd => hd.1 hfirst rfl, ?_⟩
          rw [recvFirst, hvar']
          dsimp only
          split_ifs with hlimit
          · obtain ⟨-, -, -, htotal⟩ := Varint.exists_of_decode hvar'
            exact absurd htotal (Nat.not_lt.mpr hlimit)
          · exact ⟨_, rfl⟩
        | cons b data =>
          obtain ⟨hfits, hlong⟩ := h₂.recvFirst hdesc (hzero hfirst) hvar'
          by_cases hle : min total data.length ≤ t₁.subpkg.length
          · exact Or.inl ⟨⟨fun _ => List.cons_ne_nil b data, hle⟩, hfits hle⟩
          · exact Or.inr ⟨fun hd => hle hd.2, _, hlong (Nat.lt_of_not_le hle)⟩
    · obtain ⟨htotal, hcnt⟩ := hkeep hfirst
      rw [if_neg hfirst, if_neg hfirst, hnum]
      by_cases hnext : num = t.subpkgNum + 1
      · have h₂ : InOrder { t₁ with subpkgNum := num } :=
          ⟨h₁.cnt_le, h₁.total_lt, hlt, h₁.init⟩
        rw [if_pos hnext, if_neg (by omega), if_neg (by omega), if_neg (by omega), ← htotal, ← hcnt]
        by_cases hle : min (t₁.total - t₁.pkgTrsmitrCnt) rest.length ≤ t₁.subpkg.length
        · exact Or.inl ⟨⟨fun hn => absurd hn hfirst, hle⟩, h₂.recvData hdesc hle⟩
        · exact Or.inr ⟨fun hd => hle hd.2, _,
            recvData_of_lt h₂.cnt_le h₂.total_lt (Nat.lt_of_not_le hle)⟩
      · -- Nothing is copied.
        rw [if_neg hnext]
        refine Or.inl ⟨⟨fun hn => absurd hn hfirst, Nat.zero_le _⟩, ?_⟩
        split_ifs
        · exact ⟨_, _, rfl, h₁⟩
        · exact ⟨_, _, rfl, h₁⟩
        · exact ⟨_, _, rfl, h₁⟩
        · omega

end Call

/-! ### Runs -/

/-- **A decoder is bounded** along a run of subpackets and requests just when every subpacket of it
has all bytes of its head and no more data than fits into `subpkg`. -/
theorem guarded_bounded_iff (packetLen : Nat) (evs : List DecoderEvent) :
    Guarded decoderNext Bounded (bleFrameTrsmitrCreate packetLen) evs ↔
      Guarded decoderNext Decodable (bleFrameTrsmitrCreate packetLen) evs := by
  refine guarded_iff_of_invariant (fun t ev (h : InOrder t) => ?_) (fun t ev h hcond => ?_)
    (inOrder_create packetLen)
  · cases ev with
    | packet raw =>
      rcases recvPkgDecode_cases h raw with ⟨hd, rt, t', hok, h'⟩ | ⟨hd, f, herr⟩
      · exact iff_of_true ⟨rt, t', hok, h'.cnt_le⟩ hd
      · refine iff_of_false ?_ hd
        rintro ⟨rt, t', hok, -⟩
        rw [herr] at hok
        cases hok
    | devInfoReq pkgLen allocated => exact iff_of_true h.cnt_le trivial
  · cases ev with
    | packet raw =>
      rcases recvPkgDecode_cases h raw with ⟨-, rt, t', hok, h'⟩ | ⟨hd, -⟩
      · rw [decoderNext, hok]
        exact h'
      · exact absurd hcond hd
    | devInfoReq pkgLen allocated => exact ⟨h.cnt_le, h.total_lt, h.subpkgNum_lt, h.init⟩

/-- A peer asks for a packet length of 1 and sends a frame of two bytes in one subpacket. -/
theorem not_guarded_bounded :
    ¬∀ packetLen evs, Guarded decoderNext Bounded (bleFrameTrsmitrCreate packetLen) evs := by
  intro h
  obtain ⟨-, ⟨rt, t', hok, -⟩, -⟩ :=
    h 1024 [.devInfoReq 1 true, .packet [0, 2, 0x40, 7, 7]]
  have herr : bleFrameTrsmitrRecvPkgDecode
      (decoderNext (bleFrameTrsmitrCreate 1024) (.devInfoReq 1 true)) [0, 2, 0x40, 7, 7] =
        .error .recvSubpkg := by
    decide +kernel
  rw [herr] at hok
  cases hok

end TuyaOpen.Ble
