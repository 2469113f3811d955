import TuyaOpen.Basic.Varint
import TuyaOpen.Common.OperateRet

/-!
# The BLE transmitter

`ble_trsmitr.c`: a frame is cut into subpackets that fit the packet length of the connection, and
put together again. A subpacket is

  subpacket number + (length of the frame + version and sequence) + data,

the part in parentheses in subpacket 0 only; the two integers take seven bits a byte.

The sequence counter `s_ble_frame_seq` and the packet length `s_ble_frame_packet_len` are
arguments. Pointers are never `NULL`.
-/

namespace TuyaOpen.Ble

/-- The places where a function of the BLE service can access memory outside the object it works
on. -/
inductive MemFault
  | sendSubpkg
  | sendSource
  | recvHead
  | recvSubpkg
  | bleFrame
  | rawBuf
  deriving DecidableEq

/-! ### The transmitter -/

/-- `ble_frame_pkg_desc_t`. -/
inductive BleFramePkgDesc
  | pkgInit
  | pkgFirst
  | pkgMiddle
  | pkgEnd
  deriving DecidableEq

/-- `ble_frame_trsmitr_t`. The memory `subpkg` is as long as it was allocated. -/
structure BleFrameTrsmitr where
  total : Nat
  version : Nat
  seq : Nat
  pkgDesc : BleFramePkgDesc
  subpkgNum : Nat
  pkgTrsmitrCnt : Nat
  subpkgLen : Nat
  subpkg : Bytes
  deriving DecidableEq

/-- `ble_frame_trsmitr_create`, when memory can be allocated. -/
def bleFrameTrsmitrCreate (packetLen : Nat) : BleFrameTrsmitr :=
  ⟨0, 0, 0, .pkgInit, 0, 0, 0, List.replicate packetLen 0⟩

/-- The bytes that `ble_frame_subpacket_get` and `ble_frame_subpacket_len_get` give. -/
def bleFrameSubpacket (t : BleFrameTrsmitr) : Bytes := t.subpkg.take t.subpkgLen

/-- `BLE_FRAME_SEQ_LMT`. -/
def bleFrameSeqLmt : Nat := 16

/-- `ble_frame_seq_get`: the sequence, and the new value of `s_ble_frame_seq`. -/
def bleFrameSeqGet (frameSeq : Nat) : Nat × Nat :=
  if bleFrameSeqLmt ≤ frameSeq then (0, frameSeq) else (frameSeq, frameSeq + 1)

def bleFrameLimit : Nat := 0x10000000

theorem bleFrameLimit_pos : 0 < bleFrameLimit := by decide

/-! ### Encoding -/

/-- The state in which `ble_frame_trsmitr_send_pkg_encode` starts. -/
def sendStart (t : BleFrameTrsmitr) (version len frameSeq : Nat) : BleFrameTrsmitr × Nat :=
  if t.pkgDesc = .pkgInit then
    ({ t with
        total := len
        version := version
        seq := (bleFrameSeqGet frameSeq).1
        subpkgNum := 0
        pkgTrsmitrCnt := 0 }, (bleFrameSeqGet frameSeq).2)
  else (t, frameSeq)

/-- The byte with version and sequence: `(version << 0x04) | (seq & 0x0f)`. -/
def versionByte (version seq : Nat) : UInt8 := UInt8.ofNat (version * 16 + seq % 16)

def sendHead (t : BleFrameTrsmitr) (len : Nat) : Bytes :=
  Varint.encode 4 t.subpkgNum ++
    if t.subpkgNum = 0 then Varint.encode 4 len ++ [versionByte t.version t.seq] else []

/-- `send_data`: how many bytes of data go behind `offset` bytes. -/
def sendData (packetLen offset len cnt : Nat) : Nat :=
  if u32Sub len cnt < u16 (packetLen + 65536 - offset) then u32Sub len cnt
  else u16 (packetLen + 65536 - offset)

/-- `ble_frame_trsmitr_send_pkg_encode` behind its checks. -/
def sendSubpkg (packetLen : Nat) (t : BleFrameTrsmitr) (buf : Bytes) (len : Nat) :
    Except MemFault (OperateRet × BleFrameTrsmitr) :=
  let head := sendHead t len
  let n := sendData packetLen head.length len t.pkgTrsmitrCnt
  match readSpan buf t.pkgTrsmitrCnt n with
  | none => .error .sendSource
  | some data =>
    match memcpy t.subpkg 0 (head ++ data) with
    | none => .error .sendSubpkg
    | some subpkg =>
      let t' :=
        { t with
          subpkg := subpkg
          subpkgLen := head.length + n
          pkgTrsmitrCnt := u32 (t.pkgTrsmitrCnt + n)
          pkgDesc := if t.subpkgNum = 0 then .pkgFirst else .pkgMiddle }
      if t'.pkgTrsmitrCnt < t'.total then
        .ok (oprtSvcBtApiTrsmitrContinue, { t' with subpkgNum := t'.subpkgNum + 1 })
      else .ok (oprtOk, { t' with pkgDesc := .pkgEnd })

/-- `ble_frame_trsmitr_send_pkg_encode`: its return value, the new state and the new value of
`s_ble_frame_seq`. -/
def bleFrameTrsmitrSendPkgEncode (packetLen frameSeq : Nat) (t : BleFrameTrsmitr) (version : Nat)
    (buf : Bytes) (len : Nat) : Except MemFault (OperateRet × BleFrameTrsmitr × Nat) :=
  let s := sendStart t version len frameSeq
  if bleFrameLimit ≤ s.1.subpkgNum ∨ bleFrameLimit ≤ len then .ok (oprtComError, s.1, s.2)
  else
    match sendSubpkg packetLen s.1 buf len with
    | .error f => .error f
    | .ok (rt, t) => .ok (rt, t, s.2)

/-! ### Decoding -/

def clearFrame (t : BleFrameTrsmitr) : BleFrameTrsmitr :=
  { t with
    total := 0
    version := 0
    seq := 0
    pkgTrsmitrCnt := 0 }

def recvNumber (t : BleFrameTrsmitr) (num : Nat) : BleFrameTrsmitr :=
  let t := if t.pkgDesc = .pkgInit then clearFrame t else t
  if num = 0 then { clearFrame t with pkgDesc := .pkgFirst } else { t with pkgDesc := .pkgMiddle }

/-- The end of `ble_frame_trsmitr_recv_pkg_decode`: the data `rest` of a subpacket is taken over. -/
def recvData (t : BleFrameTrsmitr) (rest : Bytes) : Except MemFault (OperateRet × BleFrameTrsmitr) :=
  let left := u32Sub t.total t.pkgTrsmitrCnt
  let n := if left < rest.length then left else rest.length
  match memcpy t.subpkg 0 (rest.take n) with
  | none => .error .recvSubpkg
  | some subpkg =>
    let t' :=
      { t with
        subpkg := subpkg
        subpkgLen := n
        pkgTrsmitrCnt := u32 (t.pkgTrsmitrCnt + n) }
    if t'.pkgTrsmitrCnt < t'.total then .ok (oprtSvcBtApiTrsmitrContinue, t')
    else .ok (oprtOk, { t' with pkgDesc := .pkgEnd })

/-- The part of `ble_frame_trsmitr_recv_pkg_decode` for subpacket 0. -/
def recvFirst (t : BleFrameTrsmitr) (rest : Bytes) :
    Except MemFault (OperateRet × BleFrameTrsmitr) :=
  match Varint.decode 4 rest with
  | none => .error .recvHead
  | some (total, rest) =>
    if bleFrameLimit ≤ total then .ok (oprtComError, { t with total := total })
    else
      match rest with
      | [] => .error .recvHead
      | b :: rest =>
        recvData { t with total := total, version := b.toNat / 16, seq := b.toNat % 16 } rest

/-- `ble_frame_trsmitr_recv_pkg_decode`. A subpacket that ends inside its head is read beyond its
end. -/
def bleFrameTrsmitrRecvPkgDecode (t : BleFrameTrsmitr) (raw : Bytes) :
    Except MemFault (OperateRet × BleFrameTrsmitr) :=
  match Varint.decode 4 raw with
  | none => .error .recvHead
  | some (num, rest) =>
    let t := recvNumber t num
    if bleFrameLimit ≤ t.subpkgNum then .ok (oprtComError, t)
    else if num = 0 then recvFirst { t with subpkgNum := 0 } rest
    else if num < t.subpkgNum then .ok (oprtSvcBtApiTrsmitrError, t)
    else if num = t.subpkgNum then .ok (oprtSvcBtApiTrsmitrContinue, t)
    else if 1 < num - t.subpkgNum then .ok (oprtSvcBtApiTrsmitrError, t)
    else recvData { t with subpkgNum := num } rest

def isFirstSubpkg (t : BleFrameTrsmitr) : Bool :=
  t.pkgDesc = .pkgFirst || (t.pkgDesc = .pkgEnd && t.subpkgNum = 0)

/-! ### One subpacket -/

section Subpacket

variable {packetLen len : Nat} {t : BleFrameTrsmitr} {buf rest : Bytes}

theorem length_sendHead_le (t : BleFrameTrsmitr) (len : Nat) : (sendHead t len).length ≤ 9 := by
  have hnum := Varint.length_encode_le 4 t.subpkgNum
  have hlen := Varint.length_encode_le 4 len
  unfold sendHead
  split_ifs
  · rw [List.length_append, List.length_append, List.length_singleton]
    omega
  · rw [List.length_append, List.length_nil]
    omega

theorem length_sendHead_of_ne (h : t.subpkgNum ≠ 0) :
    sendHead t len = Varint.encode 4 t.subpkgNum := by
  rw [sendHead, if_neg h, List.append_nil]

theorem sendData_eq {offset cnt : Nat} (hpacket : packetLen < 65536) (hoffset : offset ≤ packetLen)
    (hcnt : cnt ≤ len) (hlen : len < bleFrameLimit) :
    sendData packetLen offset len cnt = min (len - cnt) (packetLen - offset) := by
  have hroom : u16 (packetLen + 65536 - offset) = packetLen - offset := by
    rw [u16]
    omega
  simp only [bleFrameLimit] at hlen
  rw [sendData, hroom, u32Sub_of_le (by omega) hcnt]
  split_ifs <;> omega

theorem sendSubpkg_spec (hhead : (sendHead t buf.length).length ≤ packetLen)
    (hpacket : packetLen < 65536) (hsub : t.subpkg.length = packetLen)
    (hcnt : t.pkgTrsmitrCnt ≤ buf.length) (hlen : buf.length < bleFrameLimit)
    (htotal : t.total = buf.length) :
    ∃ n t', n = min (buf.length - t.pkgTrsmitrCnt) (packetLen - (sendHead t buf.length).length) ∧
      bleFrameSubpacket t' = sendHead t buf.length ++ slice buf t.pkgTrsmitrCnt n ∧
      t'.subpkg.length = packetLen ∧ t'.pkgTrsmitrCnt = t.pkgTrsmitrCnt + n ∧
      t'.total = buf.length ∧ t'.version = t.version ∧ t'.seq = t.seq ∧
      t'.pkgDesc ≠ .pkgInit ∧
      (t.pkgTrsmitrCnt + n < buf.length ∧ t'.subpkgNum = t.subpkgNum + 1 ∧
          sendSubpkg packetLen t buf buf.length = .ok (oprtSvcBtApiTrsmitrContinue, t') ∨
        t.pkgTrsmitrCnt + n = buf.length ∧
          sendSubpkg packetLen t buf buf.length = .ok (oprtOk, t')) := by
  have hdata := sendData_eq hpacket hhead hcnt hlen
  set head := sendHead t buf.length with hheaddef
  set n := min (buf.length - t.pkgTrsmitrCnt) (packetLen - head.length) with hn
  have hspan : t.pkgTrsmitrCnt + n ≤ buf.length := by omega
  have hslice : (slice buf t.pkgTrsmitrCnt n).length = n := length_slice hspan
  obtain ⟨subpkg, hsubpkg⟩ : ∃ subpkg,
      memcpy t.subpkg 0 (head ++ slice buf t.pkgTrsmitrCnt n) = some subpkg := by
    refine ⟨_, memcpy_of_le ?_⟩
    rw [List.length_append, hslice]
    omega
  have htake := take_memcpy hsubpkg
  rw [Nat.zero_add, List.length_append, hslice, List.take_zero, List.nil_append] at htake
  have hcount : u32 (t.pkgTrsmitrCnt + n) = t.pkgTrsmitrCnt + n := by
    simp only [bleFrameLimit] at hlen
    exact u32_of_lt (by omega)
  have hsend := rfl (a := sendSubpkg packetLen t buf buf.length)
  conv_rhs at hsend => rw [sendSubpkg]
  simp only [← hheaddef, hdata, readSpan_of_le hspan, hsubpkg, hcount, htotal] at hsend
  by_cases hmore : t.pkgTrsmitrCnt + n < buf.length
  · rw [if_pos hmore] at hsend
    refine ⟨n, _, rfl, ?_, ?_, ?_, ?_, ?_, ?_, ?_, .inl ⟨hmore, ?_, hsend⟩⟩
    · exact htake
    · exact (length_of_memcpy hsubpkg).trans hsub
    · rfl
    · rfl
    · rfl
    · rfl
    · dsimp only
      split_ifs <;> decide
    · rfl
  · rw [if_neg hmore] at hsend
    refine ⟨n, _, rfl, ?_, ?_, ?_, ?_, ?_, ?_, ?_, .inr ⟨by omega, hsend⟩⟩
    · exact htake
    · exact (length_of_memcpy hsubpkg).trans hsub
    · rfl
    · rfl
    · rfl
    · rfl
    · exact BleFramePkgDesc.noConfusion

theorem exists_of_sendSubpkg {rt : OperateRet} {t' : BleFrameTrsmitr}
    (h : sendSubpkg packetLen t buf len = .ok (rt, t')) :
    let n := sendData packetLen (sendHead t len).length len t.pkgTrsmitrCnt
    ∃ data, readSpan buf t.pkgTrsmitrCnt n = some data ∧
      memcpy t.subpkg 0 (sendHead t len ++ data) = some t'.subpkg ∧
      t'.subpkgLen = (sendHead t len).length + n ∧ t'.seq = t.seq ∧
      (rt = oprtOk ∨ rt = oprtSvcBtApiTrsmitrContinue) := by
  rw [sendSubpkg] at h
  dsimp only
  -- the kernel is not to compute the lengths
  generalize sendData packetLen (sendHead t len).length len t.pkgTrsmitrCnt = n at h ⊢
  cases hdata : readSpan buf t.pkgTrsmitrCnt n with
  | none =>
    rw [hdata] at h
    cases h
  | some data =>
    rw [hdata] at h
    dsimp only at h
    cases hsubpkg : memcpy t.subpkg 0 (sendHead t len ++ data) with
    | none =>
      rw [hsubpkg] at h
      cases h
    | some subpkg =>
      rw [hsubpkg] at h
      dsimp only at h
      split at h
      · obtain ⟨rfl, rfl⟩ := Prod.mk.inj (Except.ok.inj h)
        exact ⟨data, rfl, hsubpkg, rfl, rfl, .inr rfl⟩
      · obtain ⟨rfl, rfl⟩ := Prod.mk.inj (Except.ok.inj h)
        exact ⟨data, rfl, hsubpkg, rfl, rfl, .inl rfl⟩

theorem sendPkgEncode_cases {version frameSeq frameSeq' : Nat} {rt : OperateRet}
    {t' : BleFrameTrsmitr}
    (h : bleFrameTrsmitrSendPkgEncode packetLen frameSeq t version buf len =
      .ok (rt, t', frameSeq')) :
    let s := sendStart t version len frameSeq
    frameSeq' = s.2 ∧
      ((rt = oprtComError ∧ t' = s.1 ∧ (bleFrameLimit ≤ s.1.subpkgNum ∨ bleFrameLimit ≤ len)) ∨
        (sendSubpkg packetLen s.1 buf len = .ok (rt, t') ∧ s.1.subpkgNum < bleFrameLimit ∧
          len < bleFrameLimit)) := by
  rw [bleFrameTrsmitrSendPkgEncode] at h
  dsimp only
  generalize sendStart t version len frameSeq = s at h ⊢
  by_cases hlimit : bleFrameLimit ≤ s.1.subpkgNum ∨ bleFrameLimit ≤ len
  · rw [if_pos hlimit] at h
    obtain ⟨rfl, hrest⟩ := Prod.mk.inj (Except.ok.inj h)
    obtain ⟨rfl, rfl⟩ := Prod.mk.inj hrest
    exact ⟨rfl, Or.inl ⟨rfl, rfl, hlimit⟩⟩
  · rw [if_neg hlimit] at h
    obtain ⟨hnum, hlen⟩ := not_or.1 hlimit
    cases hsend : sendSubpkg packetLen s.1 buf len with
    | error f =>
      rw [hsend] at h
      cases h
    | ok r =>
      rw [hsend] at h
      obtain ⟨rfl, hrest⟩ := Prod.mk.inj (Except.ok.inj h)
      obtain ⟨rfl, rfl⟩ := Prod.mk.inj hrest
      exact ⟨rfl, Or.inr ⟨rfl, Nat.not_le.1 hnum, Nat.not_le.1 hlen⟩⟩

theorem recvData_spec (hrest : rest.length ≤ t.subpkg.length)
    (hcnt : t.pkgTrsmitrCnt + rest.length ≤ t.total) (htotal : t.total < bleFrameLimit) :
    ∃ t', bleFrameSubpacket t' = rest ∧ t'.subpkgLen = rest.length ∧
      t'.subpkg.length = t.subpkg.length ∧ t'.pkgTrsmitrCnt = t.pkgTrsmitrCnt + rest.length ∧
      t'.total = t.total ∧ t'.version = t.version ∧ t'.seq = t.seq ∧
      t'.subpkgNum = t.subpkgNum ∧
      (t.pkgTrsmitrCnt + rest.length < t.total ∧ t'.pkgDesc = t.pkgDesc ∧
          recvData t rest = .ok (oprtSvcBtApiTrsmitrContinue, t') ∨
        t.pkgTrsmitrCnt + rest.length = t.total ∧ t'.pkgDesc = .pkgEnd ∧
          recvData t rest = .ok (oprtOk, t')) := by
  simp only [bleFrameLimit] at htotal
  have hleft : u32Sub t.total t.pkgTrsmitrCnt = t.total - t.pkgTrsmitrCnt :=
    u32Sub_of_le (by omega) (by omega)
  have hn : (if t.total - t.pkgTrsmitrCnt < rest.length then t.total - t.pkgTrsmitrCnt
      else rest.length) = rest.length := if_neg (by omega)
  obtain ⟨subpkg, hsubpkg⟩ : ∃ subpkg, memcpy t.subpkg 0 rest = some subpkg :=
    ⟨_, memcpy_of_le (by omega)⟩
  have htake := take_memcpy hsubpkg
  rw [Nat.zero_add, List.take_zero, List.nil_append] at htake
  have hcount : u32 (t.pkgTrsmitrCnt + rest.length) = t.pkgTrsmitrCnt + rest.length :=
    u32_of_lt (by omega)
  have hrecv := rfl (a := recvData t rest)
  conv_rhs at hrecv => rw [recvData]
  simp only [hleft, hn, List.take_length, hsubpkg, hcount] at hrecv
  by_cases hmore : t.pkgTrsmitrCnt + rest.length < t.total
  · rw [if_pos hmore] at hrecv
    refine ⟨_, ?_, ?_, ?_, ?_, ?_, ?_, ?_, ?_, .inl ⟨hmore, ?_, hrecv⟩⟩
    · exact htake
    · rfl
    · exact length_of_memcpy hsubpkg
    all_goals rfl
  · rw [if_neg hmore] at hrecv
    refine ⟨_, ?_, ?_, ?_, ?_, ?_, ?_, ?_, ?_, .inr ⟨by omega, ?_, hrecv⟩⟩
    · exact htake
    · rfl
    · exact length_of_memcpy hsubpkg
    all_goals rfl

/-! ### One call -/

def firstHead (version seq len : Nat) : Bytes :=
  Varint.encode 4 0 ++ (Varint.encode 4 len ++ [versionByte version seq])

theorem length_firstHead (version seq len : Nat) :
    (firstHead version seq len).length = (Varint.encode 4 len).length + 2 := by
  have hzero : (Varint.encode 4 0).length = 1 := rfl
  rw [firstHead, List.length_append, List.length_append, List.length_singleton, hzero]
  omega

theorem length_firstHead_le (version seq len : Nat) : (firstHead version seq len).length ≤ 9 :=
  length_sendHead_le ⟨len, version, seq, .pkgInit, 0, 0, 0, []⟩ len

variable {frameSeq version : Nat}

theorem sendPkgEncode_of_init
    (hhead : (firstHead version (bleFrameSeqGet frameSeq).1 buf.length).length ≤ packetLen)
    (hpacket : packetLen < 65536) (hsub : t.subpkg.length = packetLen)
    (hinit : t.pkgDesc = .pkgInit)
    (hlen : buf.length < bleFrameLimit) :
    ∃ n t', n = min buf.length
        (packetLen - (firstHead version (bleFrameSeqGet frameSeq).1 buf.length).length) ∧
      bleFrameSubpacket t' =
        firstHead version (bleFrameSeqGet frameSeq).1 buf.length ++ slice buf 0 n ∧
      t'.subpkg.length = packetLen ∧ t'.pkgTrsmitrCnt = n ∧ t'.total = buf.length ∧
      t'.version = version ∧ t'.seq = (bleFrameSeqGet frameSeq).1 ∧ t'.pkgDesc ≠ .pkgInit ∧
      (n < buf.length ∧ t'.subpkgNum = 1 ∧
          bleFrameTrsmitrSendPkgEncode packetLen frameSeq t version buf buf.length =
            .ok (oprtSvcBtApiTrsmitrContinue, t', (bleFrameSeqGet frameSeq).2) ∨
        n = buf.length ∧
          bleFrameTrsmitrSendPkgEncode packetLen frameSeq t version buf buf.length =
            .ok (oprtOk, t', (bleFrameSeqGet frameSeq).2)) := by
  set te : BleFrameTrsmitr :=
    { t with
      total := buf.length
      version := version
      seq := (bleFrameSeqGet frameSeq).1
      subpkgNum := 0
      pkgTrsmitrCnt := 0 } with hte
  have hstart : sendStart t version buf.length frameSeq = (te, (bleFrameSeqGet frameSeq).2) :=
    if_pos hinit
  have hlimit : ¬(bleFrameLimit ≤ te.subpkgNum ∨ bleFrameLimit ≤ buf.length) :=
    not_or.mpr ⟨Nat.not_le.mpr (Nat.zero_lt_succ _), Nat.not_le.mpr hlen⟩
  have hencode : bleFrameTrsmitrSendPkgEncode packetLen frameSeq t version buf buf.length =
      match sendSubpkg packetLen te buf buf.length with
      | .error f => .error f
      | .ok (rt, t) => .ok (rt, t, (bleFrameSeqGet frameSeq).2) := by
    simp only [bleFrameTrsmitrSendPkgEncode, hstart]
    rw [if_neg hlimit]
  obtain ⟨n, t', hn, hsub', hlen', hcnt, htotal, hversion, hseq, hdesc, hres⟩ :=
    @sendSubpkg_spec packetLen te buf hhead hpacket hsub (Nat.zero_le _) hlen rfl
  refine ⟨n, t', hn, hsub', hlen', hcnt.trans (Nat.zero_add n), htotal, hversion, hseq, hdesc, ?_⟩
  have hzero : te.pkgTrsmitrCnt + n = n := Nat.zero_add n
  rw [hzero] at hres
  rcases hres with ⟨hmore, hnum, hsend⟩ | ⟨hdone, hsend⟩
  · exact .inl ⟨hmore, hnum, by rw [hencode, hsend]⟩
  · exact .inr ⟨hdone, by rw [hencode, hsend]⟩

theorem sendPkgEncode_of_sending (hhead : (Varint.encode 4 t.subpkgNum).length ≤ packetLen)
    (hpacket : packetLen < 65536) (hsub : t.subpkg.length = packetLen) (hinit : t.pkgDesc ≠ .pkgInit)
    (hlen : buf.length < bleFrameLimit) (htotal : t.total = buf.length)
    (hcnt : t.pkgTrsmitrCnt ≤ buf.length) (hnum : t.subpkgNum ≠ 0)
    (hlimit : t.subpkgNum < bleFrameLimit) :
    ∃ n t', n = min (buf.length - t.pkgTrsmitrCnt)
        (packetLen - (Varint.encode 4 t.subpkgNum).length) ∧
      bleFrameSubpacket t' = Varint.encode 4 t.subpkgNum ++ slice buf t.pkgTrsmitrCnt n ∧
      t'.subpkg.length = packetLen ∧ t'.pkgTrsmitrCnt = t.pkgTrsmitrCnt + n ∧
      t'.total = buf.length ∧ t'.version = t.version ∧ t'.seq = t.seq ∧ t'.pkgDesc ≠ .pkgInit ∧
      (t.pkgTrsmitrCnt + n < buf.length ∧ t'.subpkgNum = t.subpkgNum + 1 ∧
          bleFrameTrsmitrSendPkgEncode packetLen frameSeq t version buf buf.length =
            .ok (oprtSvcBtApiTrsmitrContinue, t', frameSeq) ∨
        t.pkgTrsmitrCnt + n = buf.length ∧
          bleFrameTrsmitrSendPkgEncode packetLen frameSeq t version buf buf.length =
            .ok (oprtOk, t', frameSeq)) := by
  have hencode : bleFrameTrsmitrSendPkgEncode packetLen frameSeq t version buf buf.length =
      match sendSubpkg packetLen t buf buf.length with
      | .error f => .error f
      | .ok (rt, t) => .ok (rt, t, frameSeq) := by
    simp only [bleFrameTrsmitrSendPkgEncode, sendStart, if_neg hinit]
    rw [if_neg (by omega)]
  obtain ⟨n, t', hn, hsub', hlen', hcnt', htotal', hversion, hseq, hdesc, hres⟩ :=
    sendSubpkg_spec (by rwa [length_sendHead_of_ne hnum]) hpacket hsub hcnt hlen htotal
  rw [length_sendHead_of_ne hnum] at hn hsub'
  refine ⟨n, t', hn, hsub', hlen', hcnt', htotal', hversion, hseq, hdesc, ?_⟩
  rcases hres with ⟨hmore, hnum', hsend⟩ | ⟨hdone, hsend⟩
  · exact .inl ⟨hmore, hnum', by rw [hencode, hsend]⟩
  · exact .inr ⟨hdone, by rw [hencode, hsend]⟩

theorem versionByte_toNat {version seq : Nat} (hversion : version < 16) :
    (versionByte version seq).toNat / 16 = version ∧
      (versionByte version seq).toNat % 16 = seq % 16 := by
  rw [versionByte, UInt8.toNat_ofNat']
  omega

theorem recvPkgDecode_first {seq : Nat} (hnum : t.subpkgNum < bleFrameLimit)
    (hlen : len < bleFrameLimit) (hversion : version < 16) :
    bleFrameTrsmitrRecvPkgDecode t (firstHead version seq len ++ rest) =
      recvData ⟨len, version, seq % 16, .pkgFirst, 0, 0, t.subpkgLen, t.subpkg⟩ rest := by
  obtain ⟨hv, hs⟩ := @versionByte_toNat version seq hversion
  have hvar : len < 128 ^ 4 := hlen
  have hclear : recvNumber t 0 = ⟨0, 0, 0, .pkgFirst, t.subpkgNum, 0, t.subpkgLen, t.subpkg⟩ := by
    by_cases h : t.pkgDesc = .pkgInit
    · simp only [recvNumber, h, clearFrame, ↓reduceIte]
    · simp only [recvNumber, h, clearFrame, ↓reduceIte]
  rw [bleFrameTrsmitrRecvPkgDecode, firstHead, List.append_assoc,
    Varint.decode_encode (by decide)]
  simp only [hclear]
  rw [if_neg (Nat.not_le.mpr hnum), if_pos trivial, recvFirst, List.append_assoc,
    Varint.decode_encode hvar]
  simp only [if_neg (Nat.not_le.mpr hlen), List.singleton_append, hv, hs]

theorem recvPkgDecode_next {num : Nat} (hinit : t.pkgDesc ≠ .pkgInit)
    (hnum : num = t.subpkgNum + 1) (hlimit : num < bleFrameLimit) :
    bleFrameTrsmitrRecvPkgDecode t (Varint.encode 4 num ++ rest) =
      recvData { t with pkgDesc := .pkgMiddle, subpkgNum := num } rest := by
  have hvar : num < 128 ^ 4 := hlimit
  have hkeep : recvNumber t num = { t with pkgDesc := .pkgMiddle } := by
    simp only [recvNumber, if_neg hinit, if_neg (by omega : ¬num = 0)]
  rw [bleFrameTrsmitrRecvPkgDecode, Varint.decode_encode hvar]
  simp only [hkeep]
  rw [if_neg (by omega), if_neg (by omega), if_neg (by omega), if_neg (by omega), if_neg (by omega)]

end Subpacket

end TuyaOpen.Ble
