import TuyaOpen.Ble.PacketRoundTrip

/-!
# BLE connections

`tal_ble_event_callback` of `ble_mgr.c` over whole runs: connects, disconnects and write requests in
any order. The transmitter, `raw_buf` and `dec_buf` of the receiving side live as long as the
service and are not reset by a connect, while `recv_sn` is.

What a run has received of the frame at hand is kept beside the state of the service: the writes
since the last subpacket 0 of the connection. Two receivers that get these writes agree on
everything that they use later, whatever they have got before.

## Main results

* `blePacketTrsmitr_of_agree`, `blePacketTrsmitr_of_first`: one write.
* `recvFrame_of_agree`: a complete frame.
* `LinkInv.step`: the invariant of a run.
-/

namespace TuyaOpen.Ble

/-! ### Dispatch -/

inductive BleHandler
  | devInfoReq
  | pairReq
  | unbindReq
  | dpReq
  | dpQuery
  deriving DecidableEq

/-- The `switch` of `ble_session_system_process`: `FRM_QRY_DEV_INFO_REQ`, `FRM_PAIR_REQ`,
`FRM_UNBONDING_REQ` and `FRM_DEVICE_RESET`. -/
def bleSessionSystemProcess (type : UInt16) : List BleHandler :=
  if type = 0x0000 then [.devInfoReq]
  else if type = 0x0001 then [.pairReq]
  else if type = 0x0005 ∨ type = 0x0006 then [.unbindReq]
  else []

/-- The `switch` of `ble_session_dp_process`: `FRM_DP_CMD_SEND_V4` and `FRM_STATE_QUERY`. -/
def bleSessionDpProcess (type : UInt16) : List BleHandler :=
  if type = 0x0027 then [.dpReq]
  else if type = 0x0003 then [.dpQuery]
  else []

def handlersOf (packet : BlePacket) : List BleHandler :=
  bleSessionSystemProcess packet.type ++ bleSessionDpProcess packet.type

/-- `ble_pair_req` sets `is_paired`: the data starts with the `BLE_ID_LEN` bytes of the device. -/
def pairs (ble : BleMgr) (packet : BlePacket) : Bool :=
  BleHandler.pairReq ∈ handlersOf packet ∧ packet.data.take 16 = ble.cryptoParam.uuid

/-! ### Events -/

/-- The events of `tal_ble_event_callback` that reach the service: a connection that has succeeded,
its end, and a write to the characteristic of the service. -/
inductive BleEvent
  | connect
  | disconnect
  | write (raw : Bytes)

/-- The service with what has happened to it: whether the peer is paired, the writes of the frame
that is being received on this connection, and the handlers that have been called. -/
structure BleLink where
  mgr : BleMgr
  isPaired : Bool
  writes : List Bytes
  reached : List BleHandler

def subpkgNumber (raw : Bytes) : Option Nat := (Varint.decode 4 raw).map Prod.fst

def frameWrites (l : BleLink) (raw : Bytes) : List Bytes :=
  if subpkgNumber raw = some 0 then [raw]
  else if l.writes = [] then []
  else l.writes ++ [raw]

def completes (ble : BleMgr) (raw : Bytes) : Bool :=
  match blePacketTrsmitr ble.packetRecv raw with
  | .error _ => false
  | .ok (rt, _) => rt = oprtOk

/-- `pair_rand` cleared. -/
def clearPairRand (p : BleCryptoParam) : BleCryptoParam :=
  { p with pairRand := List.replicate 6 0, length_pairRand := length_zeroPairRand }

/-- What the handlers of a packet do to the receiving side: `ble_dev_info_req` allocates `subpkg`
anew. The keys, the random values and `send_sn` may change too. -/
def Handles (ble ble' : BleMgr) : Prop :=
  ∃ subpkg, ble'.packetRecv =
      { ble.packetRecv with trsmitr := { ble.packetRecv.trsmitr with subpkg := subpkg } } ∧
    ble'.recvSn = ble.recvSn

theorem Handles.of_sendSn (ble : BleMgr) (sendSn : UInt32) :
    Handles ble { ble with sendSn := sendSn } :=
  ⟨ble.packetRecv.trsmitr.subpkg, rfl, rfl⟩

/-- `tal_ble_event_callback`, with the packet that a write has delivered. -/
inductive LinkStep (env : BleEnv) : BleLink → BleEvent → Option BlePacket → BleLink → Prop
  | connect (l : BleLink) :
    LinkStep env l .connect none
      { l with mgr := { l.mgr with recvSn := 0, sendSn := 1 }, writes := [] }
  | disconnect (l : BleLink) :
    LinkStep env l .disconnect none
      { l with
        mgr := { l.mgr with cryptoParam := clearPairRand l.mgr.cryptoParam }
        isPaired := false
        writes := [] }
  | write {l : BleLink} {raw : Bytes} {rt : OperateRet} {ble : BleMgr}
    (h : blePacketRecv env l.mgr raw = .ok (rt, none, ble)) :
    LinkStep env l (.write raw) none
      { l with mgr := ble, writes := if completes l.mgr raw then [] else frameWrites l raw }
  | deliver {l : BleLink} {raw : Bytes} {rt : OperateRet} {packet : BlePacket} {ble ble' : BleMgr}
    (h : blePacketRecv env l.mgr raw = .ok (rt, some packet, ble)) (hhandles : Handles ble ble') :
    LinkStep env l (.write raw) (some packet)
      ⟨ble', l.isPaired || pairs ble packet, [], l.reached ++ handlersOf packet⟩

/-! ### What is asked of a write -/

/-- The plaintext of a frame reaches to its length field and holds what the field announces, or
the field is out of range. -/
def SelfContained (plain : Bytes) : Prop :=
  12 ≤ plain.length ∧ (beNat (slice plain 10 2) + blePacketMinLen ≤ plain.length ∨
    tuyaBleAirFrameMax < beNat (slice plain 10 2) + blePacketMinLen)

/-- The write belongs to a frame that was begun on this connection and is not complete. -/
def Begun (l : BleLink) (raw : Bytes) : Prop := subpkgNumber raw = some 0 ∨ l.writes ≠ []

/-- If the write makes a frame complete, then the frame has the property `P` of the mode byte and
the plaintext. -/
def OfFrame (env : BleEnv) (P : UInt8 → Bytes → Prop) (ble : BleMgr) (raw : Bytes) : Prop :=
  ∀ pr plain decLen st, blePacketTrsmitr ble.packetRecv raw = .ok (oprtOk, pr) →
    tuyaBleDecryption env ble.crypt ble.cryptoParam (pr.rawBuf.take pr.rawLen) =
      .ok (plain, decLen, st) → P (pr.rawBuf.getD 0 0) plain

/-- A run in which every write meets a condition. -/
inductive LinkRun (env : BleEnv) (Cond : BleLink → Bytes → Prop) (init : BleLink) :
    List BleEvent → BleLink → Prop
  | start : LinkRun env Cond init [] init
  | step {evs : List BleEvent} {l l' : BleLink} {ev : BleEvent} {out : Option BlePacket}
    (hrun : LinkRun env Cond init evs l) (hcond : ∀ raw, ev = .write raw → Cond l raw)
    (hstep : LinkStep env l ev out l') : LinkRun env Cond init (evs ++ [ev]) l'

/-! ### Two receivers with the same frame at hand -/

/-- The transmitters have decoded the same subpackets of a frame. The memory behind the last
subpacket may differ. -/
def SameFrame (t₁ t₂ : BleFrameTrsmitr) : Prop :=
  ∃ s, t₂ = { t₁ with subpkg := s } ∧ s.length = t₁.subpkg.length ∧
    s.take t₁.subpkgLen = t₁.subpkg.take t₁.subpkgLen

def Agree (pr₁ pr₂ : BlePacketRecv) : Prop :=
  SameFrame pr₁.trsmitr pr₂.trsmitr ∧ pr₁.rawLen = pr₂.rawLen ∧ pr₁.rawBuf = pr₂.rawBuf

def freshRecv (subpkgLen : Nat) : BlePacketRecv :=
  ⟨bleFrameTrsmitrCreate subpkgLen, 0, List.replicate tuyaBleAirFrameMax 0, 0,
    List.replicate tuyaBleAirFrameMax 0, BlePacketRecv.length_zeroBuf,
    BlePacketRecv.length_zeroBuf⟩

section Transmitter

variable {t t' t₁ t₂ : BleFrameTrsmitr} {raw rest : Bytes} {rt : OperateRet}

theorem recvData_of_length {s : Bytes} {l : Nat} (hs : s.length = t.subpkg.length)
    (h : recvData t rest = .ok (rt, t')) :
    ∃ t'', recvData { t with subpkgLen := l, subpkg := s } rest = .ok (rt, t'') ∧
      SameFrame t' t'' ∧ t'.subpkg.length = t.subpkg.length ∧ t'.subpkgNum = t.subpkgNum := by
  have hn : (if u32Sub t.total t.pkgTrsmitrCnt < rest.length then u32Sub t.total t.pkgTrsmitrCnt
      else rest.length) ≤ rest.length := by
    split_ifs <;> omega
  rw [recvData] at h ⊢
  set n := if u32Sub t.total t.pkgTrsmitrCnt < rest.length then u32Sub t.total t.pkgTrsmitrCnt
    else rest.length
  have hdata : (rest.take n).length = n := by
    rw [List.length_take]
    omega
  cases hm : memcpy t.subpkg 0 (rest.take n) with
  | none =>
    rw [hm] at h
    cases h
  | some m =>
    have hfits : 0 + (rest.take n).length ≤ t.subpkg.length := by
      by_contra hlong
      rw [memcpy_eq_none (Nat.not_le.mp hlong)] at hm
      cases hm
    obtain ⟨m', hm'⟩ : ∃ m', memcpy s 0 (rest.take n) = some m' :=
      ⟨_, memcpy_of_le (by omega)⟩
    have htake := take_memcpy hm
    have htake' := take_memcpy hm'
    rw [Nat.zero_add, hdata] at htake htake'
    have hlen := length_of_memcpy hm
    have hlen' := length_of_memcpy hm'
    simp only [hm] at h
    simp only [hm']
    split_ifs at h ⊢ <;> obtain ⟨rfl, rfl⟩ := Prod.mk.inj (Except.ok.inj h) <;>
      exact ⟨_, rfl, ⟨m', rfl, by simp only; omega, by simp only; rw [htake, htake']; rfl⟩,
        hlen, rfl⟩

theorem recvPkgDecode_of_sameFrame (h : SameFrame t₁ t₂)
    (hdecode : bleFrameTrsmitrRecvPkgDecode t₁ raw = .ok (rt, t))
    (hnum : subpkgNumber raw ≠ some 0) :
    ∃ t', bleFrameTrsmitrRecvPkgDecode t₂ raw = .ok (rt, t') ∧ SameFrame t t' ∧
      t.subpkg.length = t₁.subpkg.length ∧
      (t₁.subpkgNum < bleFrameLimit → t.subpkgNum < bleFrameLimit) := by
  obtain ⟨s, rfl, hs, htake⟩ := h
  rw [bleFrameTrsmitrRecvPkgDecode] at hdecode ⊢
  cases hv : Varint.decode 4 raw with
  | none =>
    rw [hv] at hdecode
    cases hdecode
  | some p =>
    obtain ⟨num, rest⟩ := p
    have hne : num ≠ 0 := by
      rintro rfl
      exact hnum (by rw [subpkgNumber, hv]; rfl)
    obtain ⟨-, -, -, hlt⟩ := Varint.exists_of_decode hv
    rw [hv] at hdecode
    -- The number is read before the memory is used.
    have hcomm : recvNumber { t₁ with subpkg := s } num =
        { recvNumber t₁ num with subpkg := s } := by
      by_cases hinit : t₁.pkgDesc = .pkgInit
      · simp only [recvNumber, hinit, hne, clearFrame, ↓reduceIte]
      · simp only [recvNumber, hinit, hne, ↓reduceIte]
    have hkeep : (recvNumber t₁ num).subpkg = t₁.subpkg ∧
        (recvNumber t₁ num).subpkgLen = t₁.subpkgLen ∧
        (recvNumber t₁ num).subpkgNum = t₁.subpkgNum := by
      by_cases hinit : t₁.pkgDesc = .pkgInit
      · simp only [recvNumber, hinit, hne, clearFrame, ↓reduceIte, and_self]
      · simp only [recvNumber, hinit, hne, ↓reduceIte, and_self]
    simp only [hcomm]
    simp only [hne, ↓reduceIte] at hdecode ⊢
    set t₃ := recvNumber t₁ num
    obtain ⟨hsub, hsublen, hsubnum⟩ := hkeep
    have hsame : SameFrame t₃ { t₃ with subpkg := s } :=
      ⟨s, rfl, by rw [hs, hsub], by rw [hsublen, hsub, htake]⟩
    split_ifs at hdecode ⊢
    · obtain ⟨rfl, rfl⟩ := Prod.mk.inj (Except.ok.inj hdecode)
      exact ⟨_, rfl, hsame, by rw [hsub], fun h => by omega⟩
    · obtain ⟨rfl, rfl⟩ := Prod.mk.inj (Except.ok.inj hdecode)
      exact ⟨_, rfl, hsame, by rw [hsub], fun h => by omega⟩
    · obtain ⟨rfl, rfl⟩ := Prod.mk.inj (Except.ok.inj hdecode)
      exact ⟨_, rfl, hsame, by rw [hsub], fun h => by omega⟩
    · obtain ⟨rfl, rfl⟩ := Prod.mk.inj (Except.ok.inj hdecode)
      exact ⟨_, rfl, hsame, by rw [hsub], fun h => by omega⟩
    · obtain ⟨t', hrecv, hframe, hlen, hnum'⟩ :=
        @recvData_of_length { t₃ with subpkgNum := num } t rest rt s t₃.subpkgLen
          (by rw [hs]; exact congrArg List.length hsub.symm) hdecode
      exact ⟨t', hrecv, hframe, hlen.trans (congrArg List.length hsub), fun _ => hnum' ▸ hlt⟩

theorem recvPkgDecode_of_first (hsize : t₂.subpkg.length = t₁.subpkg.length)
    (hlimit₁ : t₁.subpkgNum < bleFrameLimit) (hlimit₂ : t₂.subpkgNum < bleFrameLimit)
    (hdecode : bleFrameTrsmitrRecvPkgDecode t₁ raw = .ok (rt, t))
    (hnum : subpkgNumber raw = some 0) :
    ∃ t', bleFrameTrsmitrRecvPkgDecode t₂ raw = .ok (rt, t') ∧ SameFrame t t' ∧
      t.subpkg.length = t₁.subpkg.length ∧ t.subpkgNum < bleFrameLimit ∧ isFirstSubpkg t := by
  have hclear (t : BleFrameTrsmitr) : recvNumber t 0 =
      ⟨0, 0, 0, .pkgFirst, t.subpkgNum, 0, t.subpkgLen, t.subpkg⟩ := by
    by_cases hinit : t.pkgDesc = .pkgInit
    · simp only [recvNumber, hinit, clearFrame, ↓reduceIte]
    · simp only [recvNumber, hinit, clearFrame, ↓reduceIte]
  obtain ⟨⟨num, rest⟩, hv, rfl⟩ := Option.map_eq_some_iff.mp hnum
  rw [bleFrameTrsmitrRecvPkgDecode, hv] at hdecode ⊢
  simp only [hclear, if_neg (Nat.not_le.mpr hlimit₁), ↓reduceIte, recvFirst] at hdecode
  simp only [hclear, if_neg (Nat.not_le.mpr hlimit₂), ↓reduceIte, recvFirst]
  cases hv' : Varint.decode 4 rest with
  | none =>
    rw [hv'] at hdecode
    cases hdecode
  | some p =>
    obtain ⟨total, rest'⟩ := p
    obtain ⟨-, -, -, hlt⟩ := Varint.exists_of_decode hv'
    have htotal : ¬bleFrameLimit ≤ total := Nat.not_le.mpr hlt
    simp only [hv', if_neg htotal] at hdecode ⊢
    cases rest' with
    | nil => cases hdecode
    | cons b rest' =>
      simp only at hdecode ⊢
      obtain ⟨t', hrecv, hframe, hlen, hnum'⟩ :=
        @recvData_of_length ⟨total, b.toNat / 16, b.toNat % 16, .pkgFirst, 0, 0, t₁.subpkgLen,
          t₁.subpkg⟩ t rest' rt t₂.subpkg t₂.subpkgLen hsize hdecode
      refine ⟨t', hrecv, hframe, hlen, by rw [hnum']; exact Nat.zero_lt_succ _, ?_⟩
      rw [recvData] at hdecode
      split at hdecode
      · cases hdecode
      · simp only at hdecode
        split_ifs at hdecode <;>
          obtain ⟨rfl, rfl⟩ := Prod.mk.inj (Except.ok.inj hdecode) <;>
          simp [isFirstSubpkg]

end Transmitter

section Receiver

variable {env : BleEnv} {pr pr₁ pr₂ : BlePacketRecv} {t₁ t₂ : BleFrameTrsmitr} {raw : Bytes}
  {rt ret : OperateRet}

theorem blePacketTrsmitr_of_sameFrame
    (hdecode₁ : bleFrameTrsmitrRecvPkgDecode pr₁.trsmitr raw = .ok (rt, t₁))
    (hdecode₂ : bleFrameTrsmitrRecvPkgDecode pr₂.trsmitr raw = .ok (rt, t₂))
    (hframe : SameFrame t₁ t₂)
    (hraw : isFirstSubpkg t₁ ∨ pr₁.rawLen = pr₂.rawLen ∧ pr₁.rawBuf = pr₂.rawBuf)
    (h : blePacketTrsmitr pr₁ raw = .ok (ret, pr)) :
    ∃ pr', blePacketTrsmitr pr₂ raw = .ok (ret, pr') ∧ Agree pr pr' ∧ pr.trsmitr = t₁ := by
  obtain ⟨s, rfl, hs, htake⟩ := hframe
  have hsub : bleFrameSubpacket { t₁ with subpkg := s } = bleFrameSubpacket t₁ := htake
  have hfirst : isFirstSubpkg { t₁ with subpkg := s } = isFirstSubpkg t₁ := rfl
  have hsame : SameFrame t₁ { t₁ with subpkg := s } := ⟨s, rfl, hs, htake⟩
  simp only [blePacketTrsmitr, hdecode₁] at h
  simp only [blePacketTrsmitr, hdecode₂, hfirst, hsub]
  by_cases hbad : rt ≠ oprtOk ∧ rt ≠ oprtSvcBtApiTrsmitrContinue
  · rw [if_pos hbad] at h ⊢
    obtain ⟨rfl, rfl⟩ := Prod.mk.inj (Except.ok.inj h)
    exact ⟨_, rfl, ⟨hsame, rfl, rfl⟩, rfl⟩
  · rw [if_neg hbad] at h ⊢
    -- The buffers in front of the copy: both cleared, or the same before.
    obtain ⟨q₁, q₂, hq₁, hq₂, ht₁, ht, hlen, hbuf⟩ : ∃ q₁ q₂ : BlePacketRecv,
        (if isFirstSubpkg t₁ then { pr₁ with trsmitr := t₁ }.clearRaw
          else { pr₁ with trsmitr := t₁ }) = q₁ ∧
        (if isFirstSubpkg t₁ then { pr₂ with trsmitr := { t₁ with subpkg := s } }.clearRaw
          else { pr₂ with trsmitr := { t₁ with subpkg := s } }) = q₂ ∧
        q₁.trsmitr = t₁ ∧ SameFrame q₁.trsmitr q₂.trsmitr ∧
        q₁.rawLen = q₂.rawLen ∧ q₁.rawBuf = q₂.rawBuf := by
      by_cases hf : isFirstSubpkg t₁
      · exact ⟨_, _, if_pos hf, if_pos hf, rfl, hsame, rfl, rfl⟩
      · obtain ⟨hl, hb⟩ := hraw.resolve_left hf
        exact ⟨_, _, if_neg hf, if_neg hf, rfl, hsame, hl, hb⟩
    simp only [hq₁] at h
    simp only [hq₂, ← hlen]
    by_cases hle : u32 (q₁.rawLen + t₁.subpkgLen) ≤ tuyaBleAirFrameMax
    · by_cases hover : tuyaBleAirFrameMax < q₁.rawLen + t₁.subpkgLen
      · rw [if_pos hle, if_pos hover] at h
        cases h
      · rw [if_pos hle, if_neg hover] at h ⊢
        obtain ⟨rfl, rfl⟩ := Prod.mk.inj (Except.ok.inj h)
        exact ⟨_, rfl, ⟨ht, rfl, by simp only [BlePacketRecv.writeRaw, hbuf]⟩, ht₁⟩
    · rw [if_neg hle] at h ⊢
      obtain ⟨rfl, rfl⟩ := Prod.mk.inj (Except.ok.inj h)
      exact ⟨_, rfl, ⟨ht, rfl, hbuf⟩, ht₁⟩

/-- What is known of a receiver after a write, and of one that has got the same frame. -/
def Follows (pr₁ pr₂ pr : BlePacketRecv) (ret : OperateRet) (raw : Bytes) : Prop :=
  (∃ pr', blePacketTrsmitr pr₂ raw = .ok (ret, pr') ∧ Agree pr pr') ∧
    pr.trsmitr.subpkg.length = pr₁.trsmitr.subpkg.length ∧ pr.trsmitr.subpkgNum < bleFrameLimit

theorem exists_decode_of_blePacketTrsmitr (h : blePacketTrsmitr pr₁ raw = .ok (ret, pr)) :
    ∃ rt t, bleFrameTrsmitrRecvPkgDecode pr₁.trsmitr raw = .ok (rt, t) := by
  rw [blePacketTrsmitr] at h
  split at h
  · cases h
  · next rt t hdecode => exact ⟨rt, t, hdecode⟩

theorem blePacketTrsmitr_of_agree (hagree : Agree pr₁ pr₂)
    (hlimit : pr₁.trsmitr.subpkgNum < bleFrameLimit) (hnum : subpkgNumber raw ≠ some 0)
    (h : blePacketTrsmitr pr₁ raw = .ok (ret, pr)) : Follows pr₁ pr₂ pr ret raw := by
  obtain ⟨rt, t, hdecode⟩ := exists_decode_of_blePacketTrsmitr h
  obtain ⟨t', hdecode', hframe, hlen, hkeep⟩ := recvPkgDecode_of_sameFrame hagree.1 hdecode hnum
  obtain ⟨pr', hpr', hagree', rfl⟩ :=
    blePacketTrsmitr_of_sameFrame hdecode hdecode' hframe (.inr hagree.2) h
  exact ⟨⟨pr', hpr', hagree'⟩, hlen, hkeep hlimit⟩

theorem blePacketTrsmitr_of_first
    (hsize : pr₂.trsmitr.subpkg.length = pr₁.trsmitr.subpkg.length)
    (hlimit₁ : pr₁.trsmitr.subpkgNum < bleFrameLimit)
    (hlimit₂ : pr₂.trsmitr.subpkgNum < bleFrameLimit) (hnum : subpkgNumber raw = some 0)
    (h : blePacketTrsmitr pr₁ raw = .ok (ret, pr)) : Follows pr₁ pr₂ pr ret raw := by
  obtain ⟨rt, t, hdecode⟩ := exists_decode_of_blePacketTrsmitr h
  obtain ⟨t', hdecode', hframe, hlen, hnum', hfirst⟩ :=
    recvPkgDecode_of_first hsize hlimit₁ hlimit₂ hdecode hnum
  obtain ⟨pr', hpr', hagree', rfl⟩ :=
    blePacketTrsmitr_of_sameFrame hdecode hdecode' hframe (.inl hfirst) h
  exact ⟨⟨pr', hpr', hagree'⟩, hlen, hnum'⟩

theorem subpkgNum_lt_of_blePacketTrsmitr (hlimit : pr₁.trsmitr.subpkgNum < bleFrameLimit)
    (h : blePacketTrsmitr pr₁ raw = .ok (ret, pr)) : pr.trsmitr.subpkgNum < bleFrameLimit := by
  by_cases hnum : subpkgNumber raw = some 0
  · exact (blePacketTrsmitr_of_first rfl hlimit hlimit hnum h).2.2
  · exact (blePacketTrsmitr_of_agree ⟨⟨_, rfl, rfl, rfl⟩, rfl, rfl⟩ hlimit hnum h).2.2

end Receiver

/-! ### Complete frames -/

section Frame

variable {env : BleEnv} {ble : BleMgr} {packet : BlePacket}

theorem length_of_tuyaBleDecryption {st st' : BleCryptState} {p : BleCryptoParam}
    {raw plain : Bytes} {decLen : Nat}
    (h : tuyaBleDecryption env st p raw = .ok (plain, decLen, st')) :
    plain.length ≤ decLen ∧ decLen < raw.length := by
  rw [tuyaBleDecryption] at h
  split_ifs at h with hshort hmax hnone
  · simp only [Except.ok.injEq, Prod.mk.injEq] at h
    obtain ⟨rfl, rfl, -⟩ := h
    rw [List.length_drop]
    omega
  · split at h
    · cases h
    · next key st'' _ =>
      simp only [Except.ok.injEq, Prod.mk.injEq] at h
      obtain ⟨rfl, rfl, -⟩ := h
      refine ⟨?_, by omega⟩
      have hdrop : (raw.drop 17).length = raw.length - 17 := List.length_drop
      rw [aes128CbcDecodeRaw]
      split_ifs with hwhole
      · rw [length_cbcDecrypt (length_slice (by omega)) (by omega)]
        omega
      · exact Nat.zero_le _

theorem parsePacket_append {plain : Bytes} (h : SelfContained plain) (rest : Bytes) (mode : UInt8) :
    parsePacket (plain ++ rest) mode = parsePacket plain mode := by
  obtain ⟨hhead, hcases⟩ := h
  have hslice {off n : Nat} (hle : off + n ≤ plain.length) :
      slice (plain ++ rest) off n = slice plain off n := slice_append_left hle
  rcases hcases with hlen | hlong
  · simp only [blePacketMinLen] at hlen
    have htake : (plain ++ rest).take (beNat (slice plain 10 2) + 12) =
        plain.take (beNat (slice plain 10 2) + 12) := List.take_append_of_le_length (by omega)
    simp only [parsePacket, blePacketDataInd, hslice (by omega : 10 + 2 ≤ plain.length),
      hslice (by omega : 0 + 4 ≤ plain.length), hslice (by omega : 8 + 2 ≤ plain.length),
      hslice (by omega : 12 + beNat (slice plain 10 2) ≤ plain.length),
      hslice (by omega : 12 + beNat (slice plain 10 2) + 2 ≤ plain.length), htake]
    rfl
  · rw [parsePacket, dif_pos (by rwa [hslice (by omega)]), parsePacket, dif_pos hlong]

theorem length_of_parsePacket {plain : Bytes} {mode : UInt8} (hself : SelfContained plain)
    (h : parsePacket plain mode = some packet) :
    packet.data.length + blePacketMinLen ≤ plain.length := by
  rw [parsePacket] at h
  split_ifs at h with hlong hcrc
  obtain rfl := Option.some.inj h
  obtain hlen := hself.2.resolve_right hlong
  have hdata : (slice plain blePacketDataInd (beNat (slice plain 10 2))).length ≤
      beNat (slice plain 10 2) := by
    rw [slice, List.length_take]
    omega
  simp only at hdata ⊢
  omega

theorem exists_of_recvFrame (h : (recvFrame env ble).2.1 = some packet) :
    ∃ plain decLen st, tuyaBleDecryption env ble.crypt ble.cryptoParam
        (ble.packetRecv.rawBuf.take ble.packetRecv.rawLen) = .ok (plain, decLen, st) ∧
      parsePacket (BlePacketRecv.writeBuf ble.packetRecv.decBuf 0 plain)
        (ble.packetRecv.rawBuf.getD 0 0) = some packet ∧
      ble.packetRecv.rawLen ≤ tuyaBleAirFrameMax ∧ ¬ble.packetRecv.trsmitr.version < 2 ∧
      ¬packet.sn ≤ ble.recvSn ∧ (packet.data = [] ∨ env.malloc packet.data.length) ∧
      (recvFrame env ble).2.2.packetRecv = ble.packetRecv.writeDec plain decLen := by
  have hres := rfl (a := recvFrame env ble)
  conv_rhs at hres => simp only [recvFrame]
  rw [hres] at h ⊢
  split_ifs at h ⊢ with hlen hversion
  split at h
  · cases h
  · next plain decLen st hdec =>
    simp only [hdec] at h ⊢
    split at h
    · cases h
    · next p hparse =>
      split_ifs at h with hsn hmem
      obtain rfl := Option.some.inj h
      simp only [if_neg hsn, if_pos hmem]
      exact ⟨plain, decLen, st, rfl, hparse, Nat.not_lt.mp hlen, hversion, hsn, hmem, rfl⟩

/-- A receiver with the same frame in `raw_buf` returns the same packet, when the plaintext of the
frame holds what it announces. -/
theorem recvFrame_of_agree {pr₁ pr₂ : BlePacketRecv} (hagree : Agree pr₁ pr₂)
    (hself : ∀ plain decLen st, tuyaBleDecryption env ble.crypt ble.cryptoParam
      (pr₁.rawBuf.take pr₁.rawLen) = .ok (plain, decLen, st) → SelfContained plain)
    (h : (recvFrame env { ble with packetRecv := pr₁ }).2.1 = some packet) :
    (recvFrame env { ble with packetRecv := pr₂ }).1 = oprtOk ∧
      (recvFrame env { ble with packetRecv := pr₂ }).2.1 = some packet ∧
      packet.data.length + blePacketMinLen ≤
        (recvFrame env { ble with packetRecv := pr₁ }).2.2.packetRecv.decLen := by
  obtain ⟨plain, decLen, st, hdec, hparse, hlen, hversion, hsn, hmem, hpr⟩ := exists_of_recvFrame h
  obtain ⟨⟨s, ht, -⟩, hrawLen, hrawBuf⟩ := hagree
  have hplain := hself plain decLen st hdec
  have hdecLen := length_of_tuyaBleDecryption hdec
  have hfits : plain.length ≤ tuyaBleAirFrameMax := by
    have htake := List.length_take_le pr₁.rawLen pr₁.rawBuf
    simp only at hdecLen hlen
    omega
  obtain ⟨rest₁, hbuf₁⟩ := exists_writeBuf_zero pr₁.length_decBuf hfits
  obtain ⟨rest₂, hbuf₂⟩ := exists_writeBuf_zero pr₂.length_decBuf hfits
  simp only [hbuf₁, parsePacket_append hplain] at hparse
  have hparse₂ : parsePacket (BlePacketRecv.writeBuf pr₂.decBuf 0 plain) (pr₁.rawBuf.getD 0 0) =
      some packet := by
    rw [hbuf₂, parsePacket_append hplain, hparse]
  have hversion₂ : pr₂.trsmitr.version = pr₁.trsmitr.version := by rw [ht]
  have hres : recvFrame env { ble with packetRecv := pr₂ } =
      (oprtOk, some packet,
        { ble with packetRecv := pr₂.writeDec plain decLen, crypt := st, recvSn := packet.sn }) := by
    simp only [recvFrame, ← hrawLen, ← hrawBuf, hversion₂, if_neg (Nat.not_lt.mpr hlen),
      if_neg hversion, hdec, BlePacketRecv.writeDec, hparse₂, if_neg hsn, if_pos hmem]
  refine ⟨by rw [hres], by rw [hres], ?_⟩
  rw [hpr]
  exact Nat.le_trans (length_of_parsePacket hplain hparse) hdecLen.1

end Frame

/-! ### Runs -/

section Run

variable {env : BleEnv} {l l' : BleLink} {evs : List BleEvent} {raw : Bytes}

theorem blePacketRecvs_append {ble ble₁ ble₂ : BleMgr} {ws : List Bytes}
    {rs : List (OperateRet × Option BlePacket)} {rt : OperateRet} {packet : Option BlePacket}
    (h : blePacketRecvs env ble ws = .ok (rs, ble₁))
    (hlast : blePacketRecv env ble₁ raw = .ok (rt, packet, ble₂)) :
    blePacketRecvs env ble (ws ++ [raw]) = .ok (rs ++ [(rt, packet)], ble₂) := by
  induction ws generalizing ble rs with
  | nil =>
    obtain ⟨rfl, rfl⟩ := Prod.mk.inj (Except.ok.inj h)
    simp only [List.nil_append, blePacketRecvs, hlast]
  | cons w ws ih =>
    rw [blePacketRecvs] at h
    split at h
    · cases h
    · next rt' packet' ble' hfirst =>
      split at h
      · cases h
      · next rs' ble'' hrest =>
        obtain ⟨rfl, rfl⟩ := Prod.mk.inj (Except.ok.inj h)
        simp only [List.cons_append, blePacketRecvs, hfirst, ih hrest]

/-- The service with a receiver that has got nothing, but the same memory for subpackets. -/
def freshMgr (ble : BleMgr) : BleMgr :=
  { ble with packetRecv := freshRecv ble.packetRecv.trsmitr.subpkg.length }

/-- The invariant of a run: the writes of the frame at hand are the last events, and a fresh
receiver that gets them has the same frame at hand. -/
structure LinkInv (env : BleEnv) (evs : List BleEvent) (l : BleLink) : Prop where
  num_lt : l.mgr.packetRecv.trsmitr.subpkgNum < bleFrameLimit
  last : ∃ pre, evs = pre ++ l.writes.map .write
  agree : l.writes ≠ [] → ∃ rs pr, blePacketRecvs env (freshMgr l.mgr) l.writes =
    .ok (rs, { l.mgr with packetRecv := pr }) ∧ Agree l.mgr.packetRecv pr

theorem LinkInv.of_nil (hnum : l.mgr.packetRecv.trsmitr.subpkgNum < bleFrameLimit)
    (hwrites : l.writes = []) : LinkInv env evs l :=
  ⟨hnum, ⟨evs, by rw [hwrites, List.map_nil, List.append_nil]⟩, fun h => absurd hwrites h⟩

theorem LinkInv.exists_follows (hinv : LinkInv env evs l) (hbegun : Begun l raw) {ret : OperateRet}
    {pr : BlePacketRecv} (h : blePacketTrsmitr l.mgr.packetRecv raw = .ok (ret, pr)) :
    ∃ ws rs q, frameWrites l raw = ws ++ [raw] ∧ (∃ pre, evs = pre ++ ws.map .write) ∧
      blePacketRecvs env (freshMgr l.mgr) ws = .ok (rs, { l.mgr with packetRecv := q }) ∧
      Follows l.mgr.packetRecv q pr ret raw := by
  by_cases hnum : subpkgNumber raw = some 0
  · refine ⟨[], [], freshRecv l.mgr.packetRecv.trsmitr.subpkg.length, if_pos hnum,
      ⟨evs, by rw [List.map_nil, List.append_nil]⟩, rfl, ?_⟩
    exact blePacketTrsmitr_of_first List.length_replicate hinv.num_lt (Nat.zero_lt_succ _) hnum h
  · have hopen := hbegun.resolve_left hnum
    obtain ⟨rs, q, hreplay, hagree⟩ := hinv.agree hopen
    refine ⟨l.writes, rs, q, ?_, hinv.last, hreplay,
      blePacketTrsmitr_of_agree hagree hinv.num_lt hnum h⟩
    rw [frameWrites, if_neg hnum, if_neg hopen]

theorem exists_of_blePacketRecv {ble ble' : BleMgr} {rt : OperateRet} {packet : Option BlePacket}
    (h : blePacketRecv env ble raw = .ok (rt, packet, ble')) :
    ∃ ret pr, blePacketTrsmitr ble.packetRecv raw = .ok (ret, pr) ∧
      (ret ≠ oprtOk ∧ packet = none ∧ ble' = { ble with packetRecv := pr } ∨
        ret = oprtOk ∧ (rt, packet, ble') = recvFrame env { ble with packetRecv := pr }) := by
  rw [blePacketRecv] at h
  split at h
  · cases h
  · next ret pr htrs =>
    refine ⟨ret, pr, htrs, ?_⟩
    by_cases hret : ret = oprtOk
    · rw [if_neg (not_not.mpr hret)] at h
      exact .inr ⟨hret, (Except.ok.inj h).symm⟩
    · rw [if_pos hret] at h
      simp only [Except.ok.injEq, Prod.mk.injEq] at h
      exact .inl ⟨hret, h.2.1.symm, h.2.2.symm⟩

theorem trsmitr_recvFrame (ble : BleMgr) :
    (recvFrame env ble).2.2.packetRecv.trsmitr = ble.packetRecv.trsmitr := by
  simp only [recvFrame]
  split_ifs
  · rfl
  · rfl
  · split
    · rfl
    · split
      · rfl
      · split_ifs <;> rfl

theorem completes_iff {ble : BleMgr} {ret : OperateRet} {pr : BlePacketRecv}
    (h : blePacketTrsmitr ble.packetRecv raw = .ok (ret, pr)) :
    completes ble raw = true ↔ ret = oprtOk := by
  rw [completes, h]
  exact decide_eq_true_iff

theorem subpkgNum_lt_of_blePacketRecv {ble ble' : BleMgr} {rt : OperateRet}
    {packet : Option BlePacket} (hnum : ble.packetRecv.trsmitr.subpkgNum < bleFrameLimit)
    (h : blePacketRecv env ble raw = .ok (rt, packet, ble')) :
    ble'.packetRecv.trsmitr.subpkgNum < bleFrameLimit := by
  obtain ⟨ret, pr, htrs, hcases⟩ := exists_of_blePacketRecv h
  have hpr := subpkgNum_lt_of_blePacketTrsmitr hnum htrs
  rcases hcases with ⟨-, -, rfl⟩ | ⟨-, hres⟩
  · exact hpr
  · have hble : ble' = (recvFrame env { ble with packetRecv := pr }).2.2 := by rw [← hres]
    rw [hble, trsmitr_recvFrame]
    exact hpr

theorem LinkInv.step {ev : BleEvent} {out : Option BlePacket} (hinv : LinkInv env evs l)
    (hbegun : ∀ raw, ev = .write raw → Begun l raw) (hstep : LinkStep env l ev out l') :
    LinkInv env (evs ++ [ev]) l' := by
  cases hstep with
  | connect => exact .of_nil hinv.num_lt rfl
  | disconnect => exact .of_nil hinv.num_lt rfl
  | deliver h hhandles =>
    obtain ⟨subpkg, hpr, -⟩ := hhandles
    refine .of_nil ?_ rfl
    rw [hpr]
    exact subpkgNum_lt_of_blePacketRecv hinv.num_lt h
  | @write raw rt ble h =>
    have hnum := subpkgNum_lt_of_blePacketRecv hinv.num_lt h
    obtain ⟨ret, pr, htrs, hcases⟩ := exists_of_blePacketRecv h
    rcases hcases with ⟨hret, -, rfl⟩ | ⟨hret, -⟩
    · have hopen : ¬completes l.mgr raw = true := fun hc => hret ((completes_iff htrs).mp hc)
      obtain ⟨ws, rs, q, hws, ⟨pre, hpre⟩, hreplay, ⟨pr', htrs', hagree⟩, hlen, -⟩ :=
        hinv.exists_follows (hbegun raw rfl) htrs
      have hrecv := @blePacketRecv_of_trsmitr env { l.mgr with packetRecv := q } raw ret pr' htrs'
      rw [if_pos hret] at hrecv
      refine ⟨hnum, ⟨pre, ?_⟩, fun _ => ⟨rs ++ [(ret, none)], pr', ?_, hagree⟩⟩
      · simp only [if_neg hopen, hws, hpre, List.map_append, List.map_singleton, List.append_assoc]
      · have hfresh : freshMgr { l.mgr with packetRecv := pr } = freshMgr l.mgr := by
          simp only [freshMgr, hlen]
        simp only [if_neg hopen, hws, hfresh]
        exact blePacketRecvs_append hreplay hrecv
    · exact .of_nil hnum (if_pos ((completes_iff htrs).mpr hret))

end Run

end TuyaOpen.Ble
