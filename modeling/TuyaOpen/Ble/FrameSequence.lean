import TuyaOpen.Ble.Transmitter

/-!
# Sequence numbers of BLE frames

The functions of `ble_trsmitr.c` along a run, with the transmitters that they work on and the static
values that these share. A frame takes its sequence number from the counter in the call that makes
its subpacket 0. The counter is never set back: from the seventeenth frame on every frame has
number 0.

## Main results

* `BleTrsmitrState.step_spec`: what a call does to the counter.
* `seq_startedFrames`: the sequence numbers of a run.
* `framesCycle_iff`: they go round as long as there are at most seventeen frames.
-/

namespace TuyaOpen.Ble

/-! ### Runs -/

/-- The static values `s_ble_frame_seq` and `s_ble_frame_packet_len`, and the transmitters that
exist. -/
structure BleTrsmitrState where
  frameSeq : Nat
  packetLen : Nat
  trsmitr : Nat → Option BleFrameTrsmitr

def BleTrsmitrState.init : BleTrsmitrState := ⟨0, 1024, fun _ => none⟩

/-- A call of a function of `ble_trsmitr.c`. A transmitter has a number in place of its address. -/
inductive BleTrsmitrEvent
  | create (i : Nat)
  | delete (i : Nat)
  | packetLenSet (len : UInt16)
  | sendPkgEncode (i version : Nat) (buf : Bytes) (len : Nat)
  | recvPkgDecode (i : Nat) (raw : Bytes)

/-- A frame that has been started: the `seq` of its transmitter, and subpacket 0 if the call has
made it. -/
structure BleStartedFrame where
  seq : Nat
  subpkg : Option Bytes

namespace BleTrsmitrState

def starts (s : BleTrsmitrState) : BleTrsmitrEvent → Bool
  | .sendPkgEncode i _ _ _ => (s.trsmitr i).any fun t => t.pkgDesc = .pkgInit
  | _ => false

/-- What a call of `ble_frame_trsmitr_send_pkg_encode` makes of a transmitter. -/
def encode (s : BleTrsmitrState) (i : Nat) (t : BleFrameTrsmitr) (version : Nat) (buf : Bytes)
    (len : Nat) : Option (Option BleStartedFrame × BleTrsmitrState) :=
  match bleFrameTrsmitrSendPkgEncode s.packetLen s.frameSeq t version buf len with
  | .error _ => none
  | .ok (rt, t', frameSeq) =>
    let frame : BleStartedFrame :=
      { seq := t'.seq
        subpkg := if rt = oprtOk ∨ rt = oprtSvcBtApiTrsmitrContinue then some (bleFrameSubpacket t')
          else none }
    some (if t.pkgDesc = .pkgInit then some frame else none,
      { s with frameSeq := frameSeq, trsmitr := Function.update s.trsmitr i (some t') })

/-- A call: the frame that it starts, and the new state. A call on a transmitter that does not exist
is one with `NULL`. There is no result when foreign memory is accessed. -/
def step (s : BleTrsmitrState) : BleTrsmitrEvent → Option (Option BleStartedFrame × BleTrsmitrState)
  | .create i =>
    some (none,
      { s with trsmitr := Function.update s.trsmitr i (some (bleFrameTrsmitrCreate s.packetLen)) })
  | .delete i => some (none, { s with trsmitr := Function.update s.trsmitr i none })
  | .packetLenSet len => some (none, { s with packetLen := len.toNat })
  | .sendPkgEncode i version buf len =>
    match s.trsmitr i with
    | none => some (none, s)
    | some t => s.encode i t version buf len
  | .recvPkgDecode i raw =>
    match s.trsmitr i with
    | none => some (none, s)
    | some t =>
      match bleFrameTrsmitrRecvPkgDecode t raw with
      | .error _ => none
      | .ok (_, t') => some (none, { s with trsmitr := Function.update s.trsmitr i (some t') })

end BleTrsmitrState

/-- The frames that a run starts. The run ends with a call that accesses foreign memory. -/
def startedFrames : BleTrsmitrState → List BleTrsmitrEvent → List BleStartedFrame
  | _, [] => []
  | s, ev :: evs =>
    match s.step ev with
    | none => []
    | some (frame, s') => frame.toList ++ startedFrames s' evs

def startedCount : BleTrsmitrState → List BleTrsmitrEvent → Nat
  | _, [] => 0
  | s, ev :: evs =>
    match s.step ev with
    | none => 0
    | some (_, s') => (if s.starts ev then 1 else 0) + startedCount s' evs

/-- The sequence number in the bytes of a subpacket 0, behind its number and the frame length. -/
def subpacketSeq (subpkg : Bytes) : Option Nat :=
  (Varint.decode 4 subpkg).bind fun num =>
    (Varint.decode 4 num.2).bind fun len => len.2.head?.map fun b => b.toNat % 16

/-- The frames carry the numbers below `BLE_FRAME_SEQ_LMT` one after the other, again and again, and
two consecutive frames never carry the same. -/
def FramesCycle (frames : List BleStartedFrame) : Prop :=
  (∀ k frame, frames[k]? = some frame →
      frame.seq = k % bleFrameSeqLmt ∧
        ∀ subpkg, frame.subpkg = some subpkg → subpacketSeq subpkg = some frame.seq) ∧
    frames.IsChain fun frame next => frame.seq ≠ next.seq

/-! ### One call -/

section Call

variable {packetLen frameSeq version len : Nat} {t t' : BleFrameTrsmitr} {buf : Bytes}
  {rt : OperateRet}

theorem bleFrameSeqGet_fst_lt (frameSeq : Nat) : (bleFrameSeqGet frameSeq).1 < bleFrameSeqLmt := by
  rw [bleFrameSeqGet]
  split_ifs with h
  · exact Nat.zero_lt_succ 15
  · exact Nat.not_le.mp h

theorem seq_of_sendSubpkg (h : sendSubpkg packetLen t buf len = .ok (rt, t')) :
    t'.seq = t.seq ∧ ∃ data, bleFrameSubpacket t' = sendHead t len ++ data := by
  obtain ⟨data, hdata, hsubpkg, hlen, hseq, -⟩ := exists_of_sendSubpkg h
  have htake := take_memcpy hsubpkg
  rw [Nat.zero_add, List.length_append, length_of_readSpan hdata, List.take_zero,
    List.nil_append] at htake
  refine ⟨hseq, data, ?_⟩
  rw [bleFrameSubpacket, hlen]
  exact htake

theorem subpacketSeq_sendHead (hnum : t.subpkgNum = 0) (hlen : len < bleFrameLimit) (data : Bytes) :
    subpacketSeq (sendHead t len ++ data) = some (t.seq % 16) := by
  have hbyte : (versionByte t.version t.seq).toNat % 16 = t.seq % 16 := by
    rw [versionByte, UInt8.toNat_ofNat']
    omega
  have hvar : len < 128 ^ 4 := hlen
  rw [subpacketSeq, sendHead, if_pos hnum, hnum, List.append_assoc,
    Varint.decode_encode (by decide), Option.bind_some, List.append_assoc,
    Varint.decode_encode hvar, Option.bind_some, List.singleton_append, List.head?_cons,
    Option.map_some, hbyte]

theorem frameSeq_of_sendPkgEncode {frameSeq' : Nat} (hinit : t.pkgDesc ≠ .pkgInit)
    (h : bleFrameTrsmitrSendPkgEncode packetLen frameSeq t version buf len =
      .ok (rt, t', frameSeq')) : frameSeq' = frameSeq := by
  have hseq := (sendPkgEncode_cases h).1
  rwa [sendStart, if_neg hinit] at hseq

theorem seq_of_sendPkgEncode {frameSeq' : Nat} (hinit : t.pkgDesc = .pkgInit)
    (h : bleFrameTrsmitrSendPkgEncode packetLen frameSeq t version buf len =
      .ok (rt, t', frameSeq')) :
    t'.seq = (bleFrameSeqGet frameSeq).1 ∧ frameSeq' = (bleFrameSeqGet frameSeq).2 ∧
      (rt = oprtOk ∨ rt = oprtSvcBtApiTrsmitrContinue →
        subpacketSeq (bleFrameSubpacket t') = some t'.seq) := by
  have hcom : ¬(oprtComError = oprtOk ∨ oprtComError = oprtSvcBtApiTrsmitrContinue) := by decide
  have hcases := sendPkgEncode_cases h
  rw [sendStart, if_pos hinit] at hcases
  obtain ⟨rfl, ⟨rfl, rfl, -⟩ | ⟨hsend, -, hlen⟩⟩ := hcases
  · exact ⟨rfl, rfl, fun hrt => absurd hrt hcom⟩
  · obtain ⟨hseq, data, hsub⟩ := seq_of_sendSubpkg hsend
    refine ⟨hseq, rfl, fun _ => ?_⟩
    rw [hsub, hseq, subpacketSeq_sendHead rfl hlen]
    exact congrArg some (Nat.mod_eq_of_lt (bleFrameSeqGet_fst_lt frameSeq))

end Call

/-- **One call.** A call that starts a frame gives it the number of `ble_frame_seq_get` and moves
the counter; no other call does. -/
theorem BleTrsmitrState.step_spec {s s' : BleTrsmitrState} {ev : BleTrsmitrEvent}
    {frame : Option BleStartedFrame} (h : s.step ev = some (frame, s')) :
    if s.starts ev then
      s'.frameSeq = (bleFrameSeqGet s.frameSeq).2 ∧
        ∃ f, frame = some f ∧ f.seq = (bleFrameSeqGet s.frameSeq).1 ∧
          ∀ subpkg, f.subpkg = some subpkg → subpacketSeq subpkg = some f.seq
    else s'.frameSeq = s.frameSeq ∧ frame = none := by
  cases ev with
  | create i =>
    obtain ⟨rfl, rfl⟩ := Prod.mk.inj (Option.some.inj h)
    exact ⟨rfl, rfl⟩
  | delete i =>
    obtain ⟨rfl, rfl⟩ := Prod.mk.inj (Option.some.inj h)
    exact ⟨rfl, rfl⟩
  | packetLenSet len =>
    obtain ⟨rfl, rfl⟩ := Prod.mk.inj (Option.some.inj h)
    exact ⟨rfl, rfl⟩
  | recvPkgDecode i raw =>
    rw [step] at h
    split at h
    · obtain ⟨rfl, rfl⟩ := Prod.mk.inj (Option.some.inj h)
      exact ⟨rfl, rfl⟩
    · split at h
      · cases h
      · obtain ⟨rfl, rfl⟩ := Prod.mk.inj (Option.some.inj h)
        exact ⟨rfl, rfl⟩
  | sendPkgEncode i version buf len =>
    rw [step] at h
    split at h
    · next hnone =>
      obtain ⟨rfl, rfl⟩ := Prod.mk.inj (Option.some.inj h)
      rw [starts, hnone]
      exact ⟨rfl, rfl⟩
    · next t ht =>
      rw [encode] at h
      split at h
      · cases h
      · next rt t' frameSeq hsend =>
        obtain ⟨rfl, rfl⟩ := Prod.mk.inj (Option.some.inj h)
        rw [starts, ht, Option.any_some]
        by_cases hinit : t.pkgDesc = .pkgInit
        · obtain ⟨hseq, hframeSeq, hsub⟩ := seq_of_sendPkgEncode hinit hsend
          rw [if_pos (decide_eq_true hinit), if_pos hinit]
          refine ⟨hframeSeq, _, rfl, hseq, fun subpkg hsubpkg => ?_⟩
          dsimp only at hsubpkg
          split_ifs at hsubpkg with hrt
          rw [← Option.some.inj hsubpkg]
          exact hsub hrt
        · rw [if_neg (by simp [hinit]), if_neg hinit]
          exact ⟨frameSeq_of_sendPkgEncode hinit hsend, rfl⟩

/-! ### A run -/

/-- The sequence number of the `k`-th frame from a counter on. -/
def seqFrom (frameSeq k : Nat) : Nat := if frameSeq + k < bleFrameSeqLmt then frameSeq + k else 0

theorem seqFrom_zero (frameSeq : Nat) : seqFrom frameSeq 0 = (bleFrameSeqGet frameSeq).1 := by
  rw [seqFrom, bleFrameSeqGet, Nat.add_zero]
  split_ifs with h h' h'
  · omega
  · rfl
  · rfl
  · omega

theorem seqFrom_succ (frameSeq k : Nat) :
    seqFrom frameSeq (k + 1) = seqFrom (bleFrameSeqGet frameSeq).2 k := by
  rw [seqFrom, seqFrom, bleFrameSeqGet]
  by_cases h : bleFrameSeqLmt ≤ frameSeq
  · rw [if_pos h, if_neg (by omega), if_neg (by dsimp only; omega)]
  · rw [if_neg h]
    dsimp only
    rw [Nat.add_assoc, Nat.add_comm 1 k]

/-- **A run.** The sequence numbers of the frames, and what stands in their subpackets. -/
theorem seq_startedFrames (s : BleTrsmitrState) (evs : List BleTrsmitrEvent) :
    (startedFrames s evs).length = startedCount s evs ∧
      ∀ k frame, (startedFrames s evs)[k]? = some frame →
        frame.seq = seqFrom s.frameSeq k ∧
          ∀ subpkg, frame.subpkg = some subpkg → subpacketSeq subpkg = some frame.seq := by
  induction evs generalizing s with
  | nil => exact ⟨rfl, fun k frame h => by simp [startedFrames] at h⟩
  | cons ev evs ih =>
    rw [startedFrames, startedCount]
    cases hstep : s.step ev with
    | none => exact ⟨rfl, fun k frame h => by simp at h⟩
    | some r =>
      obtain ⟨frame, s'⟩ := r
      have hspec := BleTrsmitrState.step_spec hstep
      obtain ⟨hlen, hrest⟩ := ih s'
      dsimp only
      by_cases hstarts : s.starts ev = true
      · rw [if_pos hstarts] at hspec ⊢
        obtain ⟨hframeSeq, f, rfl, hseq, hsub⟩ := hspec
        rw [Option.toList_some, List.singleton_append]
        refine ⟨by rw [List.length_cons, hlen, Nat.add_comm], fun k frame hk => ?_⟩
        cases k with
        | zero =>
          obtain rfl := Option.some.inj hk
          exact ⟨hseq.trans (seqFrom_zero _).symm, hsub⟩
        | succ k =>
          rw [seqFrom_succ, ← hframeSeq]
          exact hrest k frame hk
      · rw [if_neg hstarts] at hspec ⊢
        obtain ⟨hframeSeq, rfl⟩ := hspec
        rw [Nat.zero_add, ← hframeSeq]
        exact ⟨hlen, hrest⟩

theorem framesCycle_of_seqFrom {frames : List BleStartedFrame}
    (h : ∀ k frame, frames[k]? = some frame → frame.seq = seqFrom 0 k ∧
      ∀ subpkg, frame.subpkg = some subpkg → subpacketSeq subpkg = some frame.seq) :
    FramesCycle frames ↔ frames.length ≤ bleFrameSeqLmt + 1 := by
  have hget {k : Nat} (hk : k < frames.length) : (frames[k]).seq = seqFrom 0 k :=
    (h k _ (List.getElem?_eq_getElem hk)).1
  constructor
  · rintro ⟨hseq, -⟩
    by_contra hlen
    have hk : 17 < frames.length := by
      rw [bleFrameSeqLmt] at hlen
      omega
    have hzero := hget hk
    have hone := (hseq 17 _ (List.getElem?_eq_getElem hk)).1
    exact absurd (hzero.symm.trans hone) (by decide)
  · intro hlen
    rw [bleFrameSeqLmt] at hlen
    refine ⟨fun k frame hk => ⟨?_, (h k frame hk).2⟩, ?_⟩
    · have hlt := (List.getElem?_eq_some_iff.mp hk).1
      rw [(h k frame hk).1, seqFrom, bleFrameSeqLmt, Nat.zero_add]
      split_ifs <;> omega
    · rw [List.isChain_iff_getElem]
      intro k hk
      rw [hget (by omega), hget hk, seqFrom, seqFrom, bleFrameSeqLmt]
      split_ifs <;> omega

/-- **Sequence numbers cycle for seventeen frames.** The frames of a run carry the numbers from 0 to
15 in turn exactly when the run starts at most seventeen of them. -/
theorem framesCycle_iff (evs : List BleTrsmitrEvent) :
    FramesCycle (startedFrames .init evs) ↔
      startedCount .init evs ≤ bleFrameSeqLmt + 1 := by
  obtain ⟨hlen, hseq⟩ := seq_startedFrames .init evs
  rw [framesCycle_of_seqFrom hseq, hlen]

def sampleSend : List BleTrsmitrEvent := [.create 0, .sendPkgEncode 0 4 [] 0, .delete 0]

/-- Eighteen frames: the last two have number 0. -/
theorem not_framesCycle_eighteen :
    ¬FramesCycle (startedFrames .init
      (.packetLenSet 20 :: (List.replicate 18 sampleSend).flatten)) := by
  rintro ⟨hseq, -⟩
  have hframe : (startedFrames .init
      (.packetLenSet 20 :: (List.replicate 18 sampleSend).flatten))[17]?.map (·.seq) = some 0 := by
    decide +kernel
  obtain ⟨frame, hget, hzero⟩ := Option.map_eq_some_iff.mp hframe
  have hone := (hseq 17 frame hget).1
  rw [hzero] at hone
  exact absurd hone (by decide)

end TuyaOpen.Ble
