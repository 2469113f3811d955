import TuyaOpen.Ble.Transmitter

/-!
# Frames survive the BLE transmitter

Encoder and decoder run in parallel: after every subpacket the decoder has the length, version and
sequence of the frame, has taken over as many bytes as the encoder has sent, and waits for the
subpacket number that the encoder uses next.

## Main results

* `exchange_first`, `exchange_next`: the subpackets one by one.
* `exists_sendPkgs_recvPkgs`: the run from any point on.
* `roundTrips_of_lt`: every frame.
-/

namespace TuyaOpen.Ble

/-! ### Runs -/

/-- What sending a frame gives: the subpackets, the last return value, and the state. -/
structure SendRun where
  subpkgs : List Bytes
  rt : OperateRet
  trsmitr : BleFrameTrsmitr
  frameSeq : Nat
  deriving DecidableEq

/-- The subpackets that `ble_frame_trsmitr_send_pkg_encode` makes while it returns `CONTINUE`, in
at most `fuel` calls. -/
def sendPkgs (packetLen version : Nat) (buf : Bytes) (len : Nat) :
    Nat → Nat → BleFrameTrsmitr → Option (Except MemFault SendRun)
  | 0, _, _ => none
  | fuel + 1, frameSeq, t =>
    match bleFrameTrsmitrSendPkgEncode packetLen frameSeq t version buf len with
    | .error f => some (.error f)
    | .ok (rt, t, frameSeq) =>
      if rt = oprtSvcBtApiTrsmitrContinue then
        match sendPkgs packetLen version buf len fuel frameSeq t with
        | some (.ok r) => some (.ok { r with subpkgs := bleFrameSubpacket t :: r.subpkgs })
        | r => r
      else if rt = oprtOk then some (.ok ⟨[bleFrameSubpacket t], rt, t, frameSeq⟩)
      else some (.ok ⟨[], rt, t, frameSeq⟩)

/-- `ble_frame_trsmitr_recv_pkg_decode` on one subpacket after the other: the return values, each
with the decoded data, and the last state. -/
def recvPkgs : BleFrameTrsmitr → List Bytes →
    Except MemFault (List (OperateRet × Bytes) × BleFrameTrsmitr)
  | t, [] => .ok ([], t)
  | t, raw :: raws =>
    match bleFrameTrsmitrRecvPkgDecode t raw with
    | .error f => .error f
    | .ok (rt, t) =>
      match recvPkgs t raws with
      | .error f => .error f
      | .ok (rs, t') => .ok ((rt, bleFrameSubpacket t) :: rs, t')

/-- The subpackets of a frame are at most `packetLen` bytes long, and a new decoder that gets them
in order returns `CONTINUE` for all but the last, `OPRT_OK` for the last, and the frame in pieces,
with the length, the version and the low bits of the sequence that the encoder has used. -/
def RoundTrips (packetLen frameSeq version : Nat) (buf : Bytes) : Prop :=
  ∃ fuel r rs t,
    sendPkgs packetLen version buf buf.length fuel frameSeq (bleFrameTrsmitrCreate packetLen) =
      some (.ok r) ∧
    r.rt = oprtOk ∧ (∀ raw ∈ r.subpkgs, raw.length ≤ packetLen) ∧
    recvPkgs (bleFrameTrsmitrCreate packetLen) r.subpkgs = .ok (rs, t) ∧
    rs.map Prod.fst = List.replicate (r.subpkgs.length - 1) oprtSvcBtApiTrsmitrContinue ++
      [oprtOk] ∧
    (rs.map Prod.snd).flatten = buf ∧
    r.trsmitr.total = buf.length ∧ r.trsmitr.version = version ∧
    r.trsmitr.seq = (bleFrameSeqGet frameSeq).1 ∧
    t.total = r.trsmitr.total ∧ t.version = r.trsmitr.version ∧ t.seq = r.trsmitr.seq % 16

/-! ### The invariant -/

/-- Encoder `te` and decoder `td` of a frame that is not complete. Every subpacket carries data, so
the number of the next one is at most the number of bytes sent. -/
structure InParallel (packetLen version seq : Nat) (buf : Bytes) (te td : BleFrameTrsmitr) :
    Prop where
  length_te : te.subpkg.length = packetLen
  length_td : packetLen ≤ td.subpkg.length
  pkgDesc_te : te.pkgDesc ≠ .pkgInit
  pkgDesc_td : td.pkgDesc ≠ .pkgInit
  total_te : te.total = buf.length
  total_td : td.total = buf.length
  version_te : te.version = version
  version_td : td.version = version
  seq_te : te.seq = seq
  seq_td : td.seq = seq % 16
  cnt_eq : td.pkgTrsmitrCnt = te.pkgTrsmitrCnt
  cnt_lt : te.pkgTrsmitrCnt < buf.length
  num_eq : te.subpkgNum = td.subpkgNum + 1
  num_le : te.subpkgNum ≤ te.pkgTrsmitrCnt

/-- Encoder and decoder after the last subpacket. -/
structure Finished (version seq : Nat) (buf : Bytes) (te td : BleFrameTrsmitr) : Prop where
  total_te : te.total = buf.length
  total_td : td.total = buf.length
  version_te : te.version = version
  version_td : td.version = version
  seq_te : te.seq = seq
  seq_td : td.seq = seq % 16

section Exchange

variable {packetLen frameSeq version seq : Nat} {buf : Bytes} {te td : BleFrameTrsmitr}

/-- What one subpacket with `n` bytes of data from `cnt` on has done: both sides go on, or the
frame is complete. -/
def Exchanged (packetLen version seq : Nat) (buf : Bytes) (cnt n : Nat) (rt : OperateRet)
    (te td : BleFrameTrsmitr) : Prop :=
  (bleFrameSubpacket te).length ≤ packetLen ∧
    (bleFrameSubpacket td = slice buf cnt n ∧ td.subpkgLen = n ∧ cnt + n ≤ buf.length) ∧
    (rt = oprtSvcBtApiTrsmitrContinue ∧ te.pkgTrsmitrCnt = cnt + n ∧
        InParallel packetLen version seq buf te td ∨
      rt = oprtOk ∧ cnt + n = buf.length ∧ Finished version seq buf te td)

theorem exchange_first (hpacket : 10 ≤ packetLen) (hpacket' : packetLen < 65536)
    (hlen : buf.length < bleFrameLimit) (hversion : version < 16)
    (hte : te.subpkg.length = packetLen) (hinit : te.pkgDesc = .pkgInit)
    (htd : packetLen ≤ td.subpkg.length) (hnum : td.subpkgNum < bleFrameLimit) :
    ∃ n rt te' td',
      bleFrameTrsmitrSendPkgEncode packetLen frameSeq te version buf buf.length =
        .ok (rt, te', (bleFrameSeqGet frameSeq).2) ∧
      bleFrameTrsmitrRecvPkgDecode td (bleFrameSubpacket te') = .ok (rt, td') ∧
      isFirstSubpkg td' ∧
      Exchanged packetLen version (bleFrameSeqGet frameSeq).1 buf 0 n rt te' td' := by
  have hheadlen := length_firstHead_le version (bleFrameSeqGet frameSeq).1 buf.length
  obtain ⟨n, te', hn, hsub, hlente, hcnt, htotal, hversion', hseq, hdesc, hres⟩ :=
    @sendPkgEncode_of_init packetLen te buf frameSeq version (by omega) hpacket' hte hinit hlen
  have hslice : (slice buf 0 n).length = n := length_slice (by omega)
  have hdecode : bleFrameTrsmitrRecvPkgDecode td (bleFrameSubpacket te') =
      recvData ⟨buf.length, version, (bleFrameSeqGet frameSeq).1 % 16, .pkgFirst, 0, 0,
        td.subpkgLen, td.subpkg⟩ (slice buf 0 n) := by
    rw [hsub, recvPkgDecode_first hnum hlen hversion]
  obtain ⟨td', hsubtd, hsublen, hlentd, hcnttd, htotaltd, hversiontd, hseqtd, hnumtd, hrestd⟩ :=
    @recvData_spec ⟨buf.length, version, (bleFrameSeqGet frameSeq).1 % 16, .pkgFirst, 0, 0,
      td.subpkgLen, td.subpkg⟩ (slice buf 0 n) (by dsimp only; omega) (by dsimp only; omega) hlen
  simp only [hslice, Nat.zero_add] at hcnttd hrestd hlentd
  have hpkt : (bleFrameSubpacket te').length ≤ packetLen := by
    rw [hsub, List.length_append, hslice]
    omega
  rcases hres with ⟨hmore, hnum', hsend⟩ | ⟨hdone, hsend⟩
  · obtain ⟨-, hdesctd, hrecv⟩ := hrestd.resolve_right (by omega)
    refine ⟨n, _, te', td', hsend, hdecode.trans hrecv, by simp [isFirstSubpkg, hdesctd], hpkt,
      ⟨hsubtd, hsublen.trans hslice, by omega⟩, .inl ⟨rfl, by omega, hlente, by omega, hdesc, ?_,
        htotal, htotaltd, hversion', hversiontd, hseq, hseqtd, by omega, by omega, ?_, by omega⟩⟩
    · rw [hdesctd]
      exact BleFramePkgDesc.noConfusion
    · rw [hnumtd, hnum']
  · obtain ⟨-, hdesctd, hrecv⟩ := hrestd.resolve_left (by omega)
    exact ⟨n, _, te', td', hsend, hdecode.trans hrecv, by simp [isFirstSubpkg, hdesctd, hnumtd],
      hpkt, ⟨hsubtd, hsublen.trans hslice, by omega⟩, .inr ⟨rfl, by omega, htotal, htotaltd,
        hversion', hversiontd, hseq, hseqtd⟩⟩

theorem exchange_next (hpacket : 10 ≤ packetLen) (hpacket' : packetLen < 65536)
    (hlen : buf.length < bleFrameLimit) (h : InParallel packetLen version seq buf te td) :
    ∃ n rt te' td', 0 < n ∧
      bleFrameTrsmitrSendPkgEncode packetLen frameSeq te version buf buf.length =
        .ok (rt, te', frameSeq) ∧
      bleFrameTrsmitrRecvPkgDecode td (bleFrameSubpacket te') = .ok (rt, td') ∧
      ¬isFirstSubpkg td' ∧
      Exchanged packetLen version seq buf te.pkgTrsmitrCnt n rt te' td' := by
  have hnum := h.num_eq
  have hnumle := h.num_le
  have hcnt := h.cnt_lt
  have hheadlen := Varint.length_encode_le 4 te.subpkgNum
  obtain ⟨n, te', hn, hsub, hlente, hcnt', htotal, hversion, hseq, hdesc, hres⟩ :=
    @sendPkgEncode_of_sending packetLen te buf frameSeq version (by omega) hpacket' h.length_te
      h.pkgDesc_te hlen h.total_te (Nat.le_of_lt hcnt) (by omega) (by omega)
  have hslice : (slice buf te.pkgTrsmitrCnt n).length = n := length_slice (by omega)
  have hlentd := h.length_td
  -- The decoder reads the number that it waits for.
  have hdecode : bleFrameTrsmitrRecvPkgDecode td (bleFrameSubpacket te') =
      recvData { td with pkgDesc := .pkgMiddle, subpkgNum := te.subpkgNum }
        (slice buf te.pkgTrsmitrCnt n) := by
    rw [hsub, recvPkgDecode_next h.pkgDesc_td hnum (by omega)]
  obtain ⟨td', hsubtd, hsublen, hlentd', hcnttd, htotaltd, hversiontd, hseqtd, hnumtd, hrestd⟩ :=
    @recvData_spec { td with pkgDesc := .pkgMiddle, subpkgNum := te.subpkgNum }
      (slice buf te.pkgTrsmitrCnt n) (by dsimp only; omega)
      (by rw [hslice, h.cnt_eq, h.total_td]; omega) (by rw [h.total_td]; exact hlen)
  simp only [hslice, h.cnt_eq, h.total_td] at hcnttd hrestd hdecode hlentd'
  have hpkt : (bleFrameSubpacket te').length ≤ packetLen := by
    rw [hsub, List.length_append, hslice]
    omega
  rcases hres with ⟨hmore, hnum', hsend⟩ | ⟨hdone, hsend⟩
  · obtain ⟨-, hdesctd, hrecv⟩ := hrestd.resolve_right (by omega)
    refine ⟨n, _, te', td', by omega, hsend, hdecode.trans hrecv,
      by simp [isFirstSubpkg, hdesctd], hpkt, ⟨hsubtd, hsublen.trans hslice, by omega⟩, .inl
      ⟨rfl, hcnt', hlente, by omega, hdesc, ?_, htotal, htotaltd.trans h.total_td,
        hversion.trans h.version_te, hversiontd.trans h.version_td, hseq.trans h.seq_te,
        hseqtd.trans h.seq_td, by omega, by omega, ?_, by omega⟩⟩
    · rw [hdesctd]
      exact BleFramePkgDesc.noConfusion
    · rw [hnumtd, hnum']
  · obtain ⟨-, hdesctd, hrecv⟩ := hrestd.resolve_left (by omega)
    have hnotfirst : ¬isFirstSubpkg td' := by
      simp only [isFirstSubpkg, hdesctd, hnumtd, hnum]
      simp
    exact ⟨n, _, te', td', by omega, hsend, hdecode.trans hrecv, hnotfirst, hpkt,
      ⟨hsubtd, hsublen.trans hslice, by omega⟩, .inr ⟨rfl, hdone, htotal,
        htotaltd.trans h.total_td, hversion.trans h.version_te,
        hversiontd.trans h.version_td, hseq.trans h.seq_te, hseqtd.trans h.seq_td⟩⟩

/-! ### Whole frames -/

/-- What a run of the encoder sends and a run of the decoder makes of it, when `cnt` bytes have
been exchanged before. -/
structure Transmits (packetLen version seq : Nat) (buf : Bytes) (cnt : Nat) (r : SendRun)
    (rs : List (OperateRet × Bytes)) (td : BleFrameTrsmitr) : Prop where
  rt : r.rt = oprtOk
  length_le : ∀ raw ∈ r.subpkgs, raw.length ≤ packetLen
  rts : rs.map Prod.fst =
    List.replicate (r.subpkgs.length - 1) oprtSvcBtApiTrsmitrContinue ++ [oprtOk]
  subpkgs_ne : r.subpkgs ≠ []
  data : (rs.map Prod.snd).flatten = buf.drop cnt
  finished : Finished version seq buf r.trsmitr td

theorem Transmits.last (frameSeq : Nat) {cnt n : Nat} {rt : OperateRet} (hrt : rt = oprtOk)
    (hex : Exchanged packetLen version seq buf cnt n rt te td) :
    Transmits packetLen version seq buf cnt ⟨[bleFrameSubpacket te], rt, te, frameSeq⟩
      [(rt, bleFrameSubpacket td)] td := by
  obtain ⟨hpkt, ⟨hdata, -⟩, ⟨hcont, -⟩ | ⟨-, hdone, hfin⟩⟩ := hex
  · rw [hrt] at hcont
    exact absurd hcont (by decide)
  · refine ⟨hrt, fun raw hraw => ?_, ?_, List.cons_ne_nil _ _, ?_, hfin⟩
    · rw [List.mem_singleton.mp hraw]
      exact hpkt
    · rw [hrt]
      rfl
    · show (([(rt, bleFrameSubpacket td)] : List (OperateRet × Bytes)).map Prod.snd).flatten = _
      rw [List.map_singleton, List.flatten_singleton, hdata, slice,
        List.take_of_length_le (by rw [List.length_drop]; omega)]

theorem Transmits.cons {cnt n : Nat} {te' td' : BleFrameTrsmitr} {r : SendRun}
    {rs : List (OperateRet × Bytes)} (hpkt : (bleFrameSubpacket te').length ≤ packetLen)
    (hdata : bleFrameSubpacket td' = slice buf cnt n)
    (h : Transmits packetLen version seq buf (cnt + n) r rs td) :
    Transmits packetLen version seq buf cnt { r with subpkgs := bleFrameSubpacket te' :: r.subpkgs }
      ((oprtSvcBtApiTrsmitrContinue, bleFrameSubpacket td') :: rs) td := by
  obtain ⟨k, hk⟩ : ∃ k, r.subpkgs.length = k + 1 :=
    Nat.exists_eq_succ_of_ne_zero fun h0 => h.subpkgs_ne (List.eq_nil_of_length_eq_zero h0)
  refine ⟨h.rt, ?_, ?_, List.cons_ne_nil _ _, ?_, h.finished⟩
  · exact List.forall_mem_cons.mpr ⟨hpkt, h.length_le⟩
  · rw [List.map_cons, h.rts, List.length_cons, hk]
    rfl
  · rw [List.map_cons, List.flatten_cons, h.data, hdata, slice, ← List.drop_drop,
      List.take_append_drop]

theorem exists_sendPkgs_recvPkgs (hpacket : 10 ≤ packetLen) (hpacket' : packetLen < 65536)
    (hlen : buf.length < bleFrameLimit) {fuel : Nat}
    (hfuel : buf.length - te.pkgTrsmitrCnt ≤ fuel)
    (h : InParallel packetLen version seq buf te td) :
    ∃ r rs td', sendPkgs packetLen version buf buf.length fuel frameSeq te = some (.ok r) ∧
      recvPkgs td r.subpkgs = .ok (rs, td') ∧
      Transmits packetLen version seq buf te.pkgTrsmitrCnt r rs td' := by
  induction fuel generalizing te td with
  | zero =>
    have hcnt := h.cnt_lt
    omega
  | succ fuel ih =>
    obtain ⟨n, rt, te', td₁, hn, hencode, hdecode, -, hex⟩ :=
      @exchange_next packetLen frameSeq version seq buf te td hpacket hpacket' hlen h
    have hcopy := hex
    obtain ⟨hpkt, ⟨hdata, -⟩, ⟨rfl, hcnt, hpar⟩ | ⟨rfl, hdone, hfin⟩⟩ := hex
    · obtain ⟨r, rs, td', hsend, hrecv, htrans⟩ := ih (by omega) hpar
      rw [hcnt] at htrans
      refine ⟨_, _, td', ?_, ?_, htrans.cons hpkt hdata⟩
      · simp only [sendPkgs, hencode, ↓reduceIte, hsend]
      · simp only [recvPkgs, hdecode, hrecv]
    · refine ⟨_, _, td₁, ?_, ?_, Transmits.last frameSeq rfl hcopy⟩
      · rw [sendPkgs, hencode]
        rfl
      · simp only [recvPkgs, hdecode]

/-- **Every frame survives the transmitter.** For every packet length from 10 on, every frame
below the length limit and every version of four bits, whatever the sequence counter is. -/
theorem roundTrips_of_lt (hpacket : 10 ≤ packetLen) (hpacket' : packetLen < 65536)
    (hlen : buf.length < bleFrameLimit) (hversion : version < 16) :
    RoundTrips packetLen frameSeq version buf := by
  obtain ⟨n, rt, te, td, hencode, hdecode, -, hex⟩ :=
    @exchange_first packetLen frameSeq version buf (bleFrameTrsmitrCreate packetLen)
      (bleFrameTrsmitrCreate packetLen) hpacket hpacket' hlen hversion List.length_replicate rfl
      (Nat.le_of_eq List.length_replicate.symm) (Nat.zero_lt_succ _)
  have hcopy := hex
  obtain ⟨hpkt, ⟨hdata, -⟩, ⟨rfl, hcnt, hpar⟩ | ⟨rfl, hdone, hfin⟩⟩ := hex
  · obtain ⟨r, rs, td', hsend, hrecv, htrans⟩ :=
      @exists_sendPkgs_recvPkgs packetLen (bleFrameSeqGet frameSeq).2 version _ buf te td hpacket
        hpacket' hlen buf.length (by omega) hpar
    rw [hcnt] at htrans
    have hall := htrans.cons hpkt hdata
    refine ⟨buf.length + 1, _, _, td', ?_, hall.rt, hall.length_le, ?_, hall.rts, hall.data, ?_⟩
    · simp only [sendPkgs, hencode, ↓reduceIte, hsend]
    · simp only [recvPkgs, hdecode, hrecv]
    · have hfin := hall.finished
      exact ⟨hfin.total_te, hfin.version_te, hfin.seq_te, hfin.total_td.trans hfin.total_te.symm,
        hfin.version_td.trans hfin.version_te.symm, by rw [hfin.seq_td, hfin.seq_te]⟩
  · have hall := Transmits.last (bleFrameSeqGet frameSeq).2 rfl hcopy
    refine ⟨1, _, _, td, ?_, hall.rt, hall.length_le, ?_, hall.rts, hall.data, ?_⟩
    · rw [sendPkgs, hencode]
      rfl
    · simp only [recvPkgs, hdecode]
    · exact ⟨hfin.total_te, hfin.version_te, hfin.seq_te, hfin.total_td.trans hfin.total_te.symm,
        hfin.version_td.trans hfin.version_te.symm, by rw [hfin.seq_td, hfin.seq_te]⟩

end Exchange

/-- A frame of 40 bytes on a connection with packets of 20. -/
theorem roundTrips_forty : RoundTrips 20 3 4 (List.replicate 40 7) :=
  roundTrips_of_lt (by decide) (by decide) (by decide) (by decide)

example : (sendPkgs 20 4 (List.replicate 40 7) 40 3 3 (bleFrameTrsmitrCreate 20)).map
    (·.map SendRun.subpkgs) =
      some (.ok [[0, 40, 0x43] ++ List.replicate 17 7, 1 :: List.replicate 19 7, [2, 7, 7, 7, 7]]) := by
  decide +kernel

end TuyaOpen.Ble
