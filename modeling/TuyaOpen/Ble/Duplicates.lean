import TuyaOpen.Ble.Session

/-!
# Repeated subpackets

A subpacket that arrives a second time gets `CONTINUE` from the decoder, as new data does, and
leaves the data of its first arrival in `subpkg`. `ble_packet_trsmitr` sees no difference and adds
that data to `raw_buf` once more.

## Main results

* `trsmitr_next`, `trsmitr_repeat`: a new subpacket and a repeated one add the same data.
* `assembled_delivery`: what a delivery adds to `raw_buf`.
* `harmless_iff`: the deliveries whose repeats are harmless.
-/

namespace TuyaOpen.Ble

/-! ### Deliveries -/

/-- How often a subpacket that is repeated `k` times has arrived when the last subpacket of the
frame arrives: once if it is the last one itself. -/
def arrivals {α : Type*} (k : Nat) (following : List α) : Nat :=
  if following.isEmpty then 1 else k + 1

/-- The subpackets of a frame behind subpacket 0, from number `num` on, up to the first arrival of
the last one. Each is given by its data and the number of times that it is repeated. -/
def laterSubpkgs : Nat → List (Bytes × Nat) → List Bytes
  | _, [] => []
  | num, c :: cs =>
    List.replicate (arrivals c.2 cs) (Varint.encode 4 num ++ c.1) ++ laterSubpkgs (num + 1) cs

def frameLen (first : Bytes) (later : List (Bytes × Nat)) : Nat :=
  first.length + ((later.map Prod.fst).flatten).length

def delivery (version seq : Nat) (first : Bytes) (later : List (Bytes × Nat)) : List Bytes :=
  (firstHead version seq (frameLen first later) ++ first) :: laterSubpkgs 1 later

def withoutRepeats (later : List (Bytes × Nat)) : List (Bytes × Nat) :=
  later.map fun c => (c.1, 0)

/-- `ble_packet_trsmitr` on one subpacket after the other. -/
def blePacketTrsmitrs : BlePacketRecv → List Bytes → Except MemFault BlePacketRecv
  | pr, [] => .ok pr
  | pr, raw :: raws =>
    match blePacketTrsmitr pr raw with
    | .error f => .error f
    | .ok (_, pr) => blePacketTrsmitrs pr raws

/-- `raw_len` and `raw_buf` after a delivery. -/
def assembled (pr : BlePacketRecv) (raws : List Bytes) : Except MemFault (Nat × Bytes) :=
  (blePacketTrsmitrs pr raws).map fun pr => (pr.rawLen, pr.rawBuf)

/-- When the last subpacket has arrived, `raw_len` and `raw_buf` are those of the delivery without
repeats. -/
def Harmless (pr : BlePacketRecv) (version seq : Nat) (first : Bytes)
    (later : List (Bytes × Nat)) : Prop :=
  assembled pr (delivery version seq first later) =
    assembled pr (delivery version seq first (withoutRepeats later))

/-- A frame that the decoder can take: `subpkg` has room for the data of each subpacket, and the
numbers and the length are in range. -/
structure Deliverable (pr : BlePacketRecv) (version : Nat) (first : Bytes)
    (later : List (Bytes × Nat)) : Prop where
  version_lt : version < 16
  subpkgNum_lt : pr.trsmitr.subpkgNum < bleFrameLimit
  first_le : first.length ≤ pr.trsmitr.subpkg.length
  later_le : ∀ c ∈ later, c.1.length ≤ pr.trsmitr.subpkg.length
  frameLen_lt : frameLen first later < bleFrameLimit
  count_lt : later.length < bleFrameLimit

/-- Every repeated subpacket, the last one of the frame apart, is without data. -/
def NoDataRepeated (later : List (Bytes × Nat)) : Prop :=
  ∀ c ∈ later.dropLast, c.2 = 0 ∨ c.1 = []

def deliveredLen (first : Bytes) (later : List (Bytes × Nat)) : Nat :=
  frameLen first later + (later.dropLast.map fun c => c.2 * c.1.length).sum

/-! ### What is added to the buffer -/

/-- `raw_len` and `raw_buf` after the data of a subpacket has been added: none when the copy leaves
`raw_buf`. -/
def push (raw : Nat × Bytes) (data : Bytes) : Option (Nat × Bytes) :=
  if u32 (raw.1 + data.length) ≤ tuyaBleAirFrameMax then
    if tuyaBleAirFrameMax < raw.1 + data.length then none
    else some (raw.1 + data.length, BlePacketRecv.writeBuf raw.2 raw.1 data)
  else some (u32 (raw.1 + data.length), raw.2)

/-- `push` for one subpacket after the other. -/
def pushes : Nat × Bytes → List Bytes → Option (Nat × Bytes)
  | raw, [] => some raw
  | raw, d :: ds =>
    match push raw d with
    | none => none
    | some raw => pushes raw ds

def laterData : List (Bytes × Nat) → List Bytes
  | [] => []
  | c :: cs => List.replicate (arrivals c.2 cs) c.1 ++ laterData cs

section Push

variable {raw raw' : Nat × Bytes} {data : Bytes} {ds : List Bytes}

theorem pushes_append (raw : Nat × Bytes) (ds ds' : List Bytes) :
    pushes raw (ds ++ ds') = (pushes raw ds).bind fun raw => pushes raw ds' := by
  induction ds generalizing raw with
  | nil => rfl
  | cons d ds ih =>
    rw [List.cons_append, pushes, pushes]
    cases push raw d with
    | none => rfl
    | some raw₁ => exact ih raw₁

theorem push_nil (hraw : raw.1 < 4294967296) (hbuf : raw.2.length = tuyaBleAirFrameMax) :
    push raw [] = some raw := by
  have hlen : u32 (raw.1 + ([] : Bytes).length) = raw.1 := u32_of_lt hraw
  rw [push, hlen, List.length_nil, Nat.add_zero]
  split_ifs with hle hlt
  · omega
  · rw [BlePacketRecv.writeBuf, memcpy_of_le (by rw [List.length_nil]; omega), Option.getD_some,
      List.append_nil, List.length_nil, Nat.add_zero, List.take_append_drop]
  · rfl

theorem pushes_replicate_nil (hraw : raw.1 < 4294967296)
    (hbuf : raw.2.length = tuyaBleAirFrameMax) (k : Nat) :
    pushes raw (List.replicate k []) = some raw := by
  induction k with
  | zero => rfl
  | succ k ih =>
    rw [List.replicate_succ, pushes, push_nil hraw hbuf]
    exact ih

theorem push_eq_some (h : push raw data = some raw') :
    raw'.1 = u32 (raw.1 + data.length) ∧ raw'.1 < 4294967296 ∧
      (raw.2.length = tuyaBleAirFrameMax → raw'.2.length = tuyaBleAirFrameMax) := by
  rw [push] at h
  split_ifs at h with hle hlt
  · obtain rfl := Option.some.inj h
    have hmax : raw.1 + data.length ≤ 1024 := Nat.not_lt.mp hlt
    have hlen : u32 (raw.1 + data.length) = raw.1 + data.length := u32_of_lt (by omega)
    exact ⟨hlen.symm, by dsimp only; omega, BlePacketRecv.length_writeBuf _ _⟩
  · obtain rfl := Option.some.inj h
    exact ⟨rfl, u32_lt _, fun hbuf => hbuf⟩

theorem exists_push (hlen : raw.1 + data.length < 4294967296) :
    ∃ raw', push raw data = some raw' ∧ raw'.1 = raw.1 + data.length := by
  rw [push, u32_of_lt hlen]
  split_ifs with hle hlt
  · omega
  · exact ⟨_, rfl, rfl⟩
  · exact ⟨_, rfl, rfl⟩

theorem exists_pushes (hlen : raw.1 + ds.flatten.length < 4294967296) :
    ∃ raw', pushes raw ds = some raw' ∧ raw'.1 = raw.1 + ds.flatten.length := by
  induction ds generalizing raw with
  | nil => exact ⟨raw, rfl, rfl⟩
  | cons d ds ih =>
    rw [List.flatten_cons, List.length_append] at hlen
    obtain ⟨raw₁, hpush, hraw₁⟩ := @exists_push raw d (by omega)
    obtain ⟨raw', hpushes, hraw'⟩ := @ih raw₁ (by omega)
    refine ⟨raw', ?_, ?_⟩
    · rw [pushes, hpush]
      exact hpushes
    · rw [hraw', hraw₁, List.flatten_cons, List.length_append, Nat.add_assoc]

theorem lt_of_pushes (hraw : raw.1 < 4294967296)
    (hds : ∀ d ∈ ds, d.length ≤ tuyaBleAirFrameMax) (h : pushes raw ds = some raw') :
    raw.1 + ds.flatten.length < 4294967296 := by
  induction ds generalizing raw with
  | nil => exact hraw
  | cons d ds ih =>
    obtain ⟨hd, hds⟩ := List.forall_mem_cons.mp hds
    have hd' : d.length ≤ 1024 := hd
    rw [pushes] at h
    have hlen : raw.1 + d.length < 4294967296 := by
      by_contra hwrap
      have hlow : u32 (raw.1 + d.length) ≤ tuyaBleAirFrameMax := by
        have hmod : u32 (raw.1 + d.length) = raw.1 + d.length - 4294967296 := by
          rw [u32]
          omega
        show u32 (raw.1 + d.length) ≤ 1024
        omega
      have hhigh : tuyaBleAirFrameMax < raw.1 + d.length := by
        show 1024 < raw.1 + d.length
        omega
      rw [push, if_pos hlow, if_pos hhigh] at h
      cases h
    obtain ⟨raw₁, hpush, hraw₁⟩ := exists_push hlen
    rw [hpush] at h
    have hrest := @ih raw₁ (by omega) hds h
    rw [List.flatten_cons, List.length_append]
    omega

end Push

/-! ### One subpacket -/

/-- The decoder has taken over subpacket `num` with the data `d`, and `cnt` of `total` bytes. -/
structure Decoded (cap total num cnt : Nat) (d : Bytes) (t : BleFrameTrsmitr) : Prop where
  length_subpkg : t.subpkg.length = cap
  total_eq : t.total = total
  num_eq : t.subpkgNum = num
  cnt_eq : t.pkgTrsmitrCnt = cnt
  pkgDesc : t.pkgDesc ≠ .pkgInit
  data : bleFrameSubpacket t = d
  subpkgLen : t.subpkgLen = d.length

/-- `raw_len` and `raw_buf`. -/
def BlePacketRecv.raw (pr : BlePacketRecv) : Nat × Bytes := (pr.rawLen, pr.rawBuf)

theorem exists_arrivals {α : Type*} (k : Nat) (following : List α) :
    ∃ n, arrivals k following = n + 1 := by
  cases following with
  | nil => exact ⟨0, rfl⟩
  | cons => exact ⟨k, rfl⟩

section Receive

variable {pr : BlePacketRecv} {cap total num cnt version seq : Nat} {d first : Bytes}
  {t td : BleFrameTrsmitr} {rt : OperateRet}

theorem trsmitr_push {raw : Bytes}
    (hdecode : bleFrameTrsmitrRecvPkgDecode pr.trsmitr raw = .ok (rt, td))
    (hrt : rt = oprtOk ∨ rt = oprtSvcBtApiTrsmitrContinue) (h : Decoded cap total num cnt d td) :
    let start := if isFirstSubpkg td then (0, List.replicate tuyaBleAirFrameMax 0) else pr.raw
    (push start d = none ∧ blePacketTrsmitr pr raw = .error .rawBuf) ∨
      ∃ rt' pr', push start d = some pr'.raw ∧ blePacketTrsmitr pr raw = .ok (rt', pr') ∧
        pr'.trsmitr = td := by
  intro start
  have hgo : ¬(rt ≠ oprtOk ∧ rt ≠ oprtSvcBtApiTrsmitrContinue) := fun h => hrt.elim h.1 h.2
  obtain ⟨pr₁, hpr₁, htrs, hraw⟩ : ∃ pr₁ : BlePacketRecv,
      (if isFirstSubpkg td then { pr with trsmitr := td }.clearRaw else { pr with trsmitr := td }) =
        pr₁ ∧ pr₁.trsmitr = td ∧ pr₁.raw = start := by
    by_cases hfirst : isFirstSubpkg td
    · exact ⟨_, if_pos hfirst, rfl, (if_pos hfirst).symm⟩
    · exact ⟨_, if_neg hfirst, rfl, (if_neg hfirst).symm⟩
  have hlen : start.1 = pr₁.rawLen := congrArg Prod.fst hraw.symm
  have hbuf : start.2 = pr₁.rawBuf := congrArg Prod.snd hraw.symm
  rw [push, hlen, hbuf]
  simp only [blePacketTrsmitr, hdecode, if_neg hgo, hpr₁, h.subpkgLen, h.data]
  by_cases hle : u32 (pr₁.rawLen + d.length) ≤ tuyaBleAirFrameMax
  · by_cases hlt : tuyaBleAirFrameMax < pr₁.rawLen + d.length
    · exact .inl ⟨by rw [if_pos hle, if_pos hlt], by rw [if_pos hle, if_pos hlt]⟩
    · have hmax : pr₁.rawLen + d.length ≤ 1024 := Nat.not_lt.mp hlt
      have hsum : u32 (pr₁.rawLen + d.length) = pr₁.rawLen + d.length := u32_of_lt (by omega)
      refine .inr ⟨rt, { pr₁.writeRaw pr₁.rawLen d with
        rawLen := u32 (pr₁.rawLen + d.length) }, ?_, ?_, htrs⟩
      · rw [if_pos hle, if_neg hlt, BlePacketRecv.raw, hsum]
        rfl
      · rw [if_pos hle, if_neg hlt]
  · refine .inr ⟨oprtInvalidParm, { pr₁ with rawLen := u32 (pr₁.rawLen + d.length) }, ?_, ?_, htrs⟩
    · rw [if_neg hle]
      rfl
    · rw [if_neg hle]

theorem decode_next {d₀ : Bytes} (h : Decoded cap total num cnt d₀ t) (hd : d.length ≤ cap)
    (hcnt : cnt + d.length ≤ total) (htotal : total < bleFrameLimit)
    (hnum : num + 1 < bleFrameLimit) :
    ∃ rt td, bleFrameTrsmitrRecvPkgDecode t (Varint.encode 4 (num + 1) ++ d) = .ok (rt, td) ∧
      (rt = oprtOk ∨ rt = oprtSvcBtApiTrsmitrContinue) ∧ isFirstSubpkg td = false ∧
      Decoded cap total (num + 1) (cnt + d.length) d td := by
  have hdecode := @recvPkgDecode_next t d (num + 1) h.pkgDesc (by rw [h.num_eq]) hnum
  obtain ⟨td, hdata, hsublen, hlentd, hcnttd, htotaltd, -, -, hnumtd, hres⟩ :=
    @recvData_spec { t with pkgDesc := .pkgMiddle, subpkgNum := num + 1 } d
      (hd.trans_eq h.length_subpkg.symm) (by rw [h.cnt_eq, h.total_eq]; exact hcnt)
      (by rw [h.total_eq]; exact htotal)
  have hdecoded (hdesc : td.pkgDesc ≠ .pkgInit) :
      Decoded cap total (num + 1) (cnt + d.length) d td :=
    ⟨hlentd.trans h.length_subpkg, htotaltd.trans h.total_eq, hnumtd,
      by rw [hcnttd, h.cnt_eq], hdesc, hdata, hsublen⟩
  rcases hres with ⟨-, hdesc, hrecv⟩ | ⟨-, hdesc, hrecv⟩
  · refine ⟨_, td, hdecode.trans hrecv, .inr rfl, ?_, hdecoded ?_⟩
    · simp [isFirstSubpkg, hdesc]
    · rw [hdesc]
      exact BleFramePkgDesc.noConfusion
  · refine ⟨_, td, hdecode.trans hrecv, .inl rfl, ?_, hdecoded ?_⟩
    · simp [isFirstSubpkg, hdesc, hnumtd]
    · rw [hdesc]
      exact BleFramePkgDesc.noConfusion

/-- **A repeated subpacket** gets `CONTINUE`, and its data is still in `subpkg`. -/
theorem decode_repeat (h : Decoded cap total num cnt d t) (hzero : num ≠ 0)
    (hnum : num < bleFrameLimit) :
    ∃ td, bleFrameTrsmitrRecvPkgDecode t (Varint.encode 4 num ++ d) =
        .ok (oprtSvcBtApiTrsmitrContinue, td) ∧
      isFirstSubpkg td = false ∧ Decoded cap total num cnt d td := by
  have hvar : num < 128 ^ 4 := hnum
  have hkeep : recvNumber t num = { t with pkgDesc := .pkgMiddle } := by
    simp only [recvNumber, if_neg h.pkgDesc, if_neg hzero]
  refine ⟨{ t with pkgDesc := .pkgMiddle }, ?_, rfl, h.length_subpkg, h.total_eq, h.num_eq,
    h.cnt_eq, BleFramePkgDesc.noConfusion, h.data, h.subpkgLen⟩
  rw [bleFrameTrsmitrRecvPkgDecode, Varint.decode_encode hvar]
  simp only [hkeep, h.num_eq]
  rw [if_neg (Nat.not_le.mpr hnum), if_neg hzero, if_neg (Nat.lt_irrefl num), if_pos trivial]

/-! ### Deliveries -/

/-- The outcome of a delivery that adds the data `ds`. -/
def outcome (raw : Nat × Bytes) (ds : List Bytes) : Except MemFault (Nat × Bytes) :=
  match pushes raw ds with
  | none => .error .rawBuf
  | some raw => .ok raw

theorem assembled_cons {raw : Bytes} {raws ds : List Bytes}
    (hdecode : bleFrameTrsmitrRecvPkgDecode pr.trsmitr raw = .ok (rt, td))
    (hrt : rt = oprtOk ∨ rt = oprtSvcBtApiTrsmitrContinue) (h : Decoded cap total num cnt d td)
    (hrest : ∀ pr' : BlePacketRecv, Decoded cap total num cnt d pr'.trsmitr →
      assembled pr' raws = outcome pr'.raw ds) :
    assembled pr (raw :: raws) =
      outcome (if isFirstSubpkg td then (0, List.replicate tuyaBleAirFrameMax 0) else pr.raw)
        (d :: ds) := by
  rw [assembled, blePacketTrsmitrs, outcome, pushes]
  rcases trsmitr_push hdecode hrt h with ⟨hpush, htrs⟩ | ⟨rt', pr', hpush, htrs, rfl⟩
  · rw [hpush, htrs]
    rfl
  · rw [hpush, htrs]
    exact hrest pr' h

theorem assembled_replicate {rest ds : List Bytes} (hzero : num ≠ 0) (hnum : num < bleFrameLimit)
    (hrest : ∀ pr' : BlePacketRecv, Decoded cap total num cnt d pr'.trsmitr →
      assembled pr' rest = outcome pr'.raw ds)
    (k : Nat) (h : Decoded cap total num cnt d pr.trsmitr) :
    assembled pr (List.replicate k (Varint.encode 4 num ++ d) ++ rest) =
      outcome pr.raw (List.replicate k d ++ ds) := by
  induction k generalizing pr with
  | zero => exact hrest pr h
  | succ k ih =>
    obtain ⟨td, hdecode, hnext, htd⟩ := decode_repeat h hzero hnum
    have hstep := assembled_cons hdecode (.inr rfl) htd fun pr' h' => ih h'
    rw [hnext] at hstep
    exact hstep

theorem assembled_laterSubpkgs {later : List (Bytes × Nat)} {d₀ : Bytes}
    (hlater : ∀ c ∈ later, c.1.length ≤ cap)
    (hcnt : cnt + ((later.map Prod.fst).flatten).length ≤ total) (htotal : total < bleFrameLimit)
    (hnum : num + later.length < bleFrameLimit) (h : Decoded cap total num cnt d₀ pr.trsmitr) :
    assembled pr (laterSubpkgs (num + 1) later) = outcome pr.raw (laterData later) := by
  induction later generalizing pr num cnt d₀ with
  | nil => rfl
  | cons c later ih =>
    obtain ⟨hc, hlater⟩ := List.forall_mem_cons.mp hlater
    rw [List.map_cons, List.flatten_cons, List.length_append] at hcnt
    rw [List.length_cons] at hnum
    obtain ⟨rt, td, hdecode, hrt, hnext, htd⟩ := @decode_next cap total num cnt c.1 pr.trsmitr d₀ h
      hc (by omega) htotal (by omega)
    obtain ⟨k, hk⟩ : ∃ k, arrivals c.2 later = k + 1 := exists_arrivals c.2 later
    have hstep := assembled_cons hdecode hrt htd fun pr' h' =>
      assembled_replicate (Nat.succ_ne_zero num) (by omega)
        (fun pr₁ h₁ => ih hlater (by omega) (by omega) h₁) k h'
    rw [hnext] at hstep
    rw [laterSubpkgs, laterData, hk, List.replicate_succ, List.replicate_succ]
    exact hstep

theorem assembled_delivery {later : List (Bytes × Nat)} (h : Deliverable pr version first later) :
    assembled pr (delivery version seq first later) =
      outcome (0, List.replicate tuyaBleAirFrameMax 0) (first :: laterData later) := by
  have hlen := h.frameLen_lt
  have hfront : first.length ≤ frameLen first later := Nat.le_add_right _ _
  have hdecode := @recvPkgDecode_first (frameLen first later) pr.trsmitr first version seq
    h.subpkgNum_lt hlen h.version_lt
  obtain ⟨td, hdata, hsublen, hlentd, hcnttd, htotaltd, -, -, hnumtd, hres⟩ :=
    @recvData_spec ⟨frameLen first later, version, seq % 16, .pkgFirst, 0, 0,
      pr.trsmitr.subpkgLen, pr.trsmitr.subpkg⟩ first h.first_le (by dsimp only; omega) hlen
  obtain ⟨rt, hrt, hrecv, hdesc, hfirst⟩ : ∃ rt, (rt = oprtOk ∨ rt = oprtSvcBtApiTrsmitrContinue) ∧
      bleFrameTrsmitrRecvPkgDecode pr.trsmitr (firstHead version seq (frameLen first later) ++
        first) = .ok (rt, td) ∧ td.pkgDesc ≠ .pkgInit ∧ isFirstSubpkg td = true := by
    rcases hres with ⟨-, hdesc, hrecv⟩ | ⟨-, hdesc, hrecv⟩
    · refine ⟨_, .inr rfl, hdecode.trans hrecv, ?_, by simp [isFirstSubpkg, hdesc]⟩
      rw [hdesc]
      exact BleFramePkgDesc.noConfusion
    · refine ⟨_, .inl rfl, hdecode.trans hrecv, ?_, by simp [isFirstSubpkg, hdesc, hnumtd]⟩
      rw [hdesc]
      exact BleFramePkgDesc.noConfusion
  have htd : Decoded pr.trsmitr.subpkg.length (frameLen first later) 0 first.length first td :=
    ⟨hlentd, htotaltd, hnumtd, hcnttd.trans (Nat.zero_add _), hdesc, hdata, hsublen⟩
  have hcount := h.count_lt
  have hstep := assembled_cons hrecv hrt htd fun pr' h' =>
    assembled_laterSubpkgs h.later_le (Nat.le_refl _) hlen (by omega) h'
  rw [hfirst] at hstep
  exact hstep

end Receive

/-! ### Harmless repeats -/

section Harmless

variable {pr : BlePacketRecv} {version seq : Nat} {first : Bytes} {later : List (Bytes × Nat)}

theorem laterData_withoutRepeats (later : List (Bytes × Nat)) :
    laterData (withoutRepeats later) = later.map Prod.fst := by
  induction later with
  | nil => rfl
  | cons c later ih =>
    have honce : arrivals 0 (withoutRepeats later) = 1 := by
      rw [arrivals]
      split_ifs <;> rfl
    rw [withoutRepeats, List.map_cons, laterData]
    show List.replicate (arrivals 0 (withoutRepeats later)) c.1 ++
      laterData (withoutRepeats later) = _
    rw [honce, ih]
    rfl

theorem Deliverable.withoutRepeats (h : Deliverable pr version first later) :
    Deliverable pr version first (Ble.withoutRepeats later) := by
  have hmap : (Ble.withoutRepeats later).map Prod.fst = later.map Prod.fst := by
    rw [Ble.withoutRepeats, List.map_map]
    rfl
  refine ⟨h.version_lt, h.subpkgNum_lt, h.first_le, fun c hc => ?_, ?_, ?_⟩
  · obtain ⟨c', hc', rfl⟩ := List.mem_map.mp hc
    exact h.later_le c' hc'
  · rw [frameLen, hmap]
    exact h.frameLen_lt
  · rw [Ble.withoutRepeats, List.length_map]
    exact h.count_lt

theorem length_laterData (later : List (Bytes × Nat)) :
    (laterData later).flatten.length = ((later.map Prod.fst).flatten).length +
      (later.dropLast.map fun c => c.2 * c.1.length).sum := by
  induction later with
  | nil => rfl
  | cons c later ih =>
    rw [laterData, List.flatten_append, List.length_append, ih, List.map_cons, List.flatten_cons,
      List.length_append, List.length_flatten, List.map_replicate, List.sum_replicate_nat]
    cases later with
    | nil =>
      show 1 * c.1.length + (0 + 0) = c.1.length + 0 + 0
      omega
    | cons c' later =>
      rw [List.dropLast_cons_cons, @List.map_cons _ _ (fun c : Bytes × Nat => c.2 * c.1.length),
        List.sum_cons]
      show (c.2 + 1) * c.1.length + _ = _
      rw [Nat.succ_mul]
      omega

theorem NoDataRepeated.tail {c : Bytes × Nat} (h : NoDataRepeated (c :: later)) :
    NoDataRepeated later := by
  cases later with
  | nil => exact fun c hc => by cases hc
  | cons c' later =>
    intro c'' hc''
    exact h c'' (by rw [List.dropLast_cons_cons]; exact List.mem_cons_of_mem _ hc'')

theorem pushes_laterData {raw : Nat × Bytes} (hraw : raw.1 < 4294967296)
    (hbuf : raw.2.length = tuyaBleAirFrameMax) (h : NoDataRepeated later) :
    pushes raw (laterData later) = pushes raw (later.map Prod.fst) := by
  induction later generalizing raw with
  | nil => rfl
  | cons c later ih =>
    have hcons : arrivals c.2 later = 1 ∨ c.1 = [] := by
      cases later with
      | nil => exact .inl rfl
      | cons c' later =>
        rcases h c (by rw [List.dropLast_cons_cons]; exact List.mem_cons_self) with hzero | hnil
        · exact .inl (congrArg (· + 1) hzero)
        · exact .inr hnil
    rw [laterData, List.map_cons, pushes]
    rcases hcons with hone | hnil
    · rw [hone, List.replicate_one, List.singleton_append, pushes]
      cases hpush : push raw c.1 with
      | none => rfl
      | some raw₁ =>
        obtain ⟨-, hraw₁, hbuf₁⟩ := push_eq_some hpush
        exact ih hraw₁ (hbuf₁ hbuf) h.tail
    · rw [hnil, pushes_append, pushes_replicate_nil hraw hbuf, push_nil hraw hbuf]
      exact ih hraw hbuf h.tail

theorem exists_of_mem_laterData {d : Bytes} (h : d ∈ laterData later) : ∃ c ∈ later, c.1 = d := by
  induction later with
  | nil => cases h
  | cons c later ih =>
    rcases List.mem_append.mp h with hd | hd
    · exact ⟨c, List.mem_cons_self, (List.eq_of_mem_replicate hd).symm⟩
    · obtain ⟨c', hc', rfl⟩ := ih hd
      exact ⟨c', List.mem_cons_of_mem c hc', rfl⟩

theorem length_le_frameLen {d : Bytes} (h : d ∈ first :: laterData later) :
    d.length ≤ frameLen first later := by
  rcases List.mem_cons.mp h with rfl | hd
  · exact Nat.le_add_right _ _
  · obtain ⟨c, hc, rfl⟩ := exists_of_mem_laterData hd
    have hsub : List.Sublist c.1 (later.map Prod.fst).flatten :=
      List.sublist_flatten_of_mem (List.mem_map_of_mem hc)
    exact Nat.le_trans hsub.length_le (Nat.le_add_left _ _)

theorem noDataRepeated_of_deliveredLen (h : deliveredLen first later = frameLen first later) :
    NoDataRepeated later := by
  intro c hc
  have hsum : (later.dropLast.map fun c => c.2 * c.1.length).sum = 0 :=
    Nat.add_left_cancel (h.trans (Nat.add_zero _).symm)
  have hzero : c.2 * c.1.length = 0 :=
    List.sum_eq_zero_iff_forall_eq_nat.mp hsum _ (List.mem_map_of_mem hc)
  rcases Nat.mul_eq_zero.mp hzero with hk | hd
  · exact .inl hk
  · exact .inr (List.eq_nil_of_length_eq_zero hd)

theorem Deliverable.flatten_le (h : Deliverable pr version first later) :
    first.length + ((later.map Prod.fst).flatten).length < 4294967296 :=
  Nat.lt_trans h.frameLen_lt (by decide)

/-- **Repeats are harmless** if every repeated subpacket, the last one apart, is empty; and unless a
frame that does not fit into `raw_buf` is repeated over 4 GiB, they are harmless only then. -/
theorem harmless_iff (h : Deliverable pr version first later) :
    (NoDataRepeated later → Harmless pr version seq first later) ∧
      (frameLen first later ≤ tuyaBleAirFrameMax ∨ deliveredLen first later < 4294967296 →
        Harmless pr version seq first later → NoDataRepeated later) := by
  have hsame : (first :: laterData later).flatten.length = deliveredLen first later := by
    rw [List.flatten_cons, List.length_append, length_laterData, deliveredLen, frameLen,
      Nat.add_assoc]
  have hstart : (List.replicate tuyaBleAirFrameMax (0 : UInt8)).length = tuyaBleAirFrameMax :=
    List.length_replicate
  rw [Harmless, assembled_delivery h, assembled_delivery h.withoutRepeats,
    laterData_withoutRepeats]
  obtain ⟨raw, hraw, hlen⟩ := @exists_pushes (0, List.replicate tuyaBleAirFrameMax 0)
    (first :: later.map Prod.fst) (by
      rw [List.flatten_cons, List.length_append, Nat.zero_add]
      exact h.flatten_le)
  constructor
  · intro hno
    have hpushes : pushes (0, List.replicate tuyaBleAirFrameMax 0) (first :: laterData later) =
        pushes (0, List.replicate tuyaBleAirFrameMax 0) (first :: later.map Prod.fst) := by
      rw [pushes, pushes]
      cases hpush : push (0, List.replicate tuyaBleAirFrameMax 0) first with
      | none => rfl
      | some raw₁ =>
        obtain ⟨-, hraw₁, hbuf₁⟩ := push_eq_some hpush
        exact pushes_laterData hraw₁ (hbuf₁ hstart) hno
    rw [outcome, outcome, hpushes]
  · intro hsmall hharmless
    rw [outcome, outcome, hraw] at hharmless
    -- The delivery does not leave `raw_buf`, and ends with the `raw_len` of the frame.
    cases hrep : pushes (0, List.replicate tuyaBleAirFrameMax 0) (first :: laterData later) with
    | none =>
      rw [hrep] at hharmless
      cases hharmless
    | some raw' =>
      rw [hrep] at hharmless
      obtain rfl : raw' = raw := Except.ok.inj hharmless
      have hlt : 0 + (first :: laterData later).flatten.length < 4294967296 := by
        rcases hsmall with hmax | hlt
        · exact lt_of_pushes (by decide) (fun d hd => (length_le_frameLen hd).trans hmax) hrep
        · rw [hsame, Nat.zero_add]
          exact hlt
      obtain ⟨raw₂, hraw₂, hlen₂⟩ :=
        @exists_pushes (0, List.replicate tuyaBleAirFrameMax 0) (first :: laterData later) hlt
      obtain rfl : raw' = raw₂ := Option.some.inj (hrep.symm.trans hraw₂)
      rw [hlen, hsame, List.flatten_cons, List.length_append] at hlen₂
      exact @noDataRepeated_of_deliveredLen first later (Nat.add_left_cancel hlen₂).symm

end Harmless

/-- A frame of three bytes in three subpackets, the middle one of which arrives twice. -/
def sampleLater : List (Bytes × Nat) := [([2], 1), ([3], 0)]

theorem deliverable_sampleLater : Deliverable (freshRecv 20) 4 [1] sampleLater :=
  ⟨by decide, by decide, by decide, by decide, by decide, by decide⟩

theorem harmless_iff_sampleLater :
    (NoDataRepeated sampleLater → Harmless (freshRecv 20) 4 0 [1] sampleLater) ∧
      (frameLen [1] sampleLater ≤ tuyaBleAirFrameMax ∨
          deliveredLen [1] sampleLater < 4294967296 →
        Harmless (freshRecv 20) 4 0 [1] sampleLater → NoDataRepeated sampleLater) :=
  harmless_iff deliverable_sampleLater

/-- The frame comes out with four bytes. -/
theorem not_harmless_sampleLater :
    ¬∀ pr version seq first later, Deliverable pr version first later →
      Harmless pr version seq first later := by
  intro h
  have hlen : ((assembled (freshRecv 20) (delivery 4 0 [1] sampleLater)).map Prod.fst) =
      (assembled (freshRecv 20) (delivery 4 0 [1] (withoutRepeats sampleLater))).map Prod.fst :=
    congrArg _ (h (freshRecv 20) 4 0 [1] sampleLater deliverable_sampleLater)
  have hfour : (assembled (freshRecv 20) (delivery 4 0 [1] sampleLater)).map Prod.fst = .ok 4 := by
    decide +kernel
  have hthree : (assembled (freshRecv 20)
      (delivery 4 0 [1] (withoutRepeats sampleLater))).map Prod.fst = .ok 3 := by
    decide +kernel
  rw [hfour, hthree] at hlen
  exact absurd (Except.ok.inj hlen) (by decide)

end TuyaOpen.Ble
