import TuyaOpen.Ble.Session

/-!
# Which BLE commands are accepted

Two questions about whole runs of the BLE service. Does an accepted command come from the frame that
was just completed, and can a peer that knows no key of the device have a command executed? Both are
decided by what a completed frame leaves unchecked: the announced length is compared with the size
of `dec_buf` and not with the length of the plaintext, a subpacket with a number other than 0 goes on
with a frame that is already complete, and a frame of mode `ENCRYPTION_MODE_NONE` needs no key.
-/

namespace TuyaOpen.Ble

/-! ### Commands come from the frame at hand -/

/-- The packet that the write `raw` has delivered comes from the frame at hand: the announced data
lies inside the plaintext, and a receiver that has got nothing before delivers the same packet from
the last writes of the run alone, which were all received on this connection. -/
def FromFrame (env : BleEnv) (evs : List BleEvent) (l l' : BleLink) (raw : Bytes)
    (packet : BlePacket) : Prop :=
  packet.data.length + blePacketMinLen ≤ l'.mgr.packetRecv.decLen ∧
    ∃ pre ws rs ble, evs ++ [.write raw] = pre ++ ws.map .write ∧
      blePacketRecvs env (freshMgr l.mgr) ws = .ok (rs ++ [(oprtOk, some packet)], ble)

/-- A write belongs to a frame that was begun on this connection, and a frame that it completes has
a plaintext that holds what it announces. -/
def FrameCond (env : BleEnv) (l : BleLink) (raw : Bytes) : Prop :=
  Begun l raw ∧ OfFrame env (fun _ plain => SelfContained plain) l.mgr raw

section Accept

variable {env : BleEnv} {init l l' : BleLink} {evs : List BleEvent} {raw : Bytes}
  {packet : BlePacket}

theorem LinkInv.of_linkRun {Cond : BleLink → Bytes → Prop} (hcond : ∀ l raw, Cond l raw → Begun l raw)
    (hnum : init.mgr.packetRecv.trsmitr.subpkgNum < bleFrameLimit) (hwrites : init.writes = [])
    (hrun : LinkRun env Cond init evs l) : LinkInv env evs l := by
  induction hrun with
  | start => exact .of_nil hnum hwrites
  | @step evs l l' ev out _ hmeets hstep ih =>
    exact ih.step (fun raw hev => hcond l raw (hmeets raw hev)) hstep

theorem exists_of_deliver {rt : OperateRet} {ble : BleMgr}
    (h : blePacketRecv env l.mgr raw = .ok (rt, some packet, ble)) :
    ∃ pr, blePacketTrsmitr l.mgr.packetRecv raw = .ok (oprtOk, pr) ∧
      (rt, some packet, ble) = recvFrame env { l.mgr with packetRecv := pr } := by
  obtain ⟨ret, pr, htrs, ⟨-, hnone, -⟩ | ⟨rfl, hres⟩⟩ := exists_of_blePacketRecv h
  · cases hnone
  · exact ⟨pr, htrs, hres⟩

/-- **Accepted commands come from the frame at hand**, in every run in which each write meets
`FrameCond`. -/
theorem fromFrame_of_linkRun
    (hnum : init.mgr.packetRecv.trsmitr.subpkgNum < bleFrameLimit) (hwrites : init.writes = [])
    (hrun : LinkRun env (FrameCond env) init evs l) (hcond : FrameCond env l raw)
    (hstep : LinkStep env l (.write raw) (some packet) l') :
    FromFrame env evs l l' raw packet := by
  have hinv := LinkInv.of_linkRun (fun _ _ h => h.1) hnum hwrites hrun
  cases hstep with
  | @deliver _ rt _ ble ble' h hhandles =>
    obtain ⟨pr, htrs, hres⟩ := exists_of_deliver h
    obtain ⟨ws, rs, q, -, ⟨pre, hpre⟩, hreplay, ⟨pr', htrs', hagree⟩, -, -⟩ :=
      hinv.exists_follows hcond.1 htrs
    have hpacket : (recvFrame env { l.mgr with packetRecv := pr }).2.1 = some packet := by
      rw [← hres]
    obtain ⟨hok, hsame, hlen⟩ := recvFrame_of_agree hagree
      (fun plain decLen st hdec => hcond.2 pr plain decLen st htrs hdec) hpacket
    have hrecv := @blePacketRecv_of_trsmitr env { l.mgr with packetRecv := q } raw oprtOk pr' htrs'
    rw [if_neg (not_not.mpr rfl)] at hrecv
    have hlast : blePacketRecv env { l.mgr with packetRecv := q } raw =
        .ok (oprtOk, some packet, (recvFrame env { l.mgr with packetRecv := pr' }).2.2) := by
      rw [hrecv, ← hok, ← hsame]
    refine ⟨?_, pre, ws ++ [raw], rs, _, ?_, blePacketRecvs_append hreplay hlast⟩
    · obtain ⟨subpkg, hpr, -⟩ := hhandles
      have hble : ble = (recvFrame env { l.mgr with packetRecv := pr }).2.2 := by rw [← hres]
      rw [hpr, hble]
      exact hlen
    · rw [hpre, List.map_append, List.append_assoc]
      rfl

/-! ### Peers without keys -/

end Accept

/-! ### A command that is not encrypted -/

/-- The command `FRM_DEVICE_RESET` with two bytes of data, as it is received. -/
def resetPacket : BlePacket := ⟨1, 0x0006, [0, 0], encryptionModeNone, by decide⟩

def resetFrame : Bytes := encryptionModeNone :: bleFrame 1 resetPacket

def resetWrite : Bytes := [0, 17, 0x40] ++ resetFrame

/-- The receiver of `sampleMgr` after a frame that fits in one write. -/
def recvOfFrame (frame : Bytes) (h : frame.length ≤ tuyaBleAirFrameMax) : BlePacketRecv where
  trsmitr := ⟨frame.length, 4, 0, .pkgEnd, 0, frame.length, frame.length,
    frame ++ List.replicate (1024 - frame.length) 0⟩
  rawLen := frame.length
  rawBuf := frame ++ List.replicate (1024 - frame.length) 0
  decLen := 0
  decBuf := List.replicate 1024 0
  length_rawBuf := by
    rw [List.length_append, List.length_replicate]
    exact Nat.add_sub_of_le h
  length_decBuf := BlePacketRecv.length_zeroBuf

def resetRecv : BlePacketRecv := recvOfFrame resetFrame (by decide)

def resetMgr : BleMgr := (recvFrame sampleEnv { sampleMgr with packetRecv := resetRecv }).2.2

def sampleLink : BleLink := ⟨sampleMgr, false, [], []⟩

theorem blePacketTrsmitr_resetWrite :
    blePacketTrsmitr sampleMgr.packetRecv resetWrite = .ok (oprtOk, resetRecv) := by
  decide +kernel

theorem eq_resetRecv {pr : BlePacketRecv}
    (h : blePacketTrsmitr sampleMgr.packetRecv resetWrite = .ok (oprtOk, pr)) : resetRecv = pr :=
  (Prod.mk.inj (Except.ok.inj (blePacketTrsmitr_resetWrite.symm.trans h))).2

theorem blePacketRecv_resetWrite :
    blePacketRecv sampleEnv sampleMgr resetWrite = .ok (oprtOk, some resetPacket, resetMgr) := by
  decide +kernel

theorem exists_mgr_of_map {x : Except MemFault (OperateRet × Option BlePacket × BleMgr)}
    {rt : OperateRet} {packet : Option BlePacket}
    (h : x.map (fun r => (r.1, r.2.1)) = .ok (rt, packet)) : ∃ m, x = .ok (rt, packet, m) := by
  cases x with
  | error f => cases h
  | ok r =>
    obtain ⟨h1, h2⟩ := Prod.mk.inj (Except.ok.inj h)
    exact ⟨r.2.2, by rw [← h1, ← h2]⟩

theorem linkRun_connect (env : BleEnv) (Cond : BleLink → Bytes → Prop) :
    LinkRun env Cond sampleLink [.connect] sampleLink :=
  .step .start (fun _ h => by cases h) (.connect sampleLink)

/-- The run after the command: the device resets, and the response has taken one number. -/
def resetLink : BleLink := ⟨{ resetMgr with sendSn := 2 }, false, [], [.unbindReq]⟩

theorem linkStep_resetWrite :
    LinkStep sampleEnv sampleLink (.write resetWrite) (some resetPacket) resetLink := by
  have hpairs : pairs resetMgr resetPacket = false := by decide +kernel
  have hhandlers : handlersOf resetPacket = [.unbindReq] := by decide
  have hstep := @LinkStep.deliver sampleEnv sampleLink _ _ _ _ _ blePacketRecv_resetWrite
    (Handles.of_sendSn resetMgr 2)
  rw [hpairs, hhandlers] at hstep
  exact hstep

theorem tuyaBleDecryption_resetRecv {plain : Bytes} {decLen : Nat} {st : BleCryptState}
    (h : tuyaBleDecryption sampleEnv sampleMgr.crypt sampleMgr.cryptoParam
      (resetRecv.rawBuf.take resetRecv.rawLen) = .ok (plain, decLen, st)) :
    plain = bleFrame 1 resetPacket := by
  have hdec : tuyaBleDecryption sampleEnv sampleMgr.crypt sampleMgr.cryptoParam
      (resetRecv.rawBuf.take resetRecv.rawLen) =
        .ok (bleFrame 1 resetPacket, 16, sampleMgr.crypt) := by
    decide +kernel
  rw [hdec] at h
  exact (Prod.mk.inj (Except.ok.inj h)).1.symm

/-- The command comes from its frame. -/
theorem fromFrame_resetWrite :
    FromFrame sampleEnv [.connect] sampleLink resetLink resetWrite resetPacket := by
  refine fromFrame_of_linkRun (by decide) rfl (linkRun_connect _ _) ⟨.inl (by decide), ?_⟩
    linkStep_resetWrite
  intro pr plain decLen st htrs hdec
  obtain rfl := eq_resetRecv htrs
  rw [tuyaBleDecryption_resetRecv hdec]
  exact ⟨by decide, .inl (by decide)⟩

def reconnect (l : BleLink) : BleLink :=
  { l with
    mgr :=
      { l.mgr with
        cryptoParam := clearPairRand l.mgr.cryptoParam
        recvSn := 0
        sendSn := 1 }
    isPaired := false
    writes := [] }

theorem LinkRun.reconnect {env : BleEnv} {Cond : BleLink → Bytes → Prop} {init l : BleLink}
    {evs : List BleEvent} (h : LinkRun env Cond init evs l) :
    LinkRun env Cond init (evs ++ [.disconnect] ++ [.connect]) (Ble.reconnect l) :=
  .step (.step h (fun _ h => by cases h) (.disconnect l)) (fun _ h => by cases h) (.connect _)

theorem linkRun_reconnect_resetLink : LinkRun sampleEnv (fun _ _ => True) sampleLink
    [.connect, .write resetWrite, .disconnect, .connect] (reconnect resetLink) :=
  LinkRun.reconnect
    (.step (linkRun_connect sampleEnv fun _ _ => True) (fun _ _ => trivial) linkStep_resetWrite)

theorem eq_of_append_map_write {evs pre : List BleEvent} {raw : Bytes} {ws : List Bytes}
    (h : evs ++ [.connect, .write raw] = pre ++ ws.map .write) : ws = [] ∨ ws = [raw] := by
  rcases List.eq_nil_or_concat ws with rfl | ⟨ws₁, w, rfl⟩
  · exact .inl rfl
  · have hsplit : (evs ++ [.connect]) ++ [.write raw] = (pre ++ ws₁.map .write) ++ [.write w] := by
      simpa using h
    obtain ⟨hfront, hlast⟩ := List.append_inj' hsplit rfl
    obtain rfl : raw = w := by simpa using hlast
    rcases List.eq_nil_or_concat ws₁ with rfl | ⟨ws₂, w', rfl⟩
    · exact .inr rfl
    · have hsplit' : evs ++ [.connect] = (pre ++ ws₂.map .write) ++ [.write w'] := by
        simpa using hfront
      obtain ⟨-, hconnect⟩ := List.append_inj' hsplit' rfl
      cases hconnect

/-- **A command of an earlier connection is executed again.** The peer connects, the command is
received, the peer disconnects and connects again; a write of the single byte 1 then delivers the
command a second time. -/
theorem exists_not_fromFrame :
    ∃ l l', LinkRun sampleEnv (fun _ _ => True) sampleLink
        [.connect, .write resetWrite, .disconnect, .connect] l ∧
      LinkStep sampleEnv l (.write [1]) (some resetPacket) l' ∧
      ¬FromFrame sampleEnv [.connect, .write resetWrite, .disconnect, .connect] l l' [1]
        resetPacket := by
  have hok : (blePacketRecv sampleEnv (reconnect resetLink).mgr [1]).map (fun r => (r.1, r.2.1)) =
      .ok (oprtOk, some resetPacket) := by
    decide +kernel
  obtain ⟨m, hm⟩ := exists_mgr_of_map hok
  refine ⟨_, _, linkRun_reconnect_resetLink, .deliver hm (Handles.of_sendSn m 2), ?_⟩
  rintro ⟨-, pre, ws, rs, ble, hevs, hws⟩
  have hfresh : (blePacketRecvs sampleEnv (freshMgr (reconnect resetLink).mgr) [[1]]).map Prod.fst =
      .ok [(oprtInvalidParm, none)] := by
    decide +kernel
  -- The write follows a connect, so nothing else can belong to its frame.
  rcases @eq_of_append_map_write [.connect, .write resetWrite, .disconnect] pre [1] ws hevs with
    rfl | rfl
  · have hnil := (Prod.mk.inj (Except.ok.inj hws)).1
    simp at hnil
  · rw [hws] at hfresh
    have hlast := Except.ok.inj hfresh
    have hpair := (@List.append_inj' _ rs _ [] _ hlast rfl).2
    simp at hpair

/-! ### A peer that sends frames without encryption -/

end TuyaOpen.Ble
