import TuyaOpen.Basic.Text
import TuyaOpen.Lan.Session
import TuyaOpen.Protocol.Frame

/-!
# The receiver of a LAN session

`lan_tcp_client_sock_read`, `lan_protocol_process` and `lan_send` of `tuya_lan.c`, for one session.

What a received frame does to the session is split at the two places where the function may wait
for more bytes: a frame head is checked against the sequence number of the session
(`LanAct.sequence`), and a complete frame is decrypted and processed (`LanAct.frame`). Between the
two the function may block until the rest of a long frame has arrived.

The bytes are handled by a machine. It rests in one of three modes: outside of the function, at the
label `recv_again` with the bytes that have been kept, or inside `tal_net_recv_nd_size` with the
beginning of a frame. At each step some bytes arrive, possibly none, and the function goes on to
the next place where it asks for bytes.
-/

namespace TuyaOpen.Lan

open Protocol

/-! ### Constants -/

/-- `FRM_SECURITY_TYPE3`. -/
def frmSecurityType3 : UInt32 := 0x03

/-- `FRM_SECURITY_TYPE4`. -/
def frmSecurityType4 : UInt32 := 0x04

/-- `FRM_SECURITY_TYPE5`. -/
def frmSecurityType5 : UInt32 := 0x05

/-- `FRM_TP_CMD`. -/
def frmTpCmd : UInt32 := 0x07

/-- `FRM_TP_STAT_REPORT`. -/
def frmTpStatReport : UInt32 := 0x08

/-- `FRM_TP_HB`. -/
def frmTpHb : UInt32 := 0x09

/-- `FRM_QUERY_STAT`. -/
def frmQueryStat : UInt32 := 0x0a

/-- `FRM_TP_NEW_CMD`. -/
def frmTpNewCmd : UInt32 := 0x0d

/-- `FRM_QUERY_STAT_NEW`. -/
def frmQueryStatNew : UInt32 := 0x10

/-- `ALLOW_NO_KEY_NUM`. -/
def allowNoKeyNum : Nat := 3

/-- `RECV_BUF_LMT`. -/
def recvBufLmt : Nat := 512

/-- `LAN_FRAME_MAX_LEN`. -/
def lanFrameMaxLen : Nat := 4096

/-- `LPV35_FRAME_MINI_SIZE`. -/
def lpv35FrameMiniSize : Nat := 50

/-! ### The surroundings -/

/-- The fate of an answer: it is not made for want of memory, before or after it has got its number,
or because it cannot be encrypted; it is made and not sent; or it is sent. -/
inductive SendFate
  | noPlaintext
  | noBuffer
  | noSerialize
  | failed
  | sent
  deriving DecidableEq

/-- What comes from outside while a frame is handled: the time, the next random string, and the
fate of the answer. -/
structure LanTick where
  now : UInt32
  randB : Bytes
  fate : SendFate
  length_randB : randB.length = randLen

/-- What the receiver relies on. The answers to commands and queries come from the data points. -/
structure LanEnv where
  gcm : Aead FailCode lpv35FrameTagSize
  mac : Mac FailCode hmacLen
  malloc : Nat → Bool
  localkey : Bytes
  isActivated : Bool
  sequenceErrThreshold : UInt32
  describe : Bytes → Bytes
  queryStat : Bytes → UInt32 × Bytes
  tick : UInt32 → LanTick

/-- A session, with the number of sessions and the number of frames that are tolerated without a
session key, both of which are shared. -/
structure LanLink where
  session : LanSession
  fdNum : Nat
  allowNoSessionKeyNum : Nat
  deriving DecidableEq

/-- `lan_session_close` of the session at hand. -/
def LanLink.close (link : LanLink) : LanLink :=
  let r := lanSessionClose link.fdNum link.session
  { link with fdNum := r.1, session := r.2.1 }

def hasSecretKey (session : LanSession) : Bool := session.secretKey.headD 0 ≠ 0

/-! ### Sending -/

/-- What has been sent: a frame and the key it was encrypted with. -/
structure LanSent where
  key : Bytes
  frame : Lpv35Frame
  deriving DecidableEq

/-- The key that `lan_send` uses. -/
def lanSendKey (env : LanEnv) (session : LanSession) : Bytes :=
  if hasSecretKey session then session.secretKey else env.localkey.take sessionkeyLen

/-- `lan_send`: its return value, the session, and what has been sent. -/
def lanSend (env : LanEnv) (fate : SendFate) (fdNum : Nat) (session : LanSession)
    (frType retCode : UInt32) (data : Bytes) : OperateRet × LanSession × Option LanSent :=
  if session.active = false then (oprtComError, session, none)
  else if session.fault then (oprtSvcLanSocketFault, session, none)
  else if env.isActivated = false then (oprtComError, session, none)
  else
    let numbered := { session with sequenceOut := session.sequenceOut + 1 }
    match fate with
    | .noPlaintext => (oprtMallocFailed, session, none)
    | .noBuffer => (oprtMallocFailed, numbered, none)
    | .noSerialize => (oprtComError, numbered, none)
    | .failed => (oprtSvcLanSendErr, lanSessionFaultSet fdNum numbered, none)
    | .sent =>
      (oprtOk, numbered, some
        { key := lanSendKey env session
          frame :=
            { sequence := session.sequenceOut
              type := frType
              data := (beBytes 4 retCode.toNat).reverse ++ data } })

/-- `tuya_lan_dp_report` for one session. -/
def lanDpReport (env : LanEnv) (fate : SendFate) (fdNum : Nat) (session : LanSession)
    (out : Bytes) : LanSession × Option LanSent :=
  if session.active ∧ session.fault = false ∧ hasSecretKey session then
    (lanSend env fate fdNum session frmTpStatReport 0 out).2
  else (session, none)

/-! ### Processing a frame -/

/-- `tal_sha256_mac` under the local key, which leaves the old code in place when it fails. -/
def sha256Mac (env : LanEnv) (data old : Bytes) : Bytes :=
  match env.mac.mac (cString env.localkey) data with
  | .ok code => code
  | .error _ => old

/-- The case of `FRM_SECURITY_TYPE3`. -/
def processType3 (env : LanEnv) (tick : LanTick) (fdNum : Nat) (session : LanSession)
    (out : Bytes) : LanSession × Option LanSent :=
  if out.length < randLen then (session, none)
  else
    let randA := out.take randLen
    let session :=
      { session with
        randA := randA
        hmac := sha256Mac env randA session.hmac
        randB := tick.randB }
    if env.malloc (randLen + hmacLen) then
      (lanSend env tick.fate fdNum session frmSecurityType4 0 (session.randB ++ session.hmac)).2
    else (session, none)

/-- The case of `FRM_SECURITY_TYPE5`. -/
def processType5 (env : LanEnv) (fdNum : Nat) (session : LanSession) (out : Bytes) : LanSession :=
  if out.length < hmacLen then session
  else
    let session := { session with hmac := sha256Mac env session.randB session.hmac }
    if session.hmac ≠ out.take hmacLen then lanSessionFaultSet fdNum session
    else
      let secretKey := xorBytes session.randA session.randB
      match env.gcm.encrypt (env.localkey.take sessionkeyLen)
          (session.randA.take lpv35FrameNonceSize) [] secretKey with
      | .error _ => lanSessionFaultSet fdNum { session with secretKey := secretKey }
      | .ok (ct, _) => { session with secretKey := ct }

/-- `lan_protocol_process`: the session, and what has been sent. -/
def lanProtocolProcess (env : LanEnv) (tick : LanTick) (fdNum : Nat) (session : LanSession)
    (frame : Lpv35Frame) : LanSession × Option LanSent :=
  if frame.type = frmTpCmd ∨ frame.type = frmTpNewCmd then
    (lanSend env tick.fate fdNum session frame.type 1 (env.describe frame.data)).2
  else if frame.type = frmSecurityType3 then processType3 env tick fdNum session frame.data
  else if frame.type = frmSecurityType5 then (processType5 env fdNum session frame.data, none)
  else if frame.type = frmQueryStat ∨ frame.type = frmQueryStatNew then
    let r := env.queryStat frame.data
    (lanSend env tick.fate fdNum session frame.type r.1 r.2).2
  else (session, none)

/-! ### A frame on the session -/

/-- The fields of `lpv35_fixed_head_t` that the receiver reads. -/
structure LanHead where
  sequence : UInt32
  type : UInt32
  length : Nat
  deriving DecidableEq

def lanHead (buf : Bytes) : LanHead where
  sequence := UInt32.ofNat (beNat (slice buf 6 4))
  type := UInt32.ofNat (beNat (slice buf 10 4))
  length := beNat (slice buf 14 4)

def LanHead.frameLen (head : LanHead) : Nat := u32 (22 + head.length)

/-- A frame that has been handed on: to the answer to heartbeats, or to `lan_protocol_process`. -/
inductive LanHandled
  | heartbeat (sequence : UInt32)
  | process (frame : Lpv35Frame)
  deriving DecidableEq

def isHandshake (type : UInt32) : Prop :=
  type = frmSecurityType3 ∨ type = frmSecurityType4 ∨ type = frmSecurityType5

instance (type : UInt32) : Decidable (isHandshake type) := inferInstanceAs (Decidable (_ ∨ _ ∨ _))

/-- A frame under the key that has been selected: the heartbeat is answered at once, every other
frame is decrypted and processed. -/
def lanDecode (env : LanEnv) (link : LanLink) (key : Bytes) (head : LanHead) (frame : Bytes) :
    LanLink × Option LanHandled :=
  let tick := env.tick head.sequence
  if head.type = frmTpHb then
    let session := (lanSend env tick.fate link.fdNum link.session frmTpHb 0 []).2.1
    ({ link with session := lanSessionTimeUpdate link.fdNum session tick.now },
      some (.heartbeat head.sequence))
  else
    match lpv35FrameParse env.gcm env.malloc key frame with
    | .ok (_, some f) =>
      let session := lanSessionTimeUpdate link.fdNum link.session tick.now
      ({ link with session := (lanProtocolProcess env tick link.fdNum session f).1 },
        some (.process f))
    | _ => (link, none)

/-- The receiver behind the checks of sequence and length: the key is selected by the type of the
frame. -/
def lanFrame (env : LanEnv) (link : LanLink) (head : LanHead) (frame : Bytes) :
    LanLink × Option LanHandled :=
  if env.isActivated = false then (link.close, none)
  else if isHandshake head.type then
    let link := { link with allowNoSessionKeyNum := allowNoKeyNum }
    if hasSecretKey link.session then (link.close, none)
    else lanDecode env link (env.localkey.take sessionkeyLen) head frame
  else if hasSecretKey link.session then lanDecode env link link.session.secretKey head frame
  else if 0 < link.allowNoSessionKeyNum then
    ({ link with allowNoSessionKeyNum := link.allowNoSessionKeyNum - 1 }, none)
  else ({ link.close with allowNoSessionKeyNum := allowNoKeyNum }, none)

def lanSequence (env : LanEnv) (link : LanLink) (head : LanHead) : LanLink :=
  if head.sequence ≤ link.session.sequenceIn then
    if env.sequenceErrThreshold ≤ link.session.sequenceIn - head.sequence then link.close else link
  else { link with session := { link.session with sequenceIn := head.sequence } }

/-- What happens to a session while bytes are received: a frame head is checked, a complete frame
is handled, or no bytes are got. -/
inductive LanAct
  | sequence (head : LanHead)
  | frame (head : LanHead) (frame : Bytes)
  | recvErr
  deriving DecidableEq

def lanAct (env : LanEnv) (link : LanLink) : LanAct → LanLink × Option LanHandled
  | .sequence head => (lanSequence env link head, none)
  | .frame head frame => lanFrame env link head frame
  | .recvErr => ({ link with session := lanSessionFaultSet link.fdNum link.session }, none)

/-! ### The machine -/

/-- The session with the record of its acts and of the frames that have been handed on. -/
structure LanOut where
  link : LanLink
  acts : List LanAct
  handled : List LanHandled

def LanOut.act (env : LanEnv) (o : LanOut) (a : LanAct) : LanOut :=
  { link := (lanAct env o.link a).1
    acts := o.acts ++ [a]
    handled := o.handled ++ (lanAct env o.link a).2.toList }

/-- Where `lan_tcp_client_sock_read` rests: it has returned; it asks for bytes behind those that it
has kept; or it waits for the rest of a frame. -/
inductive RecvMode
  | idle
  | again (left : Bytes)
  | blocked (start : Bytes)
  deriving DecidableEq

/-- The loop over the frames in the buffer. `fuel` bounds the number of turns: each one shortens the
buffer, or is the last but one. -/
def lanFrameLoop (env : LanEnv) : Nat → LanOut → Bytes → LanOut × RecvMode
  | 0, o, buf => (o, .again buf)
  | fuel + 1, o, buf =>
    if buf.length < lpv35FrameMiniSize then (o, if buf = [] then .idle else .again buf)
    else if buf.take 4 ≠ lpv35FrameHead then lanFrameLoop env fuel o (buf.drop 1)
    else
      let head := lanHead buf
      let o' := o.act env (.sequence head)
      if head.sequence ≤ o.link.session.sequenceIn then (o', .again buf)
      else if head.frameLen ≤ buf.length then
        let act := .frame head (buf.take head.frameLen)
        match (lanAct env o'.link act).2 with
        | none => (o'.act env act, .again buf)
        | some _ => lanFrameLoop env fuel (o'.act env act) (buf.drop head.frameLen)
      else if lanFrameMaxLen ≤ head.frameLen ∨ env.malloc (head.frameLen + 1) = false then
        (o', .again buf)
      else (o', .blocked buf)

/-- A session that receives: the bytes that have arrived and not been read are `pending`. -/
structure LanRecv where
  out : LanOut
  mode : RecvMode
  pending : Bytes

/-- `tal_net_recv` behind the bytes `left` of the buffer, and the loop over the frames. -/
def lanRecvAgain (env : LanEnv) (o : LanOut) (left pending : Bytes) : LanRecv :=
  let got := pending.take (recvBufLmt - left.length)
  let rest := pending.drop (recvBufLmt - left.length)
  if got = [] then { out := o.act env .recvErr, mode := .idle, pending := pending }
  else if (left ++ got).length < lpv35FrameMiniSize then
    { out := o, mode := .idle, pending := rest }
  else
    let r := lanFrameLoop env (left ++ got).length o (left ++ got)
    { out := r.1, mode := r.2, pending := rest }

/-- Some bytes arrive, and `lan_tcp_client_sock_read` goes on until it needs more. When it has
returned, it is called again as soon as there are bytes to read. -/
def lanRecvStep (env : LanEnv) (st : LanRecv) (chunk : Bytes) : LanRecv :=
  let pending := st.pending ++ chunk
  match st.mode with
  | .idle =>
    if pending = [] ∨ st.out.link.session.active = false then { st with pending := pending }
    else lanRecvAgain env st.out [] pending
  | .again left => lanRecvAgain env st.out left pending
  | .blocked start =>
    let head := lanHead start
    if (start ++ pending).length < head.frameLen then { st with pending := pending }
    else
      { out := st.out.act env (.frame head ((start ++ pending).take head.frameLen))
        mode := .idle
        pending := (start ++ pending).drop head.frameLen }

/-! ### The record of a run -/

def runActs (env : LanEnv) (link : LanLink) (acts : List LanAct) : LanLink :=
  acts.foldl (fun l a => (lanAct env l a).1) link

/-- `o'` has come out of `o` by acts that are recorded. -/
def Extends (env : LanEnv) (o o' : LanOut) (new : List LanAct) : Prop :=
  o'.acts = o.acts ++ new ∧ o'.link = runActs env o.link new

theorem runActs_append (env : LanEnv) (link : LanLink) (acts acts' : List LanAct) :
    runActs env link (acts ++ acts') = runActs env (runActs env link acts) acts' :=
  List.foldl_append

theorem Extends.refl (env : LanEnv) (o : LanOut) : Extends env o o [] :=
  ⟨(List.append_nil _).symm, rfl⟩

theorem Extends.trans {env : LanEnv} {o o' o'' : LanOut} {new new' : List LanAct}
    (h : Extends env o o' new) (h' : Extends env o' o'' new') :
    Extends env o o'' (new ++ new') :=
  ⟨by rw [h'.1, h.1, List.append_assoc], by rw [h'.2, h.2, runActs_append]⟩

theorem extends_act (env : LanEnv) (o : LanOut) (a : LanAct) : Extends env o (o.act env a) [a] :=
  ⟨rfl, rfl⟩

def Framed : LanAct → Prop
  | .frame head frame => 18 ≤ frame.length → head = lanHead frame
  | _ => True

def RecvMode.HasHead : RecvMode → Prop
  | .blocked start => 18 ≤ start.length
  | _ => True

theorem lanHead_take {buf : Bytes} {n : Nat} (h : 18 ≤ (buf.take n).length) :
    lanHead buf = lanHead (buf.take n) := by
  have hslice (off : Nat) (hoff : off + 4 ≤ 18) : slice buf off 4 = slice (buf.take n) off 4 := by
    rw [← @slice_append_left _ (buf.take n) (buf.drop n) off 4 (by omega), List.take_append_drop]
  rw [lanHead, lanHead, hslice 6 (by decide), hslice 10 (by decide), hslice 14 (by decide)]

theorem framed_take (buf : Bytes) (n : Nat) : Framed (.frame (lanHead buf) (buf.take n)) :=
  fun h => lanHead_take h

theorem extends_lanFrameLoop (env : LanEnv) (fuel : Nat) (o : LanOut) (buf : Bytes) :
    ∃ new, Extends env o (lanFrameLoop env fuel o buf).1 new ∧ (∀ a ∈ new, Framed a) ∧
      (lanFrameLoop env fuel o buf).2.HasHead := by
  have hnil : ∀ a ∈ ([] : List LanAct), Framed a := fun a ha => absurd ha List.not_mem_nil
  have hhead (buf : Bytes) : ∀ a ∈ [LanAct.sequence (lanHead buf)], Framed a := by
    intro a ha
    rw [List.mem_singleton.mp ha]
    exact trivial
  have hframe (buf : Bytes) : ∀ a ∈ [LanAct.sequence (lanHead buf)] ++
      [.frame (lanHead buf) (buf.take (lanHead buf).frameLen)], Framed a := by
    intro a ha
    rcases List.mem_append.mp ha with ha | ha
    · exact hhead buf a ha
    · rw [List.mem_singleton.mp ha]
      exact framed_take _ _
  induction fuel generalizing o buf with
  | zero => exact ⟨[], Extends.refl env o, hnil, trivial⟩
  | succ fuel ih =>
    rw [lanFrameLoop]
    by_cases hlen : buf.length < lpv35FrameMiniSize
    · rw [if_pos hlen]
      refine ⟨[], Extends.refl env o, hnil, ?_⟩
      split_ifs <;> exact trivial
    rw [if_neg hlen]
    dsimp only
    split_ifs
    · exact ih o (buf.drop 1)
    · exact ⟨_, extends_act env o _, hhead buf, trivial⟩
    · split
      · exact ⟨_, (extends_act env o _).trans (extends_act env _ _), hframe buf, trivial⟩
      · obtain ⟨new, hnew, hframed, hmode⟩ := ih ((o.act env (.sequence (lanHead buf))).act env
          (.frame (lanHead buf) (buf.take (lanHead buf).frameLen)))
          (buf.drop (lanHead buf).frameLen)
        refine ⟨_, ((extends_act env o _).trans (extends_act env _ _)).trans hnew, ?_, hmode⟩
        intro a ha
        exact (List.mem_append.mp ha).elim (hframe buf a) (hframed a)
    · exact ⟨_, extends_act env o _, hhead buf, trivial⟩
    · refine ⟨_, extends_act env o _, hhead buf, ?_⟩
      rw [lpv35FrameMiniSize] at hlen
      exact Nat.le_trans (by decide) (Nat.not_lt.mp hlen)

theorem extends_lanRecvAgain (env : LanEnv) (o : LanOut) (left pending : Bytes) :
    ∃ new, Extends env o (lanRecvAgain env o left pending).out new ∧ (∀ a ∈ new, Framed a) ∧
      (lanRecvAgain env o left pending).mode.HasHead := by
  rw [lanRecvAgain]
  dsimp only
  split_ifs
  · refine ⟨_, extends_act env o _, ?_, trivial⟩
    intro a ha
    rw [List.mem_singleton.mp ha]
    exact trivial
  · exact ⟨[], Extends.refl env o, fun a ha => absurd ha List.not_mem_nil, trivial⟩
  · exact extends_lanFrameLoop env _ o _

theorem extends_lanRecvStep (env : LanEnv) (st : LanRecv) (chunk : Bytes) :
    ∃ new, Extends env st.out (lanRecvStep env st chunk).out new ∧
      (st.mode.HasHead → (∀ a ∈ new, Framed a) ∧ (lanRecvStep env st chunk).mode.HasHead) := by
  have hnil : ∀ a ∈ ([] : List LanAct), Framed a := fun a ha => absurd ha List.not_mem_nil
  rw [lanRecvStep]
  cases hmode : st.mode with
  | idle =>
    dsimp only
    split_ifs
    · exact ⟨[], Extends.refl env _, fun h => ⟨hnil, hmode ▸ h⟩⟩
    · obtain ⟨new, hnew, h⟩ := extends_lanRecvAgain env st.out [] (st.pending ++ chunk)
      exact ⟨new, hnew, fun _ => h⟩
  | again left =>
    obtain ⟨new, hnew, h⟩ := extends_lanRecvAgain env st.out left (st.pending ++ chunk)
    exact ⟨new, hnew, fun _ => h⟩
  | blocked start =>
    dsimp only
    split_ifs
    · exact ⟨[], Extends.refl env _, fun h => ⟨hnil, hmode ▸ h⟩⟩
    · refine ⟨_, extends_act env _ _, fun h => ⟨?_, trivial⟩⟩
      intro a ha
      rw [List.mem_singleton.mp ha]
      have hstart : lanHead start = lanHead (start ++ (st.pending ++ chunk)) := by
        have htake : (start ++ (st.pending ++ chunk)).take start.length = start := List.take_left
        have hlen : 18 ≤ ((start ++ (st.pending ++ chunk)).take start.length).length := by
          rw [htake]
          exact h
        rw [lanHead_take hlen, htake]
      rw [hstart]
      exact framed_take _ _

theorem extends_foldl (env : LanEnv) (st : LanRecv) (chunks : List Bytes) :
    ∃ new, Extends env st.out (chunks.foldl (lanRecvStep env) st).out new ∧
      (st.mode.HasHead → ∀ a ∈ new, Framed a) := by
  induction chunks generalizing st with
  | nil => exact ⟨[], Extends.refl env _, fun _ a ha => absurd ha List.not_mem_nil⟩
  | cons chunk chunks ih =>
    obtain ⟨new, hnew, hframed⟩ := extends_lanRecvStep env st chunk
    obtain ⟨new', hnew', hframed'⟩ := ih (lanRecvStep env st chunk)
    refine ⟨_, hnew.trans hnew', fun hmode a ha => ?_⟩
    obtain ⟨h, hmode'⟩ := hframed hmode
    exact (List.mem_append.mp ha).elim (h a) (hframed' hmode' a)

/-! ### What stays -/

/-- The fields of a session that sending and processing leave alone. -/
structure SameClock (s s' : LanSession) : Prop where
  active : s'.active = s.active
  fd : s'.fd = s.fd
  time : s'.time = s.time
  sequenceIn : s'.sequenceIn = s.sequenceIn

theorem SameClock.refl (s : LanSession) : SameClock s s := ⟨rfl, rfl, rfl, rfl⟩

theorem SameClock.trans {s s' s'' : LanSession} (h : SameClock s s') (h' : SameClock s' s'') :
    SameClock s s'' :=
  ⟨h'.active.trans h.active, h'.fd.trans h.fd, h'.time.trans h.time,
    h'.sequenceIn.trans h.sequenceIn⟩

theorem sameClock_lanSessionFaultSet (fdNum : Nat) (s : LanSession) :
    SameClock s (lanSessionFaultSet fdNum s) := by
  rw [lanSessionFaultSet]
  split_ifs <;> exact ⟨rfl, rfl, rfl, rfl⟩

theorem sameClock_lanSend (env : LanEnv) (fate : SendFate) (fdNum : Nat) (s : LanSession)
    (frType retCode : UInt32) (data : Bytes) :
    SameClock s (lanSend env fate fdNum s frType retCode data).2.1 := by
  rw [lanSend]
  dsimp only
  split_ifs
  · exact SameClock.refl s
  · exact SameClock.refl s
  · exact SameClock.refl s
  · cases fate with
    | noPlaintext => exact SameClock.refl s
    | noBuffer => exact ⟨rfl, rfl, rfl, rfl⟩
    | noSerialize => exact ⟨rfl, rfl, rfl, rfl⟩
    | failed =>
      refine SameClock.trans ?_ (sameClock_lanSessionFaultSet fdNum _)
      exact ⟨rfl, rfl, rfl, rfl⟩
    | sent => exact ⟨rfl, rfl, rfl, rfl⟩

theorem sameClock_processType3 (env : LanEnv) (tick : LanTick) (fdNum : Nat) (s : LanSession)
    (out : Bytes) : SameClock s (processType3 env tick fdNum s out).1 := by
  rw [processType3]
  dsimp only
  split_ifs
  · exact SameClock.refl s
  · refine SameClock.trans ?_ (sameClock_lanSend env tick.fate fdNum _ _ _ _)
    exact ⟨rfl, rfl, rfl, rfl⟩
  · exact ⟨rfl, rfl, rfl, rfl⟩

theorem sameClock_processType5 (env : LanEnv) (fdNum : Nat) (s : LanSession) (out : Bytes) :
    SameClock s (processType5 env fdNum s out) := by
  rw [processType5]
  dsimp only
  split_ifs
  · exact SameClock.refl s
  · refine SameClock.trans ?_ (sameClock_lanSessionFaultSet fdNum _)
    exact ⟨rfl, rfl, rfl, rfl⟩
  · split
    · refine SameClock.trans ?_ (sameClock_lanSessionFaultSet fdNum _)
      exact ⟨rfl, rfl, rfl, rfl⟩
    · exact ⟨rfl, rfl, rfl, rfl⟩

theorem sameClock_lanProtocolProcess (env : LanEnv) (tick : LanTick) (fdNum : Nat)
    (s : LanSession) (frame : Lpv35Frame) :
    SameClock s (lanProtocolProcess env tick fdNum s frame).1 := by
  rw [lanProtocolProcess]
  split_ifs
  · exact sameClock_lanSend env tick.fate fdNum s _ _ _
  · exact sameClock_processType3 env tick fdNum s _
  · exact sameClock_processType5 env fdNum s _
  · exact sameClock_lanSend env tick.fate fdNum s _ _ _
  · exact SameClock.refl s

theorem close_session (link : LanLink) :
    link.close.session = link.session ∨ link.close.session = lanSessionFree := by
  rw [LanLink.close, lanSessionClose]
  split_ifs
  · exact Or.inl rfl
  · exact Or.inr rfl
  · exact Or.inl rfl

theorem close_session_of_active {link : LanLink} (h : link.close.session.active = true) :
    link.close.session = link.session := by
  rcases close_session link with hsame | hfree
  · exact hsame
  · rw [hfree] at h
    cases h

end TuyaOpen.Lan
