import TuyaOpen.Lan.Authentic

/-!
# Frames out of a stream of bytes

A peer sends frames on a session, and the connection delivers their bytes in chunks of its own
choosing. The receiver hands the frames on one by one and in order, as long as it never asks for
bytes when there are too few of them: a rest that is shorter than the shortest frame is thrown
away, or the session is marked as faulty.

## Main results

* `lanFrameLoop_spec`: the loop takes the complete frames from the front of the stream.
* `InStream.step`: a step keeps the receiver in step with the frames.
* `handled_of_guarded`: the receiver hands on the frames that have been sent.
* `exists_handled_ne`: a frame of which ten bytes come first is lost.
-/

namespace TuyaOpen.Lan

open Protocol

/-! ### Frames on the wire -/

structure WireFrame where
  frame : Lpv35Frame
  nonce : Bytes
  ct : Bytes
  tag : Bytes
  length_nonce : nonce.length = lpv35FrameNonceSize
  length_ct : ct.length = frame.data.length
  length_tag : tag.length = lpv35FrameTagSize

def WireFrame.bytes (w : WireFrame) : Bytes := lpv35FrameBytes w.frame w.nonce w.ct w.tag

def wireBytes (ws : List WireFrame) : Bytes := (ws.map (·.bytes)).flatten

def WireFrame.handled (w : WireFrame) : LanHandled :=
  if w.frame.type = frmTpHb then .heartbeat w.frame.sequence else .process w.frame

def receiveFrame (env : LanEnv) (link : LanLink) (w : WireFrame) : LanLink :=
  runActs env link [.sequence (lanHead w.bytes), .frame (lanHead w.bytes) w.bytes]

/-- The session takes the frame: its number is new, it belongs to the handshake just when the
session has no key, and it is encrypted under the key for its type. -/
structure TakesFrame (env : LanEnv) (link : LanLink) (w : WireFrame) : Prop where
  sequence : link.session.sequenceIn < w.frame.sequence
  handshake : isHandshake w.frame.type ↔ hasSecretKey link.session = false
  encrypt : env.gcm.encrypt (sessionKey env link.session w.frame.type) w.nonce
    (lpv35AdditionalData w.frame) w.frame.data = .ok (w.ct, w.tag)

def ValidFrames (env : LanEnv) : LanLink → List WireFrame → Prop
  | _, [] => True
  | link, w :: ws => TakesFrame env link w ∧ ValidFrames env (receiveFrame env link w) ws

/-- The device is activated and has a local key, and memory can be allocated. -/
structure LanEnv.Ready (env : LanEnv) : Prop where
  isActivated : env.isActivated = true
  malloc : ∀ n, env.malloc n = true
  localkey : env.localkey ≠ []

def Short (ws : List WireFrame) : Prop := ∀ w ∈ ws, w.bytes.length < lanFrameMaxLen

/-- Before the receiver asks for bytes there are those of the shortest frame, with the bytes that it
has kept. It does not ask when it has returned and nothing has arrived. -/
def Supplied (st : LanRecv) (chunk : Bytes) : Prop :=
  match st.mode with
  | .idle => st.pending ++ chunk = [] ∨ lpv35FrameMiniSize ≤ (st.pending ++ chunk).length
  | .again left => lpv35FrameMiniSize ≤ (left ++ (st.pending ++ chunk)).length
  | .blocked _ => True

instance (st : LanRecv) (chunk : Bytes) : Decidable (Supplied st chunk) :=
  match h : st.mode with
  | .idle => decidable_of_iff
      (st.pending ++ chunk = [] ∨ lpv35FrameMiniSize ≤ (st.pending ++ chunk).length)
      (by rw [Supplied, h])
  | .again left => decidable_of_iff
      (lpv35FrameMiniSize ≤ (left ++ (st.pending ++ chunk)).length) (by rw [Supplied, h])
  | .blocked _ => decidable_of_iff True (by rw [Supplied, h])

def startRecv (link : LanLink) : LanRecv where
  out := { link := link, acts := [], handled := [] }
  mode := .idle
  pending := []

/-! ### One frame -/

section Frame

variable {env : LanEnv} {link : LanLink}

theorem WireFrame.length_bytes (w : WireFrame) : w.bytes.length = 50 + w.frame.data.length := by
  rw [WireFrame.bytes, length_lpv35FrameBytes w.length_nonce w.length_ct w.length_tag,
    lpv35FrameBufferSizeGet_eq]

theorem lanHead_append {a : Bytes} (h : 18 ≤ a.length) (b : Bytes) :
    lanHead (a ++ b) = lanHead a := by
  have htake : (a ++ b).take a.length = a := List.take_left
  have hlen : 18 ≤ ((a ++ b).take a.length).length := by
    rw [htake]
    exact h
  rw [lanHead_take hlen, htake]

theorem WireFrame.lanHead_bytes {w : WireFrame} (h : w.bytes.length < lanFrameMaxLen) :
    (lanHead w.bytes).sequence = w.frame.sequence ∧ (lanHead w.bytes).type = w.frame.type ∧
      (lanHead w.bytes).frameLen = w.bytes.length := by
  rw [w.length_bytes, lanFrameMaxLen] at h
  refine ⟨?_, ?_, ?_⟩
  · rw [lanHead, WireFrame.bytes, slice_sequence, beNat_beBytes_of_lt (UInt32.toNat_lt _),
      UInt32.ofNat_toNat]
  · rw [lanHead, WireFrame.bytes, slice_type, beNat_beBytes_of_lt (UInt32.toNat_lt _),
      UInt32.ofNat_toNat]
  · rw [LanHead.frameLen, lanHead, WireFrame.length_bytes, WireFrame.bytes]
    dsimp only
    rw [slice_length, lpv35FrameNonceSize, lpv35FrameTagSize, beNat_beBytes_of_lt (by omega),
      u32_of_lt (by omega)]
    omega

theorem TakesFrame.parse {w : WireFrame} (h : TakesFrame env link w) (hready : env.Ready)
    (hshort : w.bytes.length < lanFrameMaxLen) :
    lpv35FrameParse env.gcm env.malloc (sessionKey env link.session w.frame.type) w.bytes =
      .ok (oprtOk, some w.frame) := by
  have hkey : sessionKey env link.session w.frame.type ≠ [] := by
    rw [sessionKey]
    by_cases hshake : isHandshake w.frame.type
    · rw [if_pos hshake]
      intro hnil
      rcases List.take_eq_nil_iff.mp hnil with hzero | hnil
      · exact absurd hzero (by decide)
      · exact hready.localkey hnil
    · rw [if_neg hshake]
      intro hnil
      refine hshake (h.handshake.mpr ?_)
      rw [hasSecretKey, hnil]
      rfl
  rw [w.length_bytes, lanFrameMaxLen] at hshort
  have hlen : w.frame.data.length + 50 < 2 ^ 31 := by omega
  rw [WireFrame.bytes, lpv35FrameParse_eq hkey hlen w.length_nonce w.length_ct w.length_tag,
    lpv35FrameDecrypt_eq hlen w.length_nonce w.length_ct w.length_tag (hready.malloc _),
    env.gcm.decrypt_encrypt h.encrypt]

theorem TakesFrame.lanSequence_eq {w : WireFrame} (h : TakesFrame env link w)
    (hshort : w.bytes.length < lanFrameMaxLen) :
    lanSequence env link (lanHead w.bytes) =
      { link with session := { link.session with sequenceIn := w.frame.sequence } } := by
  rw [lanSequence, (WireFrame.lanHead_bytes hshort).1, if_neg (UInt32.not_le.mpr h.sequence)]

theorem TakesFrame.handled {w : WireFrame} (h : TakesFrame env link w) (hready : env.Ready)
    (hshort : w.bytes.length < lanFrameMaxLen) :
    (lanAct env (lanSequence env link (lanHead w.bytes)) (.frame (lanHead w.bytes) w.bytes)).2 =
        some w.handled ∧
      (receiveFrame env link w).session.active = link.session.active := by
  obtain ⟨hseq, htype, -⟩ := WireFrame.lanHead_bytes hshort
  have hparse := h.parse hready hshort
  have hdecode : ∀ l : LanLink,
      (lanDecode env l (sessionKey env link.session w.frame.type) (lanHead w.bytes) w.bytes).2 =
          some w.handled ∧
        (lanDecode env l (sessionKey env link.session w.frame.type) (lanHead w.bytes)
          w.bytes).1.session.active = l.session.active := by
    intro l
    refine ⟨?_, (lanDecode_spec env l _ _ _).1⟩
    rw [lanDecode, WireFrame.handled, htype, hseq, hparse]
    dsimp only
    split_ifs <;> rfl
  have hreceive : receiveFrame env link w = (lanFrame env (lanSequence env link (lanHead w.bytes))
      (lanHead w.bytes) w.bytes).1 := rfl
  rw [hreceive, h.lanSequence_eq hshort, lanAct, lanFrame, htype,
    if_neg (by rw [hready.isActivated]; exact fun h => Bool.noConfusion h)]
  dsimp only
  have hsame : hasSecretKey { link.session with sequenceIn := w.frame.sequence } =
      hasSecretKey link.session := rfl
  rw [hsame]
  by_cases hshake : isHandshake w.frame.type
  · rw [if_pos hshake, h.handshake.mp hshake, if_neg Bool.false_ne_true]
    have hd := hdecode
    rw [sessionKey, if_pos hshake] at hd
    exact hd _
  · have hkey : hasSecretKey link.session = true := by
      rw [← Bool.not_eq_false]
      exact fun hno => hshake (h.handshake.mpr hno)
    rw [if_neg hshake, if_pos hkey]
    have hd := hdecode
    rw [sessionKey, if_neg hshake] at hd
    exact hd _

end Frame

/-! ### The loop -/

section Loop

variable {env : LanEnv}

theorem wireBytes_cons (w : WireFrame) (ws : List WireFrame) :
    wireBytes (w :: ws) = w.bytes ++ wireBytes ws := rfl

theorem wireBytes_eq_nil {ws : List WireFrame} (h : wireBytes ws = []) : ws = [] := by
  cases ws with
  | nil => rfl
  | cons w ws =>
    have hnil : w.bytes = [] := (List.append_eq_nil_iff.mp h).1
    have hw := w.length_bytes
    rw [hnil, List.length_nil] at hw
    omega

theorem exists_first {buf more : Bytes} {rest : List WireFrame} (h : buf ++ more = wireBytes rest)
    (hshort : Short rest) (hlen : 50 ≤ buf.length) :
    ∃ w ws, rest = w :: ws ∧ buf.take 4 = lpv35FrameHead ∧ lanHead buf = lanHead w.bytes ∧
      (lanHead buf).frameLen = w.bytes.length := by
  cases rest with
  | nil =>
    have hnil : buf = [] := (List.append_eq_nil_iff.mp h).1
    rw [hnil] at hlen
    exact absurd hlen (by decide)
  | cons w ws =>
    have hw : 50 ≤ w.bytes.length := by
      rw [w.length_bytes]
      omega
    have hhead : lanHead buf = lanHead w.bytes := by
      rw [← lanHead_append (by omega : 18 ≤ buf.length) more, h, wireBytes_cons,
        lanHead_append (by omega)]
    refine ⟨w, ws, rfl, ?_, hhead, ?_⟩
    · have htake : buf.take 4 = (buf ++ more).take 4 :=
        (List.take_append_of_le_length (by omega)).symm
      rw [htake, h, wireBytes_cons, List.take_append_of_le_length (by omega), WireFrame.bytes,
        lpv35FrameBytes]
      rfl
    · rw [hhead]
      exact (WireFrame.lanHead_bytes (hshort w List.mem_cons_self)).2.2

/-- Where the receiver stands when the frames `rest` are still to be handed on to the session
`link`, and `tail` are the bytes that it has not got yet. A frame that it waits for has already
moved the sequence number. -/
def Awaits (env : LanEnv) (link : LanLink) (rest : List WireFrame) (tail : Bytes) :
    RecvMode → LanLink → Prop
  | .idle, l => l = link ∧ tail = wireBytes rest
  | .again left, l => l = link ∧ left ++ tail = wireBytes rest ∧ left.length < lpv35FrameMiniSize
  | .blocked start, l => ∃ w ws, rest = w :: ws ∧ l = lanSequence env link (lanHead w.bytes) ∧
      start ++ tail = wireBytes rest ∧ lpv35FrameMiniSize ≤ start.length ∧
      start.length < w.bytes.length

theorem Awaits.fault {env : LanEnv} {link l : LanLink} {rest : List WireFrame} {tail : Bytes}
    {mode : RecvMode} (h : Awaits env link rest tail mode l) (hvalid : ValidFrames env link rest)
    (hshort : Short rest) : l.session.fault = link.session.fault := by
  cases mode with
  | idle => rw [h.1]
  | again left => rw [h.1]
  | blocked start =>
    obtain ⟨w, ws, rfl, hlink, -⟩ := h
    rw [hlink, hvalid.1.lanSequence_eq (hshort w List.mem_cons_self)]

theorem Awaits.link_of_nil {env : LanEnv} {link l : LanLink} {tail : Bytes} {mode : RecvMode}
    (h : Awaits env link [] tail mode l) : l = link := by
  cases mode with
  | idle => exact h.1
  | again left => exact h.1
  | blocked start =>
    obtain ⟨w, ws, hnil, -⟩ := h
    cases hnil

/-- The work that is left: two steps for each frame, one for a frame that is waited for. -/
def workLeft (rest : List WireFrame) : RecvMode → Nat
  | .blocked _ => 2 * rest.length
  | _ => 2 * rest.length + 1

theorem workLeft_le (rest : List WireFrame) (mode : RecvMode) :
    workLeft rest mode ≤ 2 * rest.length + 1 := by
  cases mode with
  | blocked start => exact Nat.le_succ _
  | _ => exact Nat.le_refl _

/-- **The loop.** It takes complete frames from the front of the buffer, and stops with a rest that
is shorter than the shortest frame, or with the beginning of a frame. It takes a frame or waits for
one when it has enough bytes for the shortest. -/
theorem lanFrameLoop_spec (hready : env.Ready) {fuel : Nat} {o : LanOut} {buf more : Bytes}
    {rest : List WireFrame} (hpos : 0 < fuel) (hfuel : buf.length ≤ fuel)
    (hbytes : buf ++ more = wireBytes rest) (hvalid : ValidFrames env o.link rest)
    (hshort : Short rest) :
    ∃ taken rest', rest = taken ++ rest' ∧
      (lanFrameLoop env fuel o buf).1.handled = o.handled ++ taken.map (·.handled) ∧
      Awaits env (taken.foldl (receiveFrame env) o.link) rest' more
        (lanFrameLoop env fuel o buf).2 (lanFrameLoop env fuel o buf).1.link ∧
      (lpv35FrameMiniSize ≤ buf.length →
        workLeft rest' (lanFrameLoop env fuel o buf).2 < 2 * rest.length + 1) := by
  induction fuel generalizing o buf rest with
  | zero => exact absurd hpos (Nat.lt_irrefl 0)
  | succ fuel ih =>
    rw [lanFrameLoop]
    by_cases hlen : buf.length < lpv35FrameMiniSize
    · rw [if_pos hlen]
      refine ⟨[], rest, rfl, (List.append_nil _).symm, ?_, fun h => absurd hlen (Nat.not_lt.mpr h)⟩
      by_cases hnil : buf = []
      · rw [if_pos hnil]
        rw [hnil] at hbytes
        exact ⟨rfl, hbytes⟩
      · rw [if_neg hnil]
        exact ⟨rfl, hbytes, hlen⟩
    rw [if_neg hlen]
    rw [lpv35FrameMiniSize] at hlen
    obtain ⟨w, ws, rfl, htake, hhead, hframe⟩ := exists_first hbytes hshort (by omega)
    obtain ⟨htakes, hvalid'⟩ := hvalid
    have hshortw := hshort w List.mem_cons_self
    have hnew : ¬(lanHead buf).sequence ≤ o.link.session.sequenceIn := by
      rw [hhead, (WireFrame.lanHead_bytes hshortw).1]
      exact UInt32.not_le.mpr htakes.sequence
    rw [if_neg (not_not_intro htake)]
    dsimp only
    rw [if_neg hnew, hframe, hhead]
    by_cases hcomplete : w.bytes.length ≤ buf.length
    · -- The frame is complete: it is handed on, and the loop goes on behind it.
      rw [if_pos hcomplete]
      have hsplit : buf.take w.bytes.length = w.bytes ∧
          buf.drop w.bytes.length ++ more = wireBytes ws := by
        rw [wireBytes_cons] at hbytes
        rw [← List.take_append_of_le_length hcomplete, ← List.drop_append_of_le_length hcomplete,
          hbytes]
        exact ⟨List.take_left, List.drop_left⟩
      rw [hsplit.1]
      have hhandled := (htakes.handled hready hshortw).1
      have hout : (lanAct env (o.act env (.sequence (lanHead w.bytes))).link
          (.frame (lanHead w.bytes) w.bytes)).2 = some w.handled := hhandled
      rw [hout]
      dsimp only
      have hdrop : (buf.drop w.bytes.length).length ≤ fuel := by
        have := w.length_bytes
        rw [List.length_drop]
        omega
      obtain ⟨taken, rest', hrest, hrun, hawaits, -⟩ :=
        @ih ((o.act env (.sequence (lanHead w.bytes))).act env (.frame (lanHead w.bytes) w.bytes))
          _ ws (by omega) hdrop hsplit.2 hvalid'
          fun w' hw' => hshort w' (List.mem_cons_of_mem _ hw')
      refine ⟨w :: taken, rest', by rw [hrest]; rfl, ?_, hawaits, fun _ => ?_⟩
      · rw [hrun, LanOut.act, hout]
        simp [LanOut.act, lanAct]
      · refine Nat.lt_of_le_of_lt (workLeft_le rest' _) ?_
        rw [hrest, List.length_cons, List.length_append]
        omega
    · rw [if_neg hcomplete, if_neg]
      · refine ⟨[], w :: ws, rfl, ?_, ?_, fun _ => ?_⟩
        · simp [LanOut.act, lanAct]
        · exact ⟨w, ws, rfl, rfl, hbytes, Nat.not_lt.mp hlen, Nat.not_le.mp hcomplete⟩
        · exact Nat.lt_succ_self _
      · rintro (hmax | hno)
        · exact absurd hshortw (Nat.not_lt.mpr hmax)
        · rw [hready.malloc] at hno
          cases hno

end Loop

/-! ### The receiver and the stream -/

section Stream

variable {env : LanEnv} {link : LanLink} {ws rest : List WireFrame} {st : LanRecv}
  {chunk unread : Bytes}

/-- The receiver has handed on the frames before `rest`, and `unread` are the bytes that have not
arrived yet. -/
def InStream (env : LanEnv) (link : LanLink) (ws rest : List WireFrame) (st : LanRecv)
    (unread : Bytes) : Prop :=
  ∃ done, ws = done ++ rest ∧ st.out.handled = done.map (·.handled) ∧
    Awaits env (done.foldl (receiveFrame env) link) rest (st.pending ++ unread) st.mode
      st.out.link

/-- The frames behind some frames are valid on the session that these have been handed on to, and
the session is still open. -/
theorem ValidFrames.drop (hready : env.Ready) {done : List WireFrame}
    (h : ValidFrames env link (done ++ rest)) (hshort : Short (done ++ rest))
    (hactive : link.session.active = true) :
    ValidFrames env (done.foldl (receiveFrame env) link) rest ∧
      (done.foldl (receiveFrame env) link).session.active = true := by
  induction done generalizing link with
  | nil => exact ⟨h, hactive⟩
  | cons w done ih =>
    refine ih h.2 (fun w' hw' => hshort w' (List.mem_cons_of_mem _ hw')) ?_
    rw [(h.1.handled hready (hshort w List.mem_cons_self)).2]
    exact hactive

/-- **Asking for bytes.** With the bytes of the shortest frame at hand, the receiver takes frames
from the front of the stream. -/
theorem lanRecvAgain_spec (hready : env.Ready) {o : LanOut} {left pending : Bytes}
    (hleft : left.length < lpv35FrameMiniSize)
    (henough : lpv35FrameMiniSize ≤ (left ++ pending).length)
    (hbytes : left ++ (pending ++ unread) = wireBytes rest)
    (hvalid : ValidFrames env o.link rest) (hshort : Short rest) :
    ∃ taken rest', rest = taken ++ rest' ∧
      (lanRecvAgain env o left pending).out.handled = o.handled ++ taken.map (·.handled) ∧
      Awaits env (taken.foldl (receiveFrame env) o.link) rest'
        ((lanRecvAgain env o left pending).pending ++ unread)
        (lanRecvAgain env o left pending).mode (lanRecvAgain env o left pending).out.link ∧
      workLeft rest' (lanRecvAgain env o left pending).mode < 2 * rest.length + 1 := by
  rw [lpv35FrameMiniSize] at hleft henough
  rw [List.length_append] at henough
  have hgot : (left ++ pending.take (recvBufLmt - left.length)).length =
      left.length + min (recvBufLmt - left.length) pending.length := by
    rw [List.length_append, List.length_take]
  rw [recvBufLmt] at hgot
  have hsome : pending.take (recvBufLmt - left.length) ≠ [] := by
    intro hnil
    rw [recvBufLmt] at hnil
    rw [hnil, List.append_nil] at hgot
    omega
  have hmini : ¬(left ++ pending.take (recvBufLmt - left.length)).length < lpv35FrameMiniSize := by
    rw [recvBufLmt, hgot, lpv35FrameMiniSize]
    omega
  rw [lanRecvAgain]
  dsimp only
  rw [if_neg hsome, if_neg hmini]
  rw [lpv35FrameMiniSize] at hmini
  obtain ⟨taken, rest', hrest, hrun, hawaits, hwork⟩ :=
    @lanFrameLoop_spec _ hready _ o (left ++ pending.take (recvBufLmt - left.length))
      (pending.drop (recvBufLmt - left.length) ++ unread) rest (by omega) (Nat.le_refl _)
      (by rw [List.append_assoc, ← List.append_assoc (pending.take _), List.take_append_drop, hbytes])
      hvalid hshort
  exact ⟨taken, rest', hrest, hrun, hawaits, hwork (Nat.not_lt.mp hmini)⟩

theorem InStream.append {done taken rest' : List WireFrame} {st' : LanRecv}
    (hhandled : st.out.handled = done.map (·.handled)) (hrest : rest = taken ++ rest')
    (hrun : st'.out.handled = st.out.handled ++ taken.map (·.handled))
    (hawaits : Awaits env (taken.foldl (receiveFrame env) (done.foldl (receiveFrame env) link))
      rest' (st'.pending ++ unread) st'.mode st'.out.link) :
    InStream env link (done ++ rest) rest' st' unread := by
  refine ⟨done ++ taken, ?_, ?_, ?_⟩
  · rw [hrest, List.append_assoc]
  · rw [hrun, hhandled, List.map_append]
  · rw [List.foldl_append]
    exact hawaits

/-- **A step inside a frame.** The frame is handed on when its last bytes have arrived. -/
theorem InStream.step_blocked (hready : env.Ready) {done : List WireFrame}
    (hvalid : ValidFrames env (done.foldl (receiveFrame env) link) rest) (hshort : Short rest)
    (hhandled : st.out.handled = done.map (·.handled)) {start : Bytes}
    (hmode : st.mode = .blocked start)
    (hawaits : Awaits env (done.foldl (receiveFrame env) link) rest
      (st.pending ++ chunk ++ unread) (.blocked start) st.out.link) :
    ∃ rest', InStream env link (done ++ rest) rest' (lanRecvStep env st chunk) unread ∧
      workLeft rest' (lanRecvStep env st chunk).mode ≤ workLeft rest st.mode ∧
      (unread = [] → workLeft rest' (lanRecvStep env st chunk).mode < workLeft rest st.mode) := by
  obtain ⟨w, ws', rfl, hlink, hbytes, hstart, hlen⟩ := hawaits
  have hhead : lanHead start = lanHead w.bytes ∧ (lanHead start).frameLen = w.bytes.length := by
    obtain ⟨w', ws'', heq, -, hhead⟩ := exists_first hbytes hshort hstart
    cases heq
    exact hhead
  rw [lanRecvStep, hmode]
  dsimp only
  rw [hhead.2, hhead.1]
  by_cases hmore : (start ++ (st.pending ++ chunk)).length < w.bytes.length
  · rw [if_pos hmore]
    refine ⟨w :: ws', InStream.append hhandled (List.nil_append _).symm (List.append_nil _).symm
      ⟨w, ws', rfl, hlink, hbytes, hstart, hlen⟩, Nat.le_refl _, fun hunread => ?_⟩
    rw [hunread, List.append_nil, wireBytes_cons] at hbytes
    rw [hbytes, List.length_append] at hmore
    omega
  · rw [if_neg hmore]
    have hsplit : (start ++ (st.pending ++ chunk)).take w.bytes.length = w.bytes ∧
        (start ++ (st.pending ++ chunk)).drop w.bytes.length ++ unread = wireBytes ws' := by
      have hcomplete := Nat.not_lt.mp hmore
      rw [← List.append_assoc, wireBytes_cons] at hbytes
      rw [← List.take_append_of_le_length hcomplete, ← List.drop_append_of_le_length hcomplete,
        hbytes]
      exact ⟨List.take_left, List.drop_left⟩
    rw [hsplit.1]
    have hout := (hvalid.1.handled hready (hshort w List.mem_cons_self)).1
    rw [← hlink] at hout
    refine ⟨ws', InStream.append hhandled (@rfl _ ([w] ++ ws')) ?_ ⟨?_, hsplit.2⟩, Nat.le_succ _,
      fun _ => Nat.lt_succ_self _⟩
    · rw [LanOut.act, hout]
      rfl
    · rw [LanOut.act, hlink]
      rfl

/-- **A step.** When the shortest frame is at hand, a step keeps the receiver in the stream, and
leaves less work once all bytes have arrived. -/
theorem InStream.step (hready : env.Ready) (hactive : link.session.active = true)
    (hvalid : ValidFrames env link ws) (hshort : Short ws)
    (h : InStream env link ws rest st (chunk ++ unread)) (hsupplied : Supplied st chunk) :
    ∃ rest', InStream env link ws rest' (lanRecvStep env st chunk) unread ∧
      workLeft rest' (lanRecvStep env st chunk).mode ≤ workLeft rest st.mode ∧
      (unread = [] → rest ≠ [] →
        workLeft rest' (lanRecvStep env st chunk).mode < workLeft rest st.mode) := by
  obtain ⟨done, rfl, hhandled, hawaits⟩ := h
  obtain ⟨hvalid', hactive'⟩ := hvalid.drop hready hshort hactive
  have hshort' : Short rest := fun w hw => hshort w (List.mem_append_right _ hw)
  rw [← List.append_assoc] at hawaits
  rw [Supplied] at hsupplied
  cases hmode : st.mode with
  | idle =>
    rw [hmode] at hawaits hsupplied
    obtain ⟨hlink, hbytes⟩ := hawaits
    rw [lanRecvStep, hmode]
    dsimp only
    by_cases hnil : st.pending ++ chunk = []
    · rw [if_pos (Or.inl hnil)]
      refine ⟨rest, InStream.append hhandled (List.nil_append _).symm (List.append_nil _).symm
        ⟨hlink, hbytes⟩, Nat.le_refl _, fun hunread hrest => ?_⟩
      rw [hnil, hunread] at hbytes
      exact absurd (wireBytes_eq_nil hbytes.symm) hrest
    · have hopen : st.out.link.session.active ≠ false := by
        rw [hlink, hactive']
        exact fun h => Bool.noConfusion h
      rw [if_neg (not_or_intro hnil hopen)]
      rw [← hlink] at hvalid'
      obtain ⟨taken, rest', hrest, hrun, hst', hwork⟩ := lanRecvAgain_spec hready
        (by decide : ([] : Bytes).length < lpv35FrameMiniSize) (hsupplied.resolve_left hnil) hbytes
        hvalid' hshort'
      rw [hlink] at hst'
      exact ⟨rest', InStream.append hhandled hrest hrun hst', Nat.le_of_lt hwork, fun _ _ => hwork⟩
  | again left =>
    rw [hmode] at hawaits hsupplied
    obtain ⟨hlink, hbytes, hleft⟩ := hawaits
    rw [lanRecvStep, hmode]
    rw [← hlink] at hvalid'
    obtain ⟨taken, rest', hrest, hrun, hst', hwork⟩ :=
      lanRecvAgain_spec hready hleft hsupplied hbytes hvalid' hshort'
    rw [hlink] at hst'
    exact ⟨rest', InStream.append hhandled hrest hrun hst', Nat.le_of_lt hwork, fun _ _ => hwork⟩
  | blocked start =>
    rw [hmode] at hawaits
    obtain ⟨rest', hst', hle, hlt⟩ :=
      InStream.step_blocked hready hvalid' hshort' hhandled hmode hawaits
    rw [hmode] at hle hlt
    exact ⟨rest', hst', hle, fun hunread _ => hlt hunread⟩

/-- **A run.** While bytes arrive, the receiver stays in the stream. -/
theorem InStream.foldl (hready : env.Ready) (hactive : link.session.active = true)
    (hvalid : ValidFrames env link ws) (hshort : Short ws) {chunks : List Bytes}
    (h : InStream env link ws rest st (chunks.flatten ++ unread))
    (hrun : Guarded (lanRecvStep env) Supplied st chunks) :
    ∃ rest', InStream env link ws rest' (chunks.foldl (lanRecvStep env) st) unread := by
  induction chunks generalizing st rest with
  | nil => exact ⟨rest, h⟩
  | cons chunk chunks ih =>
    rw [List.flatten_cons, List.append_assoc] at h
    obtain ⟨rest', hst', -⟩ := h.step hready hactive hvalid hshort hrun.1
    exact ih hst' hrun.2

/-- **The end of a run.** When all bytes have arrived, two steps for each frame are enough. -/
theorem InStream.settle (hready : env.Ready) (hactive : link.session.active = true)
    (hvalid : ValidFrames env link ws) (hshort : Short ws) {n : Nat}
    (h : InStream env link ws rest st []) (hwork : workLeft rest st.mode ≤ n + 1)
    (hrun : Guarded (lanRecvStep env) Supplied st (List.replicate n [])) :
    InStream env link ws [] ((List.replicate n []).foldl (lanRecvStep env) st) [] := by
  induction n generalizing st rest with
  | zero =>
    have hle : 2 * rest.length ≤ workLeft rest st.mode := by
      cases st.mode with
      | blocked start => exact Nat.le_refl _
      | _ => exact Nat.le_succ _
    have hnil : rest = [] := List.eq_nil_of_length_eq_zero (by omega)
    rw [← hnil]
    exact h
  | succ n ih =>
    obtain ⟨rest', hst', hle, hlt⟩ := h.step hready hactive hvalid hshort hrun.1
    refine ih hst' ?_ hrun.2
    by_cases hnil : rest = []
    · have hone : workLeft rest st.mode ≤ 1 := by
        rw [hnil]
        exact workLeft_le [] st.mode
      omega
    · have := hlt rfl hnil
      omega

/-- **Independence of the cuts.** Frames are sent on a session, and their bytes arrive in chunks,
such that the receiver always has the bytes of the shortest frame when it asks for bytes. Then at
any time it has handed on the first of the frames, in order and once each, and it has not marked the
session as faulty: the mark is as these frames have left it. When all bytes have arrived, it hands
on all of the frames, and nothing of the cuts is left in the session. -/
theorem handled_of_guarded {link : LanLink} {ws : List WireFrame} {chunks : List Bytes}
    {unread : Bytes} (hready : env.Ready) (hactive : link.session.active = true)
    (hvalid : ValidFrames env link ws) (hshort : Short ws)
    (hbytes : chunks.flatten ++ unread = wireBytes ws)
    (hrun : Guarded (lanRecvStep env) Supplied (startRecv link) chunks) :
    (∃ done rest, ws = done ++ rest ∧
      (chunks.foldl (lanRecvStep env) (startRecv link)).out.handled = done.map (·.handled) ∧
      (chunks.foldl (lanRecvStep env) (startRecv link)).out.link.session.fault =
        (done.foldl (receiveFrame env) link).session.fault) ∧
    ∀ n, unread = [] → 2 * ws.length ≤ n →
      Guarded (lanRecvStep env) Supplied (startRecv link) (chunks ++ List.replicate n []) →
      ((chunks ++ List.replicate n []).foldl (lanRecvStep env) (startRecv link)).out.handled =
          ws.map (·.handled) ∧
        ((chunks ++ List.replicate n []).foldl (lanRecvStep env) (startRecv link)).out.link =
          ws.foldl (receiveFrame env) link := by
  have hstart : InStream env link ws ws (startRecv link) (chunks.flatten ++ unread) :=
    ⟨[], rfl, rfl, rfl, hbytes⟩
  obtain ⟨rest, hst⟩ := hstart.foldl hready hactive hvalid hshort hrun
  refine ⟨?_, fun n hunread hn hguarded => ?_⟩
  · obtain ⟨done, rfl, hhandled, hawaits⟩ := hst
    refine ⟨done, rest, rfl, hhandled, ?_⟩
    exact hawaits.fault (hvalid.drop hready hshort hactive).1 fun w hw =>
      hshort w (List.mem_append_right _ hw)
  · rw [hunread] at hst
    have hle : workLeft rest (chunks.foldl (lanRecvStep env) (startRecv link)).mode ≤ n + 1 := by
      refine Nat.le_trans (workLeft_le _ _) ?_
      obtain ⟨done, rfl, -⟩ := hst
      rw [List.length_append] at hn
      omega
    have hend := hst.settle hready hactive hvalid hshort hle (guarded_append.mp hguarded).2
    rw [← List.foldl_append] at hend
    obtain ⟨done, hws, hhandled, hawaits⟩ := hend
    rw [List.append_nil] at hws
    rw [hws]
    exact ⟨hhandled, hawaits.link_of_nil⟩

end Stream

/-! ### Two streams -/

def sampleHeartbeat : WireFrame where
  frame := { sequence := 2, type := frmTpHb, data := [] }
  nonce := List.replicate 12 7
  ct := []
  tag :=
    [0xd0, 0xe6, 0x25, 0xbc, 0x0e, 0xaf, 0x3e, 0xa5, 0x95, 0xe8, 0x66, 0x80, 0x10, 0xb4, 0x0e, 0x88]
  length_nonce := rfl
  length_ct := rfl
  length_tag := rfl

/-- The command `{"dps":{"1":true}}` under that key. -/
def sampleCommand : WireFrame where
  frame :=
    { sequence := 3
      type := frmTpCmd
      data :=
        [0x7b, 0x22, 0x64, 0x70, 0x73, 0x22, 0x3a, 0x7b, 0x22, 0x31, 0x22, 0x3a, 0x74, 0x72, 0x75, 0x65,
         0x7d, 0x7d] }
  nonce := List.replicate 12 8
  ct :=
    [0x8b, 0xd2, 0x63, 0x2c, 0xda, 0x4d, 0xd9, 0xb3, 0x3a, 0x42, 0x48, 0x6a, 0xbc, 0xa1, 0x6b, 0xab,
     0x83, 0xc6]
  tag :=
    [0xda, 0xe2, 0x2c, 0x1d, 0x82, 0xbe, 0xc5, 0x0a, 0x5d, 0x2d, 0x5e, 0x12, 0xd4, 0xf8, 0xf4, 0xc3]
  length_nonce := rfl
  length_ct := by decide +kernel
  length_tag := rfl

/-- The values of AES-GCM for a frame, under the key of the session at hand. -/
def WireFrame.entry (w : WireFrame) : Aead.Entry where
  key := List.replicate sessionkeyLen 1
  nonce := w.nonce
  ad := lpv35AdditionalData w.frame
  data := w.frame.data
  ct := w.ct
  tag := w.tag

def sampleEnv : LanEnv :=
  { rejectingEnv with
    gcm := Aead.ofEntries ⟨oprtComError, oprtComError_ne_ok⟩ [sampleHeartbeat.entry, sampleCommand.entry]
      (by decide +kernel) (by decide +kernel) }

theorem ready_sampleEnv : sampleEnv.Ready := ⟨rfl, fun _ => rfl, by decide⟩

theorem validFrames_sampleEnv :
    ValidFrames sampleEnv keyedRecv.out.link [sampleHeartbeat, sampleCommand] := by
  refine ⟨⟨by decide +kernel, by decide +kernel, ?_⟩, ⟨by decide +kernel, by decide +kernel, ?_⟩,
    trivial⟩
  · rfl
  · rfl

/-- The chunks in which the two frames arrive: the second is cut inside its body. -/
def sampleChunks : List Bytes :=
  [(wireBytes [sampleHeartbeat, sampleCommand]).take 105,
    (wireBytes [sampleHeartbeat, sampleCommand]).drop 105]

theorem handled_sampleChunks :
    ((sampleChunks ++ List.replicate 4 []).foldl (lanRecvStep sampleEnv)
        (startRecv keyedRecv.out.link)).out.handled =
      [.heartbeat 2, .process sampleCommand.frame] ∧
    ((sampleChunks ++ List.replicate 4 []).foldl (lanRecvStep sampleEnv)
        (startRecv keyedRecv.out.link)).out.link =
      [sampleHeartbeat, sampleCommand].foldl (receiveFrame sampleEnv) keyedRecv.out.link :=
  (handled_of_guarded ready_sampleEnv rfl validFrames_sampleEnv (by unfold Short; decide +kernel)
    (by decide +kernel : sampleChunks.flatten ++ [] = _) (by decide +kernel)).2 4 rfl (by decide)
    (by decide +kernel)

/-- A heartbeat of which ten bytes come first is never handed on, however long one waits. -/
theorem exists_handled_ne :
    ∃ env link ws chunks, LanEnv.Ready env ∧ link.session.active = true ∧ ValidFrames env link ws ∧
      Short ws ∧ chunks.flatten = wireBytes ws ∧
      ∀ n, ((chunks ++ List.replicate n []).foldl (lanRecvStep env) (startRecv link)).out.handled ≠
        ws.map (·.handled) := by
  refine ⟨sampleEnv, keyedRecv.out.link, [sampleHeartbeat],
    [sampleHeartbeat.bytes.take 10, sampleHeartbeat.bytes.drop 10], ready_sampleEnv, rfl,
    ⟨validFrames_sampleEnv.1, trivial⟩, by unfold Short; decide +kernel, by decide +kernel,
    fun n => ?_⟩
  have hlost : [sampleHeartbeat.bytes.take 10, sampleHeartbeat.bytes.drop 10].foldl
      (lanRecvStep sampleEnv) (startRecv keyedRecv.out.link) = startRecv keyedRecv.out.link := by
    rfl
  have hwait : (List.replicate n []).foldl (lanRecvStep sampleEnv) (startRecv keyedRecv.out.link) =
      startRecv keyedRecv.out.link := by
    induction n with
    | zero => rfl
    | succ n ih => exact ih
  rw [List.foldl_append, hlost, hwait]
  exact (List.cons_ne_nil _ _).symm

end TuyaOpen.Lan
