import TuyaOpen.Lan.Receive

/-!
# Frames of any length

What `lpv35_frame_parse` does with the frames that the readers of `tuya_lan.c` pass to it. Both
readers compute the length of a frame in 32 bits from the length field behind the head, and compare
it with what they have received, but neither compares the field with the size of nonce and tag. A
frame that is shorter than its fixed part is read beyond its end if the tail stands where its length
says, and the length of its ciphertext wraps around.
-/

namespace TuyaOpen.Lan

open Protocol

/-! ### What the readers pass -/

/-- The memory from `frame_buffer` on, as far as it is known to be there: a head, at least the
shortest frame, and all bytes that the length field stands for. No buffer is longer than
`LAN_FRAME_MAX_LEN`. -/
structure Receivable (buf : Bytes) : Prop where
  take_head : buf.take 4 = lpv35FrameHead
  mini_le : lpv35FrameMiniSize ≤ buf.length
  frameLen_le : (lanHead buf).frameLen ≤ buf.length
  length_le : buf.length ≤ lanFrameMaxLen

/-- A call of `lpv35_frame_parse`: the key, of `SESSIONKEY_LEN` or `APP_KEY_LEN` bytes, and the
memory from `frame_buffer` on. -/
structure ReaderInput where
  key : Bytes
  buf : Bytes
  length_key : key.length = sessionkeyLen
  receivable : Receivable buf

/-- The bytes that are passed, as many as `frame_len`. -/
def ReaderInput.input (r : ReaderInput) : Bytes := r.buf.take (lanHead r.buf).frameLen

/-- `FRM_TYPE_APP_UDP_BOARDCAST`. -/
def frmTypeAppUdpBoardcast : UInt32 := 0x25

/-- `__udp_serv_is_in_packet_vaild`. There is no result when the tail is looked for outside of the
buffer. -/
def udpServIsInPacketVaild (recvBuf : Bytes) (recvDatalen : Nat) : Option Bool :=
  if recvDatalen < lpv35FrameMiniSize then some false
  else if recvBuf.take 4 ≠ lpv35FrameHead then some false
  else
    match readSpan recvBuf (18 + (lanHead recvBuf).length) 4 with
    | none => none
    | some tail =>
      if tail ≠ lpv35FrameTail then some false
      else some ((lanHead recvBuf).type = frmTypeAppUdpBoardcast)

/-- `lan_udp_serv_sock_read`, which receives at most `bufsize` bytes of a packet: the buffer, when
it passes its start to `lpv35_frame_parse`. -/
def lanUdpServSockRead (packet : Bytes) : Option (Option Bytes) :=
  let packet := packet.take recvBufLmt
  let recvBuf := packet ++ List.replicate (recvBufLmt - packet.length) 0
  (udpServIsInPacketVaild recvBuf packet.length).map fun vaild =>
    if vaild then some recvBuf else none

/-! ### The readers pass such frames -/

section Readers

variable {env : LanEnv} {o : LanOut} {st : LanRecv} {buf : Bytes} {a : LanAct}

/-- A frame that is handled consists of the bytes that its head stands for. -/
def Passed : LanAct → Prop
  | .frame head frame =>
    ∃ buf, Receivable buf ∧ head = lanHead buf ∧ frame = buf.take head.frameLen
  | _ => True

def Recorded (o : LanOut) : Prop := ∀ a ∈ o.acts, Passed a

/-- What has been kept fits its buffer, and a frame is waited for only if it is not too long. -/
def RecvMode.Fits : RecvMode → Prop
  | .idle => True
  | .again left => left.length ≤ recvBufLmt
  | .blocked start =>
    start.take 4 = lpv35FrameHead ∧ lpv35FrameMiniSize ≤ start.length ∧
      start.length < (lanHead start).frameLen ∧ (lanHead start).frameLen < lanFrameMaxLen

theorem Recorded.act (h : Recorded o) (ha : Passed a) : Recorded (o.act env a) := by
  intro b hb
  rcases List.mem_append.mp hb with hold | hnew
  · exact h b hold
  · rw [List.mem_singleton.mp hnew]
    exact ha

theorem recorded_lanFrameLoop (fuel : Nat) (h : Recorded o) (hbuf : buf.length ≤ recvBufLmt) :
    Recorded (lanFrameLoop env fuel o buf).1 ∧ (lanFrameLoop env fuel o buf).2.Fits := by
  induction fuel generalizing o buf with
  | zero => exact ⟨h, hbuf⟩
  | succ fuel ih =>
    have hdrop (n : Nat) : (buf.drop n).length ≤ recvBufLmt :=
      Nat.le_trans (by rw [List.length_drop]; omega) hbuf
    have hsequence : Recorded (o.act env (.sequence (lanHead buf))) := h.act trivial
    rw [lanFrameLoop]
    by_cases hmini : buf.length < lpv35FrameMiniSize
    · rw [if_pos hmini]
      refine ⟨h, ?_⟩
      split_ifs
      · trivial
      · exact hbuf
    rw [if_neg hmini]
    by_cases hhead : buf.take 4 = lpv35FrameHead
    swap
    · rw [if_pos hhead]
      exact ih h (hdrop 1)
    rw [if_neg (not_not.mpr hhead)]
    dsimp only
    split_ifs with hseq hlen hmax
    · exact ⟨hsequence, hbuf⟩
    · have hframe : Passed (.frame (lanHead buf) (buf.take (lanHead buf).frameLen)) :=
        ⟨buf, ⟨hhead, Nat.not_lt.mp hmini, hlen, Nat.le_trans hbuf (by decide)⟩, rfl, rfl⟩
      split
      · exact ⟨hsequence.act hframe, hbuf⟩
      · exact ih (hsequence.act hframe) (hdrop _)
    · exact ⟨hsequence, hbuf⟩
    · rw [not_or, Nat.not_le] at hmax
      exact ⟨hsequence, hhead, Nat.not_lt.mp hmini, Nat.not_le.mp hlen, hmax.1⟩

theorem recorded_lanRecvAgain {left : Bytes} (pending : Bytes) (h : Recorded o)
    (hleft : left.length ≤ recvBufLmt) :
    Recorded (lanRecvAgain env o left pending).out ∧
      (lanRecvAgain env o left pending).mode.Fits := by
  rw [lanRecvAgain]
  dsimp only
  split_ifs
  · exact ⟨h.act trivial, trivial⟩
  · exact ⟨h, trivial⟩
  · refine recorded_lanFrameLoop _ h ?_
    rw [List.length_append, List.length_take]
    omega

theorem passed_of_blocked {start : Bytes} (h : (RecvMode.blocked start).Fits) {pending : Bytes}
    (hlen : (lanHead start).frameLen ≤ (start ++ pending).length) :
    Passed (.frame (lanHead start) ((start ++ pending).take (lanHead start).frameLen)) := by
  obtain ⟨hhead, hmini, hlt, hmax⟩ := h
  rw [lpv35FrameMiniSize] at hmini
  set frame := (start ++ pending).take (lanHead start).frameLen with hframe
  have hframeLen : frame.length = (lanHead start).frameLen := by
    rw [List.length_take, Nat.min_eq_left hlen]
  have htake : frame.take start.length = start := by
    rw [hframe, List.take_take, Nat.min_eq_left (Nat.le_of_lt hlt), List.take_left]
  have hsame : lanHead frame = lanHead start := by
    rw [lanHead_take (n := start.length) (by rw [htake]; omega), htake]
  refine ⟨frame, ⟨?_, ?_, ?_, ?_⟩, hsame.symm, ?_⟩
  · have hfour : (frame.take start.length).take 4 = frame.take 4 := by
      rw [List.take_take, Nat.min_eq_left (by omega)]
    rw [← hfour, htake, hhead]
  · rw [hframeLen, lpv35FrameMiniSize]
    omega
  · rw [hsame, hframeLen]
  · rw [hframeLen]
    exact Nat.le_of_lt hmax
  · rw [← hframeLen, List.take_length]

theorem recorded_lanRecvStep (h : Recorded st.out) (hmode : st.mode.Fits) (chunk : Bytes) :
    Recorded (lanRecvStep env st chunk).out ∧ (lanRecvStep env st chunk).mode.Fits := by
  rw [lanRecvStep]
  cases hst : st.mode with
  | idle =>
    dsimp only
    split_ifs
    · exact ⟨h, trivial⟩
    · exact recorded_lanRecvAgain _ h (Nat.zero_le _)
  | again left =>
    rw [hst] at hmode
    exact recorded_lanRecvAgain _ h hmode
  | blocked start =>
    rw [hst] at hmode
    dsimp only
    split_ifs with hlen
    · exact ⟨h, hmode⟩
    · exact ⟨h.act (passed_of_blocked hmode (Nat.not_lt.mp hlen)), trivial⟩

theorem recorded_foldl (h : Recorded st.out) (hmode : st.mode.Fits) (chunks : List Bytes) :
    Recorded (chunks.foldl (lanRecvStep env) st).out := by
  induction chunks generalizing st with
  | nil => exact h
  | cons chunk chunks ih =>
    obtain ⟨h', hmode'⟩ := recorded_lanRecvStep h hmode chunk
    exact ih h' hmode'

/-- A frame that is handled is a piece of what has arrived. -/
def Taken (stream : Bytes) : LanAct → Prop
  | .frame _ frame => frame <:+: stream
  | _ => True

def RecvMode.kept : RecvMode → Bytes
  | .idle => []
  | .again left => left
  | .blocked start => start

/-- Of the bytes that have arrived, the last ones are still to be read, and all frames that have
been handled were among them. -/
def InOrder (stream : Bytes) (o : LanOut) (unread : Bytes) : Prop :=
  (∀ a ∈ o.acts, Taken stream a) ∧ unread <:+ stream

namespace InOrder

variable {stream unread rest : Bytes}

theorem drop (h : InOrder stream o unread) (n : Nat) : InOrder stream o (unread.drop n) :=
  ⟨h.1, (List.drop_suffix n unread).trans h.2⟩

theorem act (h : InOrder stream o unread) (ha : Taken stream a) :
    InOrder stream (o.act env a) unread := by
  refine ⟨fun b hb => ?_, h.2⟩
  rcases List.mem_append.mp hb with hold | hnew
  · exact h.1 b hold
  · rw [List.mem_singleton.mp hnew]
    exact ha

theorem taken (h : InOrder stream o unread) (head : LanHead) (n : Nat) :
    Taken stream (.frame head (unread.take n)) :=
  (List.take_prefix n unread).isInfix.trans h.2.isInfix

theorem lanFrameLoop (fuel : Nat) (h : InOrder stream o (buf ++ rest)) :
    InOrder stream (lanFrameLoop env fuel o buf).1
      ((lanFrameLoop env fuel o buf).2.kept ++ rest) := by
  induction fuel generalizing o buf with
  | zero => exact h
  | succ fuel ih =>
    have hdrop {o : LanOut} (h : InOrder stream o (buf ++ rest)) (n : Nat) :
        InOrder stream o (buf.drop n ++ rest) :=
      ⟨h.1, .trans ⟨buf.take n, by rw [← List.append_assoc, List.take_append_drop]⟩ h.2⟩
    rw [Lan.lanFrameLoop]
    dsimp only
    have hseq : InOrder stream (o.act env (.sequence (lanHead buf))) (buf ++ rest) := h.act trivial
    split_ifs with _ hnil
    · rwa [hnil] at h
    · exact h
    · exact ih (hdrop h 1)
    · exact hseq
    · have hframe : Taken stream (.frame (lanHead buf) (buf.take (lanHead buf).frameLen)) :=
        ((List.take_prefix _ buf).trans (List.prefix_append buf rest)).isInfix.trans h.2.isInfix
      split
      · exact hseq.act hframe
      · exact ih (hdrop (hseq.act hframe) _)
    · exact hseq
    · exact hseq

theorem lanRecvAgain {left pending : Bytes} (h : InOrder stream o (left ++ pending)) :
    InOrder stream (lanRecvAgain env o left pending).out
      ((lanRecvAgain env o left pending).mode.kept ++
        (lanRecvAgain env o left pending).pending) := by
  have hread (n : Nat) : left ++ pending = (left ++ pending.take n) ++ pending.drop n := by
    rw [List.append_assoc, List.take_append_drop]
  rw [Lan.lanRecvAgain]
  dsimp only
  split_ifs
  · exact ⟨(h.act (a := .recvErr) trivial).1, (List.suffix_append left pending).trans h.2⟩
  · exact ⟨h.1, ((List.drop_suffix _ _).trans (List.suffix_append left pending)).trans h.2⟩
  · exact lanFrameLoop _ (hread _ ▸ h)

theorem lanRecvStep (h : InOrder stream st.out (st.mode.kept ++ st.pending)) (chunk : Bytes) :
    InOrder (stream ++ chunk) (lanRecvStep env st chunk).out
      ((lanRecvStep env st chunk).mode.kept ++ (lanRecvStep env st chunk).pending) := by
  have h' : InOrder (stream ++ chunk) st.out (st.mode.kept ++ (st.pending ++ chunk)) := by
    refine ⟨fun a ha => ?_, ?_⟩
    · cases a with
      | frame head frame => exact (h.1 _ ha).trans (List.prefix_append _ _).isInfix
      | _ => trivial
    · obtain ⟨read, hread⟩ := h.2
      exact ⟨read, by rw [← hread]; simp only [List.append_assoc]⟩
  rw [Lan.lanRecvStep]
  cases hst : st.mode with
  | idle =>
    rw [hst] at h'
    dsimp only
    split_ifs
    · exact h'
    · exact h'.lanRecvAgain
  | again left =>
    rw [hst] at h'
    exact h'.lanRecvAgain
  | blocked start =>
    rw [hst] at h'
    dsimp only
    split_ifs
    · exact h'
    · exact (h'.act (h'.taken _ _)).drop _

theorem foldl (h : InOrder stream st.out (st.mode.kept ++ st.pending)) (chunks : List Bytes) :
    let st' := chunks.foldl (Lan.lanRecvStep env) st
    InOrder (stream ++ chunks.flatten) st'.out (st'.mode.kept ++ st'.pending) := by
  induction chunks generalizing st stream with
  | nil =>
    rw [List.flatten_nil, List.append_nil]
    exact h
  | cons chunk chunks ih =>
    rw [List.flatten_cons, ← List.append_assoc]
    exact ih (h.lanRecvStep chunk)

end InOrder

/-- **The reader of a session**, however bytes arrive, passes such frames only, each of them as it
has arrived. -/
theorem passed_foldl (env : LanEnv) (link : LanLink) (chunks : List Bytes) :
    let st := chunks.foldl (lanRecvStep env) ⟨⟨link, [], []⟩, .idle, []⟩
    Recorded st.out ∧ InOrder chunks.flatten st.out (st.mode.kept ++ st.pending) := by
  have hnone {P : LanAct → Prop} : ∀ a ∈ (⟨link, [], []⟩ : LanOut).acts, P a :=
    fun _ ha => absurd ha List.not_mem_nil
  exact ⟨@recorded_foldl env ⟨⟨link, [], []⟩, .idle, []⟩ hnone trivial chunks,
    @InOrder.foldl env ⟨⟨link, [], []⟩, .idle, []⟩ [] ⟨hnone, List.suffix_refl []⟩ chunks⟩

/-- **The reader of broadcasts** passes such frames only. -/
theorem receivable_of_udp {packet : Bytes} (h : lanUdpServSockRead packet = some (some buf)) :
    Receivable buf := by
  rw [lanUdpServSockRead] at h
  obtain ⟨vaild, hvaild, hbuf⟩ := Option.map_eq_some_iff.mp h
  split_ifs at hbuf with htrue
  have hlen : buf.length = recvBufLmt := by
    rw [← Option.some.inj hbuf, List.length_append, List.length_replicate, List.length_take]
    omega
  rw [Option.some.inj hbuf, htrue, udpServIsInPacketVaild] at hvaild
  split_ifs at hvaild with hmini hhead
  · cases hvaild
  · cases hvaild
  split at hvaild
  · cases hvaild
  · next tail htail =>
    have hspan : 18 + (lanHead buf).length + 4 ≤ buf.length := by
      by_contra hlt
      rw [readSpan_eq_none (by omega)] at htail
      cases htail
    rw [recvBufLmt] at hlen
    refine ⟨not_not.mp hhead, by rw [hlen, lpv35FrameMiniSize]; decide, ?_,
      by rw [hlen, lanFrameMaxLen]; decide⟩
    rw [LanHead.frameLen, u32_of_lt (by omega)]
    omega

end Readers

/-! ### Bounds -/

/-- `data_len`, when the parser gets there. -/
def frameDataLen (input : Bytes) : Option Nat :=
  if 18 ≤ input.length ∧ input.take 4 = lpv35FrameHead ∧
      slice input (input.length - 4) 4 = lpv35FrameTail ∧
      beNat (slice input 14 4) = u32Sub input.length 22 then
    some (u32Sub (beNat (slice input 14 4)) 28)
  else none

/-- The parser reads nothing outside of its input; the length of the ciphertext is what nonce and
tag leave of the length field, and does not exceed the input; and a field that is smaller than these
two is an error. -/
structure FrameBounded (gcm : Aead FailCode lpv35FrameTagSize) (malloc : Nat → Bool)
    (r : ReaderInput) : Prop where
  inside : ∃ res, lpv35FrameParse gcm malloc r.key r.input = .ok res
  not_wrapped : ∀ n, frameDataLen r.input = some n →
    n + (lpv35FrameNonceSize + lpv35FrameTagSize) = (lanHead r.buf).length ∧ n ≤ r.input.length
  short : (lanHead r.buf).length < lpv35FrameNonceSize + lpv35FrameTagSize →
    ∃ rt, rt ≠ oprtOk ∧ lpv35FrameParse gcm malloc r.key r.input = .ok (rt, none)

/-- The frame is empty, or it does not end with the tail, or it has all its fixed parts. -/
def SafeFrame (r : ReaderInput) : Prop :=
  let n := (lanHead r.buf).frameLen
  n = 0 ∨ (4 ≤ n ∧ slice r.buf (n - 4) 4 ≠ lpv35FrameTail) ∨ lpv35FrameMiniSize ≤ n

section Bounds

variable {gcm : Aead FailCode lpv35FrameTagSize} {malloc : Nat → Bool} {r : ReaderInput}

theorem ReaderInput.key_ne_nil (r : ReaderInput) : r.key ≠ [] := by
  intro hnil
  have hlen := r.length_key
  rw [hnil, List.length_nil] at hlen
  exact absurd hlen (by decide)

theorem ReaderInput.length_input (r : ReaderInput) :
    r.input.length = (lanHead r.buf).frameLen := by
  rw [input, List.length_take, Nat.min_eq_left r.receivable.frameLen_le]

theorem length_lanHead_lt (buf : Bytes) : (lanHead buf).length < 4294967296 := by
  have hlen : (slice buf 14 4).length ≤ 4 := List.length_take_le _ _
  exact Nat.lt_of_lt_of_le (beNat_lt _) (Nat.pow_le_pow_right (by decide) hlen)

theorem u32Sub_frameLen (buf : Bytes) :
    u32Sub (lanHead buf).frameLen 22 = (lanHead buf).length := by
  have hlt := length_lanHead_lt buf
  rw [LanHead.frameLen]
  by_cases hwrap : 22 + (lanHead buf).length < 4294967296
  · rw [u32_of_lt hwrap, u32Sub_of_le hwrap (by omega)]
    omega
  · have hmod : u32 (22 + (lanHead buf).length) = 22 + (lanHead buf).length - 4294967296 := by
      rw [u32]
      omega
    rw [hmod, u32Sub_of_lt (by decide) (by omega)]
    omega

theorem ReaderInput.take_input (h : 4 ≤ r.input.length) : r.input.take 4 = lpv35FrameHead := by
  rw [r.length_input] at h
  rw [input, List.take_take, Nat.min_eq_left h, r.receivable.take_head]

theorem ReaderInput.slice_tail (h : 4 ≤ r.input.length) :
    slice r.input (r.input.length - 4) 4 = slice r.buf ((lanHead r.buf).frameLen - 4) 4 := by
  rw [r.length_input] at h ⊢
  rw [input, slice, slice, List.drop_take, List.take_take, Nat.min_eq_left (by omega)]

theorem ReaderInput.beNat_slice (h : 18 ≤ r.input.length) :
    beNat (slice r.input 14 4) = (lanHead r.buf).length :=
  (congrArg LanHead.length (lanHead_take h)).symm

theorem ReaderInput.not_nil (h : (lanHead r.buf).frameLen ≠ 0) : ¬(r.key = [] ∨ r.input = []) := by
  rintro (hkey | hnil)
  · exact r.key_ne_nil hkey
  · exact h (by rw [← r.length_input, hnil, List.length_nil])

theorem ReaderInput.length_of_mini_le (h : lpv35FrameMiniSize ≤ (lanHead r.buf).frameLen) :
    (lanHead r.buf).frameLen = 22 + (lanHead r.buf).length := by
  have hlt := length_lanHead_lt r.buf
  rw [lpv35FrameMiniSize, LanHead.frameLen, u32] at h
  rw [LanHead.frameLen, u32]
  omega

theorem exists_lpv35FrameDecrypt {key input nonce : Bytes} {dataLen : Nat}
    (hlen : 50 + dataLen ≤ input.length) (hlt : input.length < 4294967296) :
    ∃ res, lpv35FrameDecrypt gcm malloc key input nonce dataLen = .ok res := by
  rw [lpv35FrameDecrypt, u32_of_lt (by omega), readSpan_of_le (by rw [lpv35FrameTagSize]; omega)]
  dsimp only
  split_ifs
  · rw [readSpan_of_le (by omega)]
    dsimp only
    split
    · exact ⟨_, rfl⟩
    · exact ⟨_, rfl⟩
  · exact ⟨_, rfl⟩

theorem FrameBounded.of_refused {rt : OperateRet} (hrt : rt ≠ oprtOk)
    (hparse : lpv35FrameParse gcm malloc r.key r.input = .ok (rt, none))
    (hnone : frameDataLen r.input = none) : FrameBounded gcm malloc r where
  inside := ⟨_, hparse⟩
  not_wrapped n hn := by
    rw [hnone] at hn
    cases hn
  short _ := ⟨rt, hrt, hparse⟩

theorem FrameBounded.of_mini_le (h : lpv35FrameMiniSize ≤ (lanHead r.buf).frameLen) :
    FrameBounded gcm malloc r := by
  have hfull := r.length_of_mini_le h
  have hle := r.receivable.frameLen_le
  have hmax := r.receivable.length_le
  have hlen := r.length_input
  rw [lpv35FrameMiniSize] at h
  rw [lanFrameMaxLen] at hmax
  have hfield := @ReaderInput.beNat_slice r (by omega)
  have hsub : u32Sub (lanHead r.buf).length 28 = (lanHead r.buf).length - 28 :=
    u32Sub_of_le (by omega) (by omega)
  refine ⟨?_, fun n hn => ?_, fun hshort => ?_⟩
  · rw [lpv35FrameParse, if_neg (r.not_nil (by omega))]
    split_ifs
    · omega
    · exact ⟨_, rfl⟩
    · omega
    · exact ⟨_, rfl⟩
    · rw [readSpan_of_le (by rw [lpv35FrameNonceSize]; omega), hfield, hsub]
      exact exists_lpv35FrameDecrypt (by omega) (by omega)
  · rw [frameDataLen] at hn
    split_ifs at hn
    rw [← Option.some.inj hn, hfield, hsub, lpv35FrameNonceSize, lpv35FrameTagSize]
    omega
  · rw [lpv35FrameNonceSize, lpv35FrameTagSize] at hshort
    omega

theorem FrameBounded.tail_ne (h : FrameBounded gcm malloc r) (hzero : (lanHead r.buf).frameLen ≠ 0)
    (hmini : (lanHead r.buf).frameLen < lpv35FrameMiniSize) :
    4 ≤ (lanHead r.buf).frameLen ∧
      slice r.buf ((lanHead r.buf).frameLen - 4) 4 ≠ lpv35FrameTail := by
  obtain ⟨⟨res, hres⟩, hwrapped, -⟩ := h
  have hlen := r.length_input
  rw [lpv35FrameMiniSize] at hmini
  rw [lpv35FrameParse, if_neg (r.not_nil hzero)] at hres
  by_cases h4 : r.input.length < 4
  · rw [if_pos h4] at hres
    cases hres
  have h4' : 4 ≤ r.input.length := Nat.not_lt.mp h4
  refine ⟨hlen ▸ h4', fun htail => ?_⟩
  rw [← r.slice_tail h4'] at htail
  have hhead := r.take_input h4'
  rw [if_neg h4, if_neg (by rw [hhead, htail]; simp)] at hres
  by_cases h18 : r.input.length < 18
  · rw [if_pos h18] at hres
    cases hres
  have h18' : 18 ≤ r.input.length := Nat.not_lt.mp h18
  have hfield := r.beNat_slice h18'
  have hcheck : beNat (slice r.input 14 4) = u32Sub r.input.length 22 := by
    rw [hfield, hlen, u32Sub_frameLen]
  have hcomputed : frameDataLen r.input = some (u32Sub (lanHead r.buf).length 28) := by
    rw [frameDataLen, if_pos ⟨h18', hhead, htail, hcheck⟩, hfield]
  have hle := (hwrapped _ hcomputed).2
  have hsum := (hwrapped _ hcomputed).1
  rw [lpv35FrameNonceSize, lpv35FrameTagSize] at hsum
  have hfull : u32 (22 + (lanHead r.buf).length) = r.input.length := hlen.symm
  rw [u32] at hfull
  have hlt := length_lanHead_lt r.buf
  omega

/-- **Frames of any length.** The parser is safe on a frame that a reader passes exactly when the
frame is empty, does not end with the tail, or has room for its fixed parts. -/
theorem frameBounded_iff (gcm : Aead FailCode lpv35FrameTagSize) (malloc : Nat → Bool)
    (r : ReaderInput) : FrameBounded gcm malloc r ↔ SafeFrame r := by
  constructor
  · intro h
    by_cases hzero : (lanHead r.buf).frameLen = 0
    · exact .inl hzero
    by_cases hmini : (lanHead r.buf).frameLen < lpv35FrameMiniSize
    · exact .inr (.inl (h.tail_ne hzero hmini))
    · exact .inr (.inr (Nat.not_lt.mp hmini))
  · rintro (hzero | ⟨h4, htail⟩ | hmini)
    · have hnil : r.input = [] := by
        refine List.eq_nil_of_length_eq_zero ?_
        rw [r.length_input, hzero]
      refine .of_refused (by decide : oprtInvalidParm ≠ oprtOk) ?_ ?_
      · rw [lpv35FrameParse, if_pos (.inr hnil)]
      · rw [frameDataLen, if_neg fun hcheck => ?_]
        rw [hnil, List.length_nil] at hcheck
        exact absurd hcheck.1 (by decide)
    · have hlen := r.length_input
      have htail' : slice r.input (r.input.length - 4) 4 ≠ lpv35FrameTail := by
        rw [r.slice_tail (by omega)]
        exact htail
      refine .of_refused (by decide : oprtVersionFmtErr ≠ oprtOk) ?_ ?_
      · rw [lpv35FrameParse, if_neg (r.not_nil (by omega)), if_neg (by omega), if_pos (.inr htail')]
      · rw [frameDataLen, if_neg fun hcheck => htail' hcheck.2.2.1]
    · exact .of_mini_le hmini

end Bounds

/-- A frame of type 3 with length 0, which ends with the tail, and zeros behind it. -/
def shortFrame : ReaderInput where
  key := (List.range 16).map UInt8.ofNat
  buf := lpv35FrameHead ++ ([0, 0] ++ beBytes 4 1 ++ beBytes 4 3 ++ beBytes 4 0 ++
    (lpv35FrameTail ++ List.replicate 28 0))
  length_key := rfl
  receivable := ⟨rfl, by decide, by decide +kernel, by decide⟩

/-- The length of its ciphertext wraps around. -/
theorem not_frameBounded_shortFrame : ¬FrameBounded sampleGcm (fun _ => true) shortFrame := by
  intro h
  have hcomputed : frameDataLen shortFrame.input = some 4294967268 := by decide +kernel
  exact absurd (h.not_wrapped _ hcomputed).1 (by decide +kernel)

end TuyaOpen.Lan
