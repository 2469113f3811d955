import TuyaOpen.Basic.CharArray
import TuyaOpen.Basic.ChunkStream
import TuyaOpen.Protocol.Frame

/-!
# Receiving a frame over the network of the device

`ap_frame_recv` of `ap_netcfg.c` reads once into a buffer, looks for the head of a frame, reads on
if the frame is longer than what has arrived, and parses the frame. When it has read on it parses
what stands behind the part of the frame that arrived first. Without a head it returns `OPRT_OK`,
and also when the stream ends before the frame does.
-/

namespace TuyaOpen.Netcfg

open Protocol ChunkStream

/-! ### The function -/

/-- `AP_MAX_BUFSIZE`. -/
def apMaxBufsize : Nat := 4096

/-- `APP_KEY_LEN`. -/
def appKeyLen : Nat := 16

/-- `LPV35_FRAME_MINI_SIZE`. -/
def apFrameMiniSize : Nat := 50

/-- A read that gives no data: what `tal_net_get_errno` gives then. -/
abbrev TuyaErrno := Int32

/-- `UNW_EINTR`. -/
def unwEintr : TuyaErrno := -2

/-- `UNW_EAGAIN`. -/
def unwEagain : TuyaErrno := -4

def retryTls (errno : TuyaErrno) : Bool := errno = unwEintr ∨ errno = unwEagain

/-- What `tuya_tls_read` answers. -/
abbrev TlsStream := List (Event UInt8 TuyaErrno)

/-- The fields of `ap_netcfg_t` that the function uses. -/
structure ApNetcfg where
  recvBuf : CharArray apMaxBufsize
  appKey : CharArray appKeyLen

/-- What a call leaves: its return value, what `*out` is filled with, the type of the frame that is
sent in answer, whether the connection is closed, and the buffer. -/
structure ApFrameRecv where
  ret : OperateRet
  out : Option Lpv35Frame
  reply : Option UInt32
  closed : Bool
  recvBuf : Bytes

/-- The buffer after `src` has been written to position `off`, where it fits. -/
def overwrite (mem : Bytes) (off : Nat) (src : Bytes) : Bytes :=
  mem.take off ++ src ++ mem.drop (off + src.length)

/-- The loop that looks for a head from `offset` on. -/
def apFindHead (recvBuf : Bytes) (readLen : Nat) : (fuel offset : Nat) → Option Nat
  | 0, _ => none
  | fuel + 1, offset =>
    if readLen < apFrameMiniSize + offset then none
    else if slice recvBuf offset 4 = lpv35FrameHead then some offset
    else apFindHead recvBuf readLen fuel (offset + 1)

/-- The length of the frame whose head is at `offset`. -/
def apFrameLen (recvBuf : Bytes) (offset : Nat) : Nat :=
  u32 (4 + sizeofLpv35AdditionalData + beNat (slice recvBuf (offset + 14) 4) + 4)

section Recv

variable (gcm : Aead FailCode lpv35FrameTagSize) (malloc : Nat → Bool) (ap : ApNetcfg)

/-- `lpv35_frame_parse` of the `frameLen` bytes at `off` in the buffer. If they leave the buffer,
only the head is there to be looked at. -/
def apFrameParse (recvBuf : Bytes) (off frameLen : Nat) :
    Except FrameFault (OperateRet × Option Lpv35Frame) :=
  match readSpan recvBuf off frameLen with
  | some input => lpv35FrameParse gcm malloc ap.appKey.mem input
  | none =>
    match readSpan recvBuf off 4 with
    | none => .error .head
    | some head => if head = lpv35FrameHead then .error .head else .ok (oprtVersionFmtErr, none)

/-- The end of `ap_frame_recv`: the frame at `off` is parsed. The head was found at `offset`. -/
def apFrameDone (recvBuf : Bytes) (offset off frameLen : Nat) : Except FrameFault ApFrameRecv :=
  (apFrameParse gcm malloc ap recvBuf off frameLen).map fun r =>
    { ret := r.1
      out := r.2
      reply :=
        if r.1 = oprtOk then none
        else some (UInt32.ofNat (beNat (slice recvBuf (offset + 10) 4)))
      closed := false
      recvBuf := recvBuf }

/-- `ap_frame_recv` where a head has been found at `offset` and `readLen` bytes have been read. -/
def apFrameTake (recvBuf : Bytes) (readLen offset : Nat) (es : TlsStream) :
    Except FrameFault ApFrameRecv :=
  let frameLen := apFrameLen recvBuf offset
  if readLen - offset < frameLen then
    if apMaxBufsize < frameLen then .ok ⟨oprtBufferNotEnough, none, none, false, recvBuf⟩
    else
      let recvBuf := overwrite recvBuf 0 (slice recvBuf offset (readLen - offset))
      -- The rest of the frame goes behind its first part, and `frame_buffer` stays there.
      match gather retryTls (frameLen - (readLen - offset)) [] readLen es with
      | (.full got _, _) =>
        apFrameDone gcm malloc ap (overwrite recvBuf (readLen - offset) got) offset
          (readLen - offset) frameLen
      | (.stopped got _, _) =>
        .ok ⟨oprtOk, none, none, true, overwrite recvBuf (readLen - offset) got⟩
  else apFrameDone gcm malloc ap recvBuf offset offset frameLen

/-- `ap_frame_recv`: a fault, or what the call leaves. -/
def apFrameRecv (es : TlsStream) : Except FrameFault ApFrameRecv :=
  match read apMaxBufsize es with
  | (.data xs, es) =>
    let recvBuf := overwrite ap.recvBuf.mem 0 xs
    if xs.length < apFrameMiniSize then .ok ⟨oprtComError, none, none, false, recvBuf⟩
    else
      match apFindHead recvBuf xs.length xs.length 0 with
      | none => .ok ⟨oprtOk, none, none, false, recvBuf⟩
      | some offset => apFrameTake gcm malloc ap recvBuf xs.length offset es
  | (_, _) => .ok ⟨oprtRecvErr, none, none, true, ap.recvBuf.mem⟩

/-! ### What a call ought to do -/

/-- The bytes of a frame that `lpv35_frame_parse` takes, and that fit into the buffer. -/
def ValidFrame (frame : Bytes) (f : Lpv35Frame) : Prop :=
  frame.length ≤ apMaxBufsize ∧
    lpv35FrameParse gcm malloc ap.appKey.mem frame = .ok (oprtOk, some f)

/-- A stream that delivers a frame behind other bytes. They have no head in them, and the first read
gives the bytes of the shortest frame behind them. -/
structure Delivers (es : TlsStream) (garbage frame : Bytes) : Prop where
  noHead : ¬ lpv35FrameHead <:+: garbage
  first : ∃ xs es', read apMaxBufsize es = (.data xs, es') ∧
    garbage.length + apFrameMiniSize ≤ xs.length
  arrives : garbage ++ frame <+: arriving retryTls es

/-- A frame that is delivered is returned with `OPRT_OK`, and `OPRT_OK` is returned only if `*out`
has been filled. -/
structure RecvOk (es : TlsStream) : Prop where
  delivered : ∀ garbage frame f, Delivers es garbage frame → ValidFrame gcm malloc ap frame f →
    ∃ r g, apFrameRecv gcm malloc ap es = .ok r ∧ r.ret = oprtOk ∧ r.out = some g ∧
      g.type = f.type ∧ g.data = f.data
  filled : ∀ r, apFrameRecv gcm malloc ap es = .ok r → r.ret = oprtOk → r.out ≠ none

/-- The first head in what has been read, with the bytes of the shortest frame. -/
structure FirstHead (xs : Bytes) (offset : Nat) : Prop where
  le : apFrameMiniSize + offset ≤ xs.length
  head : slice xs offset 4 = lpv35FrameHead
  first : ∀ j < offset, slice xs j 4 ≠ lpv35FrameHead

/-- The condition on a frame whose head is at `offset` in the first read `xs`. It arrives; and if it
has not arrived in the first read, then what stands in the buffer where the rest of it begins, the
rest and old bytes behind it, is a frame of the same type with the same data. -/
structure FrameCond (es : TlsStream) (xs : Bytes) (offset : Nat) : Prop where
  arrives : offset + apFrameLen xs offset ≤ (arriving retryTls es).length
  again : xs.length - offset < apFrameLen xs offset →
    ∀ f, ValidFrame gcm malloc ap (slice (arriving retryTls es) offset (apFrameLen xs offset)) f →
      ∃ g, apFrameParse gcm malloc ap
          (slice (arriving retryTls es) offset (apFrameLen xs offset) ++
            (overwrite ap.recvBuf.mem 0 xs).drop (apFrameLen xs offset))
          (xs.length - offset) (apFrameLen xs offset) = .ok (oprtOk, some g) ∧
        g.type = f.type ∧ g.data = f.data

/-- The condition on a call. If the first read gives the bytes of the shortest frame, there is a
head in them, and if the frame is not too long it meets `FrameCond`. -/
def RecvCond (es : TlsStream) : Prop :=
  ∀ xs es', read apMaxBufsize es = (.data xs, es') → apFrameMiniSize ≤ xs.length →
    ∃ offset, FirstHead xs offset ∧
      (apFrameLen xs offset ≤ apMaxBufsize → FrameCond gcm malloc ap es xs offset)

end Recv

/-! ### The first read -/

section First

variable {xs : Bytes} {offset : Nat}

theorem overwrite_zero (mem xs : Bytes) : overwrite mem 0 xs = xs ++ mem.drop xs.length := by
  rw [overwrite, List.take_zero, List.nil_append, Nat.zero_add]

theorem overwrite_append {mem a src : Bytes} {off : Nat} (h : a.length = off) :
    overwrite (a ++ mem) off src = a ++ src ++ mem.drop src.length := by
  rw [overwrite, List.take_left' h, ← h, List.drop_append, Nat.add_sub_cancel_left,
    List.drop_of_length_le (Nat.le_add_right _ _), List.nil_append]

theorem length_overwrite {mem src : Bytes} {off : Nat} (h : off + src.length ≤ mem.length) :
    (overwrite mem off src).length = mem.length := by
  rw [overwrite, List.length_append, List.length_append, List.length_take, List.length_drop]
  omega

theorem slice_overwrite_zero (mem : Bytes) {n : Nat} (h : offset + n ≤ xs.length) :
    slice (overwrite mem 0 xs) offset n = slice xs offset n := by
  rw [overwrite_zero]
  exact slice_append_left h

theorem apFindHead_eq_some_iff {mem : Bytes} {readLen fuel start : Nat} :
    apFindHead mem readLen fuel start = some offset ↔
      start ≤ offset ∧ offset < start + fuel ∧ apFrameMiniSize + offset ≤ readLen ∧
        slice mem offset 4 = lpv35FrameHead ∧
        ∀ j, start ≤ j → j < offset → slice mem j 4 ≠ lpv35FrameHead := by
  induction fuel generalizing start with
  | zero =>
    rw [apFindHead]
    constructor
    · intro h
      cases h
    · rintro ⟨hle, hlt, -⟩
      omega
  | succ fuel ih =>
    rw [apFindHead]
    split_ifs with hlen hhead
    · constructor
      · intro h
        cases h
      · rintro ⟨hle, -, hread, -⟩
        omega
    · rw [Option.some.injEq]
      constructor
      · rintro rfl
        exact ⟨le_rfl, by omega, by omega, hhead, fun j hj hj' => absurd hj' (by omega)⟩
      · rintro ⟨hle, -, -, -, hfirst⟩
        refine Nat.le_antisymm hle (Nat.not_lt.mp fun hlt => ?_)
        exact hfirst start le_rfl hlt hhead
    · rw [ih]
      constructor
      · rintro ⟨hle, hlt, hread, hoff, hfirst⟩
        refine ⟨by omega, by omega, hread, hoff, fun j hj hj' => ?_⟩
        rcases Nat.eq_or_lt_of_le hj with rfl | hj
        · exact hhead
        · exact hfirst j hj hj'
      · rintro ⟨hle, hlt, hread, hoff, hfirst⟩
        have hne : start ≠ offset := by
          rintro rfl
          exact hhead hoff
        exact ⟨by omega, by omega, hread, hoff, fun j hj hj' => hfirst j (by omega) hj'⟩

theorem apFindHead_overwrite (mem xs : Bytes) (offset : Nat) :
    apFindHead (overwrite mem 0 xs) xs.length xs.length 0 = some offset ↔ FirstHead xs offset := by
  have hmini : apFrameMiniSize = 50 := rfl
  rw [apFindHead_eq_some_iff]
  constructor
  · rintro ⟨-, -, hread, hhead, hfirst⟩
    rw [slice_overwrite_zero mem (by omega)] at hhead
    refine ⟨hread, hhead, fun j hj => ?_⟩
    have hne := hfirst j (Nat.zero_le _) hj
    rwa [slice_overwrite_zero mem (by omega)] at hne
  · rintro ⟨hread, hhead, hfirst⟩
    refine ⟨Nat.zero_le _, by omega, hread, ?_, fun j _ hj => ?_⟩
    · rwa [slice_overwrite_zero mem (by omega)]
    · rw [slice_overwrite_zero mem (by omega)]
      exact hfirst j hj

theorem apFrameLen_overwrite (mem : Bytes) (h : FirstHead xs offset) :
    apFrameLen (overwrite mem 0 xs) offset = apFrameLen xs offset := by
  have hle := h.le
  have hmini : apFrameMiniSize = 50 := rfl
  rw [apFrameLen, apFrameLen, slice_overwrite_zero mem (by omega)]

theorem FirstHead.unique {offset' : Nat} (h : FirstHead xs offset) (h' : FirstHead xs offset') :
    offset = offset' := by
  rcases Nat.lt_trichotomy offset offset' with hlt | heq | hlt
  · exact absurd h.head (h'.first offset hlt)
  · exact heq
  · exact absurd h'.head (h.first offset' hlt)

end First

/-! ### The runs -/

section Runs

variable {gcm : Aead FailCode lpv35FrameTagSize} {malloc : Nat → Bool} {ap : ApNetcfg}
  {es es' : TlsStream} {xs : Bytes} {offset : Nat}

theorem apFrameRecv_eq_take (hread : read apMaxBufsize es = (.data xs, es'))
    (h : FirstHead xs offset) :
    apFrameRecv gcm malloc ap es =
      apFrameTake gcm malloc ap (overwrite ap.recvBuf.mem 0 xs) xs.length offset es' := by
  have hle := h.le
  rw [apFrameRecv, hread]
  dsimp only
  rw [if_neg (by omega), (apFindHead_overwrite _ xs offset).mpr h]

theorem apFrameRecv_eq_unfilled (hread : read apMaxBufsize es = (.data xs, es'))
    (hlen : apFrameMiniSize ≤ xs.length) (h : ∀ offset, ¬ FirstHead xs offset) :
    apFrameRecv gcm malloc ap es =
      .ok ⟨oprtOk, none, none, false, overwrite ap.recvBuf.mem 0 xs⟩ := by
  have hnone : apFindHead (overwrite ap.recvBuf.mem 0 xs) xs.length xs.length 0 = none :=
    Option.eq_none_iff_forall_not_mem.mpr fun offset hoff =>
      h offset ((apFindHead_overwrite _ xs offset).mp hoff)
  rw [apFrameRecv, hread]
  dsimp only
  rw [if_neg (by omega), hnone]

theorem apFrameRecv_eq_whole (hread : read apMaxBufsize es = (.data xs, es'))
    (h : FirstHead xs offset) (hlen : apFrameLen xs offset ≤ xs.length - offset) :
    apFrameRecv gcm malloc ap es =
      apFrameDone gcm malloc ap (overwrite ap.recvBuf.mem 0 xs) offset offset
        (apFrameLen xs offset) := by
  rw [apFrameRecv_eq_take hread h, apFrameTake, apFrameLen_overwrite _ h]
  dsimp only
  rw [if_neg (by omega)]

theorem apFrameRecv_eq_notEnough (hread : read apMaxBufsize es = (.data xs, es'))
    (h : FirstHead xs offset) (hlen : xs.length - offset < apFrameLen xs offset)
    (hmax : apMaxBufsize < apFrameLen xs offset) :
    apFrameRecv gcm malloc ap es =
      .ok ⟨oprtBufferNotEnough, none, none, false, overwrite ap.recvBuf.mem 0 xs⟩ := by
  rw [apFrameRecv_eq_take hread h, apFrameTake, apFrameLen_overwrite _ h]
  dsimp only
  rw [if_pos hlen, if_pos hmax]

theorem exists_apFrameRecv_eq_closed (hread : read apMaxBufsize es = (.data xs, es'))
    (h : FirstHead xs offset) (hlen : xs.length - offset < apFrameLen xs offset)
    (hmax : apFrameLen xs offset ≤ apMaxBufsize)
    (hshort : (arriving retryTls es).length < offset + apFrameLen xs offset) :
    ∃ recvBuf, apFrameRecv gcm malloc ap es = .ok ⟨oprtOk, none, none, true, recvBuf⟩ := by
  have hle := h.le
  rw [arriving_of_read hread, List.length_append] at hshort
  have hrest : (arriving retryTls es').length < apFrameLen xs offset - (xs.length - offset) := by
    omega
  obtain ⟨why, es₁, hgather⟩ := exists_gather_of_lt xs.length [] hrest
  rw [apFrameRecv_eq_take hread h, apFrameTake, apFrameLen_overwrite _ h]
  dsimp only
  rw [if_pos hlen, if_neg (by omega), hgather]
  exact ⟨_, rfl⟩

theorem apFrameRecv_eq_again (hread : read apMaxBufsize es = (.data xs, es'))
    (h : FirstHead xs offset) (hlen : xs.length - offset < apFrameLen xs offset)
    (hmax : apFrameLen xs offset ≤ apMaxBufsize)
    (harrives : offset + apFrameLen xs offset ≤ (arriving retryTls es).length) :
    apFrameRecv gcm malloc ap es =
      apFrameDone gcm malloc ap
        (slice (arriving retryTls es) offset (apFrameLen xs offset) ++
          (overwrite ap.recvBuf.mem 0 xs).drop (apFrameLen xs offset))
        offset (xs.length - offset) (apFrameLen xs offset) := by
  have hle := h.le
  have hall : arriving retryTls es = xs ++ arriving retryTls es' := arriving_of_read hread
  rw [hall, List.length_append] at harrives
  have hrest : apFrameLen xs offset - (xs.length - offset) ≤ (arriving retryTls es').length := by
    omega
  obtain ⟨last, es₁, hgather⟩ := exists_gather_of_le xs.length [] hrest
  set mem := overwrite ap.recvBuf.mem 0 xs with hmem
  set got := (arriving retryTls es').take (apFrameLen xs offset - (xs.length - offset)) with hgot
  have hfront : slice mem offset (xs.length - offset) = xs.drop offset := by
    rw [hmem, slice_overwrite_zero _ (by omega), slice, List.take_of_length_le]
    rw [List.length_drop]
  have hfrontLen : (xs.drop offset).length = xs.length - offset := List.length_drop
  have hgotLen : got.length = apFrameLen xs offset - (xs.length - offset) := by
    rw [hgot, List.length_take]
    omega
  have hframe : slice (arriving retryTls es) offset (apFrameLen xs offset) =
      xs.drop offset ++ got := by
    rw [slice, hall, List.drop_append_of_le_length (by omega), List.take_append, hfrontLen,
      List.take_of_length_le (by omega)]
  have hbuffer : overwrite (overwrite mem 0 (slice mem offset (xs.length - offset)))
      (xs.length - offset) got = slice (arriving retryTls es) offset (apFrameLen xs offset) ++
        mem.drop (apFrameLen xs offset) := by
    rw [hfront, overwrite_zero, overwrite_append hfrontLen, hframe, List.drop_drop, hfrontLen,
      hgotLen, Nat.add_sub_cancel' hlen.le]
  rw [apFrameRecv_eq_take hread h, apFrameTake, apFrameLen_overwrite _ h]
  dsimp only
  rw [if_pos hlen, if_neg (by omega), hgather]
  dsimp only
  rw [List.nil_append, ← hmem, hbuffer]

theorem apFrameParse_of_apFrameDone {mem : Bytes} {off frameLen : Nat} {r : ApFrameRecv}
    (h : apFrameDone gcm malloc ap mem offset off frameLen = .ok r) :
    apFrameParse gcm malloc ap mem off frameLen = .ok (r.ret, r.out) := by
  rw [apFrameDone] at h
  cases hparse : apFrameParse gcm malloc ap mem off frameLen with
  | error e =>
    rw [hparse] at h
    cases h
  | ok p =>
    rw [hparse] at h
    obtain rfl := Except.ok.inj h
    rfl

theorem exists_apFrameDone_eq {mem : Bytes} {off frameLen : Nat} {g : Lpv35Frame} (offset : Nat)
    (h : apFrameParse gcm malloc ap mem off frameLen = .ok (oprtOk, some g)) :
    ∃ r, apFrameDone gcm malloc ap mem offset off frameLen = .ok r ∧ r.ret = oprtOk ∧
      r.out = some g := by
  rw [apFrameDone, h]
  exact ⟨_, rfl, rfl, rfl⟩

theorem out_ne_none_of_apFrameDone {mem : Bytes} {off frameLen : Nat} {r : ApFrameRecv}
    (hmem : mem.length < 2 ^ 31) (h : apFrameDone gcm malloc ap mem offset off frameLen = .ok r)
    (hret : r.ret = oprtOk) : r.out ≠ none := by
  have hparse := apFrameParse_of_apFrameDone h
  rw [hret, apFrameParse] at hparse
  split at hparse
  · rename_i input hinput
    have hlen := length_of_readSpan hinput
    have hle := readSpan_isSome_iff.mp (Option.isSome_iff_exists.mpr ⟨input, hinput⟩)
    obtain ⟨n, -, -, -, -, hdecrypt⟩ := of_lpv35FrameParse (by omega) hparse
    obtain ⟨-, data, -, hg⟩ := of_lpv35FrameDecrypt hdecrypt
    rw [hg]
    exact Option.some_ne_none _
  · split at hparse
    · cases hparse
    · split_ifs at hparse
      cases hparse

end Runs

/-! ### A frame that is delivered -/

section Delivered

variable {gcm : Aead FailCode lpv35FrameTagSize} {malloc : Nat → Bool} {ap : ApNetcfg}
  {es es' : TlsStream} {xs garbage frame : Bytes} {f : Lpv35Frame} {offset : Nat}

theorem slice_ne_head_of_lt (h : ¬ lpv35FrameHead <:+: garbage) (rest : Bytes) {j : Nat}
    (hj : j < garbage.length) :
    slice (garbage ++ (lpv35FrameHead ++ rest)) j 4 ≠ lpv35FrameHead := by
  intro heq
  by_cases hle : j + 4 ≤ garbage.length
  · rw [slice_append_left hle] at heq
    refine h ?_
    rw [← heq]
    exact (List.take_prefix 4 _).isInfix.trans (List.drop_suffix j garbage).isInfix
  · -- A head that begins in the last three bytes would overlap itself.
    rw [slice, List.drop_append_of_le_length hj.le] at heq
    have hlen : (garbage.drop j).length = garbage.length - j := List.length_drop
    match hdrop : garbage.drop j with
    | [] =>
      rw [hdrop, List.length_nil] at hlen
      omega
    | [a] =>
      rw [hdrop] at heq
      simp [lpv35FrameHead] at heq
    | [a, b] =>
      rw [hdrop] at heq
      simp [lpv35FrameHead] at heq
    | [a, b, c] =>
      rw [hdrop] at heq
      simp [lpv35FrameHead] at heq
    | a :: b :: c :: d :: t =>
      rw [hdrop, List.length_cons, List.length_cons, List.length_cons, List.length_cons] at hlen
      omega

theorem ValidFrame.fields (h : ValidFrame gcm malloc ap frame f) :
    apFrameMiniSize ≤ frame.length ∧ frame.take 4 = lpv35FrameHead ∧
      apFrameLen frame 0 = frame.length := by
  have hmax : apMaxBufsize = 4096 := rfl
  have hle := h.1
  obtain ⟨n, hn, hhead, -, hlen, -⟩ := of_lpv35FrameParse (by omega) h.2
  refine ⟨?_, hhead, ?_⟩
  · rw [hn, apFrameMiniSize]
    omega
  · rw [apFrameLen, Nat.zero_add, hlen, sizeofLpv35AdditionalData, u32_of_lt (by omega)]
    omega

theorem Delivers.found (h : Delivers es garbage frame) (hf : ValidFrame gcm malloc ap frame f)
    (hread : read apMaxBufsize es = (.data xs, es')) :
    FirstHead xs garbage.length ∧ apFrameLen xs garbage.length = frame.length ∧
      garbage.length + frame.length ≤ (arriving retryTls es).length ∧
      slice (arriving retryTls es) garbage.length frame.length = frame := by
  have hmini : apFrameMiniSize = 50 := rfl
  obtain ⟨hfifty, hhead, hlen⟩ := hf.fields
  have hall : arriving retryTls es = xs ++ arriving retryTls es' := arriving_of_read hread
  obtain ⟨rest, hrest⟩ := h.arrives
  obtain ⟨xs₁, es₁, hread₁, hfirst⟩ := h.first
  obtain rfl : xs = xs₁ := Outcome.data.inj (Prod.mk.inj (hread.symm.trans hread₁)).1
  have hslice {off n : Nat} (hle : off + n ≤ xs.length) :
      slice xs off n = slice (garbage ++ (frame ++ rest)) off n := by
    rw [← List.append_assoc, hrest, hall, slice_append_left hle]
  have hinner {off n : Nat} (hle : garbage.length + (off + n) ≤ xs.length)
      (hle' : off + n ≤ frame.length) : slice xs (garbage.length + off) n = slice frame off n := by
    rw [hslice (by omega), slice, List.drop_append, List.drop_of_length_le (Nat.le_add_right _ _),
      List.nil_append, Nat.add_sub_cancel_left]
    exact slice_append_left hle'
  have hat : slice xs garbage.length 4 = lpv35FrameHead := by
    have hzero := @hinner 0 4 (by omega) (by omega)
    rwa [Nat.add_zero, slice_zero, hhead] at hzero
  refine ⟨⟨by omega, hat, fun j hj => ?_⟩, ?_, ?_, ?_⟩
  · have hsplit : frame ++ rest = lpv35FrameHead ++ (frame.drop 4 ++ rest) := by
      rw [← hhead, ← List.append_assoc, List.take_append_drop]
    rw [hslice (by omega), hsplit]
    exact slice_ne_head_of_lt h.noHead _ hj
  · rw [← hlen, apFrameLen, apFrameLen, hinner (by omega) (by omega), Nat.zero_add]
  · rw [← hrest, List.length_append, List.length_append]
    omega
  · rw [← hrest, List.append_assoc, slice, List.drop_left, List.take_left]

theorem FirstHead.delivers (h : FirstHead xs offset)
    (hread : read apMaxBufsize es = (.data xs, es')) (n : Nat) :
    Delivers es (xs.take offset) (slice (arriving retryTls es) offset n) := by
  have hmini : apFrameMiniSize = 50 := rfl
  have hle := h.le
  have hall : arriving retryTls es = xs ++ arriving retryTls es' := arriving_of_read hread
  have htake : (xs.take offset).length = offset := by
    rw [List.length_take]
    omega
  refine ⟨?_, ⟨xs, es', hread, by omega⟩, ?_⟩
  · rintro ⟨s, t, hst⟩
    have hlen := congrArg List.length hst
    rw [List.length_append, List.length_append, htake] at hlen
    refine h.first s.length (by rw [← hlen, lpv35FrameHead]; simp; omega) ?_
    rw [← List.take_append_drop offset xs, ← hst, List.append_assoc, List.append_assoc]
    exact slice_eq_of_append s _ rfl rfl rfl
  · have hfront : xs.take offset = (arriving retryTls es).take offset := by
      rw [hall, List.take_append_of_le_length (by omega)]
    rw [hfront, slice, ← List.take_add]
    exact List.take_prefix _ _

end Delivered

/-! ### When a call does what it ought to -/

section Cond

variable {gcm : Aead FailCode lpv35FrameTagSize} {malloc : Nat → Bool} {ap : ApNetcfg}
  {es es' : TlsStream} {xs : Bytes} {offset : Nat}

theorem length_overwrite_recvBuf (ap : ApNetcfg) (hread : read apMaxBufsize es = (.data xs, es')) :
    (overwrite ap.recvBuf.mem 0 xs).length = apMaxBufsize := by
  have hle := length_of_read hread
  rw [length_overwrite (by rw [ap.recvBuf.length_mem]; omega), ap.recvBuf.length_mem]

theorem RecvOk.cond (h : RecvOk gcm malloc ap es) : RecvCond gcm malloc ap es := by
  intro xs es' hread hlen
  by_cases hhead : ∃ offset, FirstHead xs offset
  · obtain ⟨offset, hoff⟩ := hhead
    have hle := hoff.le
    refine ⟨offset, hoff, fun hmax => ?_⟩
    have hall : arriving retryTls es = xs ++ arriving retryTls es' := arriving_of_read hread
    have harrives : offset + apFrameLen xs offset ≤ (arriving retryTls es).length := by
      by_contra hshort
      have hlong : xs.length - offset < apFrameLen xs offset := by
        rw [hall, List.length_append] at hshort
        omega
      obtain ⟨recvBuf, hrecv⟩ := @exists_apFrameRecv_eq_closed gcm malloc ap es es' xs offset
        hread hoff hlong hmax (Nat.lt_of_not_le hshort)
      exact h.filled _ hrecv rfl rfl
    refine ⟨harrives, fun hlong f hf => ?_⟩
    obtain ⟨r, g, hrecv, hret, hout, hfields⟩ :=
      h.delivered _ _ f (hoff.delivers hread (apFrameLen xs offset)) hf
    rw [apFrameRecv_eq_again hread hoff hlong hmax harrives] at hrecv
    have hparse := apFrameParse_of_apFrameDone hrecv
    rw [hret, hout] at hparse
    exact ⟨g, hparse, hfields⟩
  · exact absurd rfl (h.filled _ (apFrameRecv_eq_unfilled hread hlen fun offset hoff =>
      hhead ⟨offset, hoff⟩) rfl)

theorem RecvCond.delivered (h : RecvCond gcm malloc ap es) {garbage frame : Bytes} {f : Lpv35Frame}
    (hd : Delivers es garbage frame) (hf : ValidFrame gcm malloc ap frame f) :
    ∃ r g, apFrameRecv gcm malloc ap es = .ok r ∧ r.ret = oprtOk ∧ r.out = some g ∧
      g.type = f.type ∧ g.data = f.data := by
  obtain ⟨xs, es', hread, hfirst⟩ := hd.first
  obtain ⟨hoff, hlen, harrives, hframe⟩ := hd.found hf hread
  obtain ⟨offset, hoff', hcond⟩ := h xs es' hread (by omega)
  obtain rfl := hoff.unique hoff'
  rw [hlen] at hcond
  have hcond := hcond hf.1
  by_cases hlong : xs.length - garbage.length < frame.length
  · have hagain := hcond.again (by rw [hlen]; exact hlong) f (by rw [hlen, hframe]; exact hf)
    obtain ⟨g, hparse, hfields⟩ := hagain
    obtain ⟨r, hdone, hret, hout⟩ := exists_apFrameDone_eq garbage.length hparse
    refine ⟨r, g, ?_, hret, hout, hfields⟩
    rw [apFrameRecv_eq_again hread hoff (by rw [hlen]; exact hlong) (by rw [hlen]; exact hf.1)
      hcond.arrives, hdone]
  · have hall : arriving retryTls es = xs ++ arriving retryTls es' := arriving_of_read hread
    have hle := hoff.le
    have hmini : apFrameMiniSize = 50 := rfl
    have hspan : readSpan (overwrite ap.recvBuf.mem 0 xs) garbage.length frame.length =
        some frame := by
      have hmem := length_overwrite_recvBuf ap hread
      have hxs := length_of_read hread
      rw [readSpan_of_le (by omega), slice_overwrite_zero _ (by omega)]
      rw [hall, slice_append_left (by omega)] at hframe
      rw [hframe]
    have hparse : apFrameParse gcm malloc ap (overwrite ap.recvBuf.mem 0 xs) garbage.length
        frame.length = .ok (oprtOk, some f) := by
      rw [apFrameParse, hspan]
      exact hf.2
    obtain ⟨r, hdone, hret, hout⟩ := exists_apFrameDone_eq garbage.length hparse
    refine ⟨r, f, ?_, hret, hout, rfl, rfl⟩
    rw [apFrameRecv_eq_whole hread hoff (by omega), hlen, hdone]

theorem RecvCond.filled (h : RecvCond gcm malloc ap es) {r : ApFrameRecv}
    (hr : apFrameRecv gcm malloc ap es = .ok r) (hret : r.ret = oprtOk) : r.out ≠ none := by
  have herr {rt : OperateRet} {closed : Bool} {mem : Bytes} (hne : rt ≠ oprtOk)
      (heq : (.ok ⟨rt, none, none, closed, mem⟩ : Except FrameFault ApFrameRecv) = .ok r) :
      r.out ≠ none := by
    obtain rfl := Except.ok.inj heq
    exact absurd hret hne
  match hread : read apMaxBufsize es with
  | (.status _, _) =>
    rw [apFrameRecv, hread] at hr
    exact herr (by decide) hr
  | (.closed, _) =>
    rw [apFrameRecv, hread] at hr
    exact herr (by decide) hr
  | (.data xs, es') =>
    by_cases hlen : xs.length < apFrameMiniSize
    · rw [apFrameRecv, hread] at hr
      dsimp only at hr
      rw [if_pos hlen] at hr
      exact herr (by decide) hr
    obtain ⟨offset, hoff, hcond⟩ := h xs es' hread (Nat.not_lt.mp hlen)
    have hmem := length_overwrite_recvBuf ap hread
    have hmax : apMaxBufsize = 4096 := rfl
    by_cases hlong : xs.length - offset < apFrameLen xs offset
    · by_cases hle : apFrameLen xs offset ≤ apMaxBufsize
      · rw [apFrameRecv_eq_again hread hoff hlong hle (hcond hle).arrives] at hr
        refine out_ne_none_of_apFrameDone ?_ hr hret
        have hframe := length_slice (hcond hle).arrives
        rw [List.length_append, List.length_drop, hframe]
        omega
      · rw [apFrameRecv_eq_notEnough hread hoff hlong (Nat.lt_of_not_le hle)] at hr
        exact herr (by decide) hr
    · rw [apFrameRecv_eq_whole hread hoff (Nat.not_lt.mp hlong)] at hr
      exact out_ne_none_of_apFrameDone (by omega) hr hret

/-- **When a call does what it ought to.** -/
theorem recvOk_iff (gcm : Aead FailCode lpv35FrameTagSize) (malloc : Nat → Bool) (ap : ApNetcfg)
    (es : TlsStream) : RecvOk gcm malloc ap es ↔ RecvCond gcm malloc ap es :=
  ⟨RecvOk.cond, fun h => ⟨fun _ _ _ hd hf => h.delivered hd hf, fun _ hr hret => h.filled hr hret⟩⟩

theorem length_sampleKey : ((List.range 16).map UInt8.ofNat).length = 16 := rfl

/-- The key of `sampleGcm`, and a buffer that has been cleared. -/
def sampleAp : ApNetcfg where
  recvBuf := .zero apMaxBufsize
  appKey := ⟨(List.range 16).map UInt8.ofNat, length_sampleKey⟩

/-- The frame of `sampleFrame`. -/
def sampleFrameBytes : Bytes :=
  lpv35FrameBytes sampleFrame.toLpv35Frame (List.replicate 12 7) [0xea, 0x31]
    [0x4f, 0xc8, 0x72, 0x0c, 0x7a, 0xb8, 0x80, 0x2b, 0x99, 0x98, 0x0d, 0x80, 0xfc, 0x14, 0x79, 0x17]

def splitStream : TlsStream :=
  [.chunk 0x00 (slice sampleFrameBytes 1 49), .chunk 0x99 [0x66]]

/-- A frame that arrives in two parts is not returned. -/
theorem not_recvOk : ¬ RecvOk sampleGcm (fun _ => true) sampleAp splitStream := by
  intro h
  have hvalid : ValidFrame sampleGcm (fun _ => true) sampleAp sampleFrameBytes
      sampleFrame.toLpv35Frame :=
    ⟨by decide, lpv35FrameParse_serialize (by decide) rfl rfl rfl⟩
  have hdelivers : Delivers splitStream [] sampleFrameBytes :=
    ⟨by decide, ⟨_, _, rfl, by decide⟩, by decide⟩
  obtain ⟨r, g, hrecv, hret, -⟩ := h.delivered _ _ _ hdelivers hvalid
  have herr : (apFrameRecv sampleGcm (fun _ => true) sampleAp splitStream).map (·.ret) =
      .ok oprtVersionFmtErr := by
    decide +kernel
  rw [hrecv] at herr
  have hret' : r.ret = oprtVersionFmtErr := Except.ok.inj herr
  rw [hret] at hret'
  cases hret'

end Cond

end TuyaOpen.Netcfg
