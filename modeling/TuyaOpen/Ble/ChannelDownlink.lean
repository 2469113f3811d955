import TuyaOpen.Basic.Transition
import TuyaOpen.Ble.Channel

/-!
# Reassembly in the transparent channel

Downlink subpackets are copied one behind the other into a buffer of the length that the first one
declares. The lengths are not compared with that buffer, and the numbers are only sent back.

## Main results

* `copySubpacket_of_le`: a subpacket in the buffer.
* `reassembles_iff`: one request.
* `reassembly_iff`: the runs in which every request is handled in that way.
-/

namespace TuyaOpen.Ble

/-! ### Runs -/

abbrev Arrived := List (Nat × Bytes)

def Arrived.data (arrived : Arrived) : Bytes := (arrived.map Prod.snd).flatten

def Arrived.InOrder (arrived : Arrived) : Prop :=
  arrived.map Prod.fst = List.range arrived.length

/-- The arrivals when `raw` has come. -/
def arrive (arrived : Arrived) (raw : Bytes) : Arrived :=
  match readSubpacket raw with
  | none => arrived
  | some r => if raw.getD 2 0 = 0 then [r] else arrived ++ [r]

structure Downlink where
  malloc : ChannelMalloc
  req : BlePacket
  isDownlink : IsDownlink req.type

/-- The static data and the arrivals behind a request. Nothing is said behind a fault. -/
def Downlink.next (s : BleChannel × Arrived) (ev : Downlink) : BleChannel × Arrived :=
  match bleSessionChannelProcess ev.malloc s.1 ev.req with
  | .error _ => s
  | .ok r => (r.2, arrive s.2 ev.req.data)

def IsSubpacket (raw : Bytes) : Prop := raw.getD 1 0 &&& 2 ≠ 0

/-- A request is handled without a fault, at most `totalLen` bytes have been received, and if
`ble_channel_process` gets the buffer, then its first `totalLen` bytes are the data of the
subpackets 0, 1, 2 and so on, each of which has arrived once. -/
def Reassembles (s : BleChannel × Arrived) (ev : Downlink) : Prop :=
  ∃ out ch, bleSessionChannelProcess ev.malloc s.1 ev.req = .ok (out, ch) ∧
    ch.recv.receivedLen ≤ ch.recv.totalLen ∧
    (IsSubpacket ev.req.data → ∀ buffer, out.processed = some buffer →
      readSpan buffer 0 ch.recv.totalLen = some (arrive s.2 ev.req.data).data ∧
        (arrive s.2 ev.req.data).InOrder)

/-- The first subpacket declares a length, and has a version byte and at most that much data if
there is memory for the buffer. -/
def FirstFits (malloc : ChannelMalloc) (raw : Bytes) : Prop :=
  ∃ total rest, extractPacketLen raw = some (total, rest) ∧
    (malloc.pBuffer → ∃ version data, rest = version :: data ∧ data.length ≤ total)

/-- If there is a buffer, then a subsequent subpacket has a number and fits into the rest of the
buffer; and if it completes the data, then the numbers are complete. -/
def LaterFits (s : BleChannel × Arrived) (malloc : ChannelMalloc) (raw : Bytes) : Prop :=
  s.1.recv.pBuffer ≠ none → ∃ no data, extractPacketLen raw = some (no, data) ∧
    s.1.recv.receivedLen + data.length ≤ s.1.recv.totalLen ∧
    (s.1.recv.receivedLen + data.length = s.1.recv.totalLen → malloc.pAck →
      Arrived.InOrder (s.2 ++ [(no, data)]))

/-- The request has a flag; and if it is a subpacket, it has a number and fits. -/
def SubpacketFits (s : BleChannel × Arrived) (ev : Downlink) : Prop :=
  2 ≤ ev.req.data.length ∧
    (IsSubpacket ev.req.data → 3 ≤ ev.req.data.length ∧
      if ev.req.data.getD 2 0 = 0 then FirstFits ev.malloc (ev.req.data.drop 3)
      else LaterFits s ev.malloc (ev.req.data.drop 2))

/-! ### The buffer -/

/-- The buffer has the length `totalLen` and starts with the data that has arrived. -/
structure Filled (totalLen receivedLen : Nat) (buffer : Bytes) (arrived : Arrived) : Prop where
  length_buffer : buffer.length = totalLen
  length_data : arrived.data.length = receivedLen
  take_buffer : buffer.take receivedLen = arrived.data

structure Reassembling (recv : ChannelRecv) (arrived : Arrived) : Prop where
  received_le : recv.receivedLen ≤ recv.totalLen
  total_lt : recv.totalLen < 268435456
  filled : ∀ buffer, recv.pBuffer = some buffer →
    Filled recv.totalLen recv.receivedLen buffer arrived

section Buffer

variable {recv : ChannelRecv} {buffer data raw : Bytes} {arrived : Arrived} {no : Nat}
  {malloc : ChannelMalloc} {req : BlePacket}

theorem Arrived.data_append_singleton (arrived : Arrived) (no : Nat) (data : Bytes) :
    Arrived.data (arrived ++ [(no, data)]) = arrived.data ++ data := by
  simp [Arrived.data]

theorem total_lt_of_extractPacketLen {n : Nat} {rest : Bytes}
    (h : extractPacketLen raw = some (n, rest)) : n < 268435456 := by
  obtain ⟨-, -, -, hlt⟩ := Varint.exists_of_decode h
  exact hlt

theorem copySubpacket_of_le (h : Filled recv.totalLen recv.receivedLen buffer arrived)
    (htotal : recv.totalLen < 268435456)
    (hle : recv.receivedLen + data.length ≤ recv.totalLen) :
    ∃ buffer', copySubpacket recv buffer no data =
        .ok (some (no, data.length), { recv with
          receivedLen := recv.receivedLen + data.length, pBuffer := some buffer' }) ∧
      Filled recv.totalLen (recv.receivedLen + data.length) buffer' (arrived ++ [(no, data)]) := by
  have hcopy := memcpy_of_le (hle.trans_eq h.length_buffer.symm)
  refine ⟨_, ?_, ⟨(length_of_memcpy hcopy).trans h.length_buffer, ?_, ?_⟩⟩
  · rw [copySubpacket, hcopy, u32_of_lt (by omega)]
  · rw [Arrived.data_append_singleton, List.length_append, h.length_data]
  · rw [take_memcpy hcopy, h.take_buffer, Arrived.data_append_singleton]

theorem copySubpacket_of_lt (h : Filled recv.totalLen recv.receivedLen buffer arrived)
    (hlt : recv.totalLen < recv.receivedLen + data.length) :
    copySubpacket recv buffer no data = .error .pBuffer := by
  rw [copySubpacket, memcpy_eq_none (by rw [h.length_buffer]; exact hlt)]

theorem ackSubpacket_spec (malloc : ChannelMalloc) (req : BlePacket) (no len : Nat)
    (hbuffer : recv.pBuffer = some buffer) (hle : recv.receivedLen ≤ recv.totalLen) :
    ∃ out recv', ackSubpacket malloc req no len recv = (out, recv') ∧
      recv'.totalLen = recv.totalLen ∧ recv'.receivedLen = recv.receivedLen ∧
      (recv'.pBuffer = none ∨ recv'.pBuffer = some buffer) ∧
      ∀ b, out.processed = some b ↔
        b = buffer ∧ recv.receivedLen = recv.totalLen ∧ malloc.pAck := by
  unfold ackSubpacket
  cases malloc.pAck with
  | false =>
    exact ⟨_, _, rfl, rfl, rfl, .inl rfl, fun b => iff_of_false nofun fun h => nomatch h.2.2⟩
  | true =>
    simp only [not_true_eq_false, if_false]
    by_cases hlt : recv.receivedLen < recv.totalLen
    · rw [if_pos hlt]
      refine ⟨_, _, rfl, rfl, rfl, .inr hbuffer, fun b => iff_of_false nofun ?_⟩
      rintro ⟨-, heq, -⟩
      exact Nat.ne_of_lt hlt heq
    · rw [if_neg hlt]
      refine ⟨_, _, rfl, rfl, rfl, .inr hbuffer, fun b => ?_⟩
      dsimp only
      rw [hbuffer, Option.some.injEq, eq_comm]
      exact ⟨fun h => ⟨h, Nat.le_antisymm hle (Nat.not_lt.mp hlt), trivial⟩, fun h => h.1⟩

theorem finishSubpacket_of_le (malloc : ChannelMalloc) (req : BlePacket) (no : Nat)
    (h : Filled recv.totalLen recv.receivedLen buffer arrived)
    (htotal : recv.totalLen < 268435456)
    (hle : recv.receivedLen + data.length ≤ recv.totalLen) :
    ∃ out recv', finishSubpacket malloc req (copySubpacket recv buffer no data) =
        .ok (out, recv') ∧
      Reassembling recv' (arrived ++ [(no, data)]) ∧
      (∀ b, out.processed = some b →
        readSpan b 0 recv'.totalLen = some (Arrived.data (arrived ++ [(no, data)])) ∧
          recv.receivedLen + data.length = recv.totalLen ∧ malloc.pAck) ∧
      (recv.receivedLen + data.length = recv.totalLen → malloc.pAck →
        ∃ b, out.processed = some b) := by
  obtain ⟨buffer', hcopy, hfilled⟩ := @copySubpacket_of_le recv buffer data arrived no h htotal hle
  obtain ⟨out, recv', hout, htot, hrec, hbuf, hproc⟩ := @ackSubpacket_spec
    { recv with receivedLen := recv.receivedLen + data.length, pBuffer := some buffer' } buffer'
    malloc req no data.length rfl hle
  dsimp only at htot hrec hproc
  refine ⟨out, recv', ?_, ⟨?_, ?_, fun b hb => ?_⟩, fun b hb => ?_, fun heq hack => ?_⟩
  · rw [hcopy, finishSubpacket, hout]
  · rw [htot, hrec]
    exact hle
  · rw [htot]
    exact htotal
  · rw [htot, hrec]
    rcases hbuf with hnone | hsome
    · rw [hnone] at hb
      cases hb
    · rw [hsome] at hb
      rw [← Option.some.inj hb]
      exact hfilled
  · obtain ⟨rfl, heq, hack⟩ := (hproc b).mp hb
    refine ⟨?_, heq, hack⟩
    rw [htot, readSpan_of_le (by rw [hfilled.length_buffer, Nat.zero_add]), slice_zero, ← heq,
      hfilled.take_buffer]
  · exact ⟨buffer', (hproc buffer').mpr ⟨rfl, heq, hack⟩⟩

theorem filled_replicate (total : Nat) : Filled total 0 (List.replicate total 0) [] :=
  ⟨List.length_replicate, rfl, rfl⟩

end Buffer

/-! ### One request -/

section Step

variable {s : BleChannel × Arrived} {ev : Downlink}

/-- A subpacket has been handled inside the buffer, and complete data is that of the arrivals. -/
def RecvRight (r : Except ChannelFault (ChannelOut × ChannelRecv)) (arrived : Arrived) : Prop :=
  ∃ out recv, r = .ok (out, recv) ∧ recv.receivedLen ≤ recv.totalLen ∧
    ∀ b, out.processed = some b → readSpan b 0 recv.totalLen = some arrived.data ∧ arrived.InOrder

theorem finishSubpacket_copy {recv : ChannelRecv} {buffer : Bytes} {arrived : Arrived}
    (malloc : ChannelMalloc) (req : BlePacket) (no : Nat) (data : Bytes)
    (h : Filled recv.totalLen recv.receivedLen buffer arrived)
    (htotal : recv.totalLen < 268435456) :
    let r := finishSubpacket malloc req (copySubpacket recv buffer no data)
    (RecvRight r (arrived ++ [(no, data)]) ↔
      recv.receivedLen + data.length ≤ recv.totalLen ∧
        (recv.receivedLen + data.length = recv.totalLen → malloc.pAck →
          Arrived.InOrder (arrived ++ [(no, data)]))) ∧
      ∀ out recv', r = .ok (out, recv') → Reassembling recv' (arrived ++ [(no, data)]) := by
  intro r
  by_cases hle : recv.receivedLen + data.length ≤ recv.totalLen
  · obtain ⟨out, recv', hr, hinv, hout, hsome⟩ :=
      finishSubpacket_of_le malloc req no h htotal hle
    have hr' : r = .ok (out, recv') := hr
    refine ⟨⟨?_, ?_⟩, ?_⟩
    · rintro ⟨out', recv'', hok, -, hright⟩
      rw [hr'] at hok
      obtain ⟨rfl, rfl⟩ := Prod.mk.inj (Except.ok.inj hok)
      refine ⟨hle, fun heq hack => ?_⟩
      obtain ⟨b, hb⟩ := hsome heq hack
      exact (hright b hb).2
    · rintro ⟨-, horder⟩
      refine ⟨out, recv', hr', hinv.received_le, fun b hb => ?_⟩
      obtain ⟨hread, heq, hack⟩ := hout b hb
      exact ⟨hread, horder heq hack⟩
    · intro out' recv'' hok
      rw [hr'] at hok
      obtain ⟨-, rfl⟩ := Prod.mk.inj (Except.ok.inj hok)
      exact hinv
  · have hr : r = .error .pBuffer := by
      show finishSubpacket malloc req (copySubpacket recv buffer no data) = _
      rw [copySubpacket_of_lt h (Nat.lt_of_not_le hle)]
      rfl
    refine ⟨iff_of_false ?_ fun hc => hle hc.1, ?_⟩
    · rintro ⟨out, recv', hok, -⟩
      rw [hr] at hok
      cases hok
    · intro out recv' hok
      rw [hr] at hok
      cases hok

theorem recvRight_none {recv : ChannelRecv} {arrived : Arrived}
    (h : recv.receivedLen ≤ recv.totalLen) : RecvRight (.ok (⟨[], none⟩, recv)) arrived :=
  ⟨_, _, rfl, h, nofun⟩

theorem not_recvRight_error {f : ChannelFault} {arrived : Arrived} :
    ¬RecvRight (.error f) arrived := by
  rintro ⟨out, recv, hok, -⟩
  cases hok

theorem firstSubpacket_spec (malloc : ChannelMalloc) (req : BlePacket) {rest : Bytes}
    {arrived : Arrived} (harrived : ∀ total version data,
      extractPacketLen rest = some (total, version :: data) → arrived = [(0, data)]) :
    let r := finishSubpacket malloc req (firstSubpacket malloc rest)
    (RecvRight r arrived ↔ FirstFits malloc rest) ∧
      ∀ out recv', r = .ok (out, recv') → Reassembling recv' arrived := by
  intro r
  cases hlen : extractPacketLen rest with
  | none =>
    have hr : r = .error .rawData := by
      show finishSubpacket malloc req (firstSubpacket malloc rest) = _
      rw [firstSubpacket, hlen]
      rfl
    rw [hr]
    refine ⟨iff_of_false not_recvRight_error ?_, nofun⟩
    rintro ⟨total, more, hsome, -⟩
    rw [hlen] at hsome
    cases hsome
  | some p =>
    obtain ⟨total, more⟩ := p
    have htotal := total_lt_of_extractPacketLen hlen
    cases hbuf : malloc.pBuffer with
    | false =>
      have hr : r = .ok (⟨[], none⟩, ⟨total, 0, none⟩) := by
        show finishSubpacket malloc req (firstSubpacket malloc rest) = _
        simp [firstSubpacket, hlen, hbuf, finishSubpacket]
      rw [hr]
      refine ⟨iff_of_true (recvRight_none (Nat.zero_le _)) ⟨total, more, hlen, ?_⟩, ?_⟩
      · rw [hbuf]
        exact fun h => nomatch h
      · intro out recv' hok
        obtain ⟨-, rfl⟩ := Prod.mk.inj (Except.ok.inj hok)
        exact ⟨Nat.zero_le _, htotal, nofun⟩
    | true =>
      cases more with
      | nil =>
        have hr : r = .error .pBuffer := by
          show finishSubpacket malloc req (firstSubpacket malloc rest) = _
          simp [firstSubpacket, hlen, hbuf, finishSubpacket]
        rw [hr]
        refine ⟨iff_of_false not_recvRight_error ?_, nofun⟩
        rintro ⟨total', more', hsome, hdata⟩
        rw [hlen] at hsome
        obtain ⟨-, rfl⟩ := Prod.mk.inj (Option.some.inj hsome)
        obtain ⟨version, data, hnil, -⟩ := hdata hbuf
        cases hnil
      | cons version data =>
        have hr : r = finishSubpacket malloc req
            (copySubpacket ⟨total, 0, none⟩ (List.replicate total 0) 0 data) := by
          show finishSubpacket malloc req (firstSubpacket malloc rest) = _
          simp [firstSubpacket, hlen, hbuf]
        obtain ⟨hiff, hinv⟩ := @finishSubpacket_copy ⟨total, 0, none⟩ _ [] malloc req 0 data
          (filled_replicate total) htotal
        rw [hr, harrived total version data hlen]
        refine ⟨hiff.trans ⟨fun h => ⟨total, version :: data, hlen, fun _ => ?_⟩, ?_⟩, hinv⟩
        · exact ⟨version, data, rfl, by simpa using h.1⟩
        · rintro ⟨total', more', hsome, hdata⟩
          rw [hlen] at hsome
          obtain ⟨rfl, rfl⟩ := Prod.mk.inj (Option.some.inj hsome)
          obtain ⟨version', data', hcons, hle⟩ := hdata hbuf
          obtain ⟨-, rfl⟩ := List.cons.inj hcons
          exact ⟨by simpa using hle, fun _ _ => rfl⟩

theorem laterSubpacket_spec (malloc : ChannelMalloc) (req : BlePacket) {raw : Bytes}
    {arrived : Arrived} (hs : Reassembling s.1.recv s.2) (harrived : ∀ no data,
      extractPacketLen raw = some (no, data) → arrived = s.2 ++ [(no, data)]) :
    let r := finishSubpacket malloc req (laterSubpacket s.1.recv raw)
    (RecvRight r arrived ↔ LaterFits s malloc raw) ∧
      ∀ out recv', r = .ok (out, recv') → Reassembling recv' arrived := by
  intro r
  cases hbuf : s.1.recv.pBuffer with
  | none =>
    have hr : r = .ok (⟨[], none⟩, s.1.recv) := by
      show finishSubpacket malloc req (laterSubpacket s.1.recv raw) = _
      rw [laterSubpacket, hbuf]
      rfl
    rw [hr]
    refine ⟨iff_of_true (recvRight_none hs.received_le) fun h => absurd hbuf h, ?_⟩
    intro out recv' hok
    obtain ⟨-, rfl⟩ := Prod.mk.inj (Except.ok.inj hok)
    exact ⟨hs.received_le, hs.total_lt, fun b hb => by rw [hbuf] at hb; cases hb⟩
  | some buffer =>
    have hsome : s.1.recv.pBuffer ≠ none := by
      rw [hbuf]
      exact Option.some_ne_none buffer
    cases hlen : extractPacketLen raw with
    | none =>
      have hr : r = .error .rawData := by
        show finishSubpacket malloc req (laterSubpacket s.1.recv raw) = _
        rw [laterSubpacket, hbuf, hlen]
        rfl
      rw [hr]
      refine ⟨iff_of_false not_recvRight_error fun h => ?_, nofun⟩
      obtain ⟨no, data, hread, -⟩ := h hsome
      rw [hlen] at hread
      cases hread
    | some p =>
      obtain ⟨no, data⟩ := p
      have hr : r = finishSubpacket malloc req (copySubpacket s.1.recv buffer no data) := by
        show finishSubpacket malloc req (laterSubpacket s.1.recv raw) = _
        rw [laterSubpacket, hbuf, hlen]
      obtain ⟨hiff, hinv⟩ :=
        finishSubpacket_copy malloc req no data (hs.filled buffer hbuf) hs.total_lt
      rw [hr, harrived no data hlen]
      refine ⟨hiff.trans ⟨fun h _ => ⟨no, data, hlen, h⟩, fun h => ?_⟩, hinv⟩
      obtain ⟨no', data', hread, hfits⟩ := h hsome
      rw [hlen] at hread
      obtain ⟨rfl, rfl⟩ := Prod.mk.inj (Option.some.inj hread)
      exact hfits

theorem arrive_of_not_isSubpacket {arrived : Arrived} {raw : Bytes} (h : ¬IsSubpacket raw) :
    arrive arrived raw = arrived := by
  have hflag : raw.getD 1 0 &&& 2 = 0 := not_not.mp h
  match raw with
  | [] | [_] | [_, _] => rfl
  | _ :: flags :: no :: rest =>
    have hread (f : UInt8) : readSubpacket (f :: flags :: no :: rest) = none := if_pos hflag
    rw [arrive, hread]

theorem arrive_first {arrived : Arrived} {f flags version : UInt8} {rest data : Bytes}
    {total : Nat} (hflag : ¬flags &&& 2 = 0)
    (h : extractPacketLen rest = some (total, version :: data)) :
    arrive arrived (f :: flags :: 0 :: rest) = [(0, data)] := by
  have hread : readSubpacket (f :: flags :: 0 :: rest) = some (0, data) := by
    simp only [readSubpacket, if_neg hflag, if_true, h]
  rw [arrive, hread]
  rfl

theorem arrive_later {arrived : Arrived} {f flags no : UInt8} {rest data : Bytes} {n : Nat}
    (hflag : ¬flags &&& 2 = 0) (hno : ¬no = 0)
    (h : extractPacketLen (no :: rest) = some (n, data)) :
    arrive arrived (f :: flags :: no :: rest) = arrived ++ [(n, data)] := by
  have hread : readSubpacket (f :: flags :: no :: rest) = some (n, data) := by
    simp only [readSubpacket, if_neg hflag, if_neg hno, h]
  rw [arrive, hread]
  exact if_neg hno

/-- What `Reassembles` says, of the receiving direction. -/
def DownlinkRight (r : Except ChannelFault (ChannelOut × ChannelRecv)) (arrived : Arrived)
    (raw : Bytes) : Prop :=
  ∃ out recv, r = .ok (out, recv) ∧ recv.receivedLen ≤ recv.totalLen ∧
    (IsSubpacket raw → ∀ b, out.processed = some b →
      readSpan b 0 recv.totalLen = some arrived.data ∧ arrived.InOrder)

theorem downlinkRight_iff {r : Except ChannelFault (ChannelOut × ChannelRecv)} {arrived : Arrived}
    {raw : Bytes} (h : IsSubpacket raw) : DownlinkRight r arrived raw ↔ RecvRight r arrived := by
  simp only [DownlinkRight, RecvRight, h, true_implies]

theorem downlinkProcess_spec (hs : Reassembling s.1.recv s.2) :
    let r := downlinkProcess ev.malloc s.1.recv ev.req
    (DownlinkRight r (arrive s.2 ev.req.data) ev.req.data ↔ SubpacketFits s ev) ∧
      ∀ out recv', r = .ok (out, recv') → Reassembling recv' (arrive s.2 ev.req.data) := by
  intro r
  have hr : r = downlinkProcess ev.malloc s.1.recv ev.req := rfl
  clear_value r
  rw [downlinkProcess] at hr
  rw [SubpacketFits]
  match hdata : ev.req.data with
  | [] | [_] =>
    rw [hdata] at hr
    dsimp only at hr
    rw [hr]
    refine ⟨iff_of_false ?_ fun h => Nat.not_succ_le_self _ (h.1.trans (by simp)), nofun⟩
    rintro ⟨out, recv, hok, -⟩
    cases hok
  | f :: flags :: body =>
    rw [hdata] at hr
    dsimp only at hr
    by_cases hflag : flags &&& 2 = 0
    · have hsub : ¬IsSubpacket (f :: flags :: body) := fun h => h hflag
      rw [if_pos hflag] at hr
      rw [hr, arrive_of_not_isSubpacket hsub]
      refine ⟨iff_of_true ⟨_, _, rfl, hs.received_le, fun h => absurd h hsub⟩
        ⟨by simp, fun h => absurd h hsub⟩, ?_⟩
      intro out recv' hok
      obtain ⟨-, rfl⟩ := Prod.mk.inj (Except.ok.inj hok)
      exact hs
    · have hsub : IsSubpacket (f :: flags :: body) := hflag
      rw [if_neg hflag] at hr
      rw [downlinkRight_iff hsub]
      match body, hr with
      | [], hr =>
        rw [hr]
        exact ⟨iff_of_false not_recvRight_error fun h => absurd (h.2 hsub).1 (by simp), nofun⟩
      | no :: rest, hr =>
        have hlen : 3 ≤ (f :: flags :: no :: rest).length := by simp
        have hfits (P : Prop) :
            P ↔ 2 ≤ (f :: flags :: no :: rest).length ∧
              (IsSubpacket (f :: flags :: no :: rest) →
                3 ≤ (f :: flags :: no :: rest).length ∧ P) :=
          ⟨fun h => ⟨by simp, fun _ => ⟨hlen, h⟩⟩, fun h => (h.2 hsub).2⟩
        dsimp only at hr
        by_cases hno : no = 0
        · subst hno
          rw [if_pos rfl] at hr
          obtain ⟨hiff, hinv⟩ := @firstSubpacket_spec ev.malloc ev.req rest
            (arrive s.2 (f :: flags :: 0 :: rest))
            fun total version data h => arrive_first hflag h
          rw [hr]
          exact ⟨hiff.trans (hfits _), hinv⟩
        · rw [if_neg hno] at hr
          obtain ⟨hiff, hinv⟩ := @laterSubpacket_spec s ev.malloc ev.req (no :: rest)
            (arrive s.2 (f :: flags :: no :: rest)) hs fun n data h => arrive_later hflag hno h
          rw [hr]
          refine ⟨hiff.trans ((hfits _).trans ?_), hinv⟩
          simp only [List.getD_cons_succ, List.getD_cons_zero, if_neg hno, List.drop_succ_cons,
            List.drop_zero]

/-- **One request** is handled rightly just when it fits. -/
theorem reassembles_iff (hs : Reassembling s.1.recv s.2) :
    Reassembles s ev ↔ SubpacketFits s ev := by
  rw [← (downlinkProcess_spec hs).1, Reassembles, bleSessionChannelProcess, if_pos ev.isDownlink]
  constructor
  · rintro ⟨out, ch, hok, hle, hout⟩
    cases hr : downlinkProcess ev.malloc s.1.recv ev.req with
    | error f =>
      rw [hr] at hok
      cases hok
    | ok r =>
      rw [hr] at hok
      obtain ⟨rfl, rfl⟩ := Prod.mk.inj (Except.ok.inj hok)
      exact ⟨r.1, r.2, rfl, hle, hout⟩
  · rintro ⟨out, recv, hok, hle, hout⟩
    rw [hok]
    exact ⟨out, { s.1 with recv := recv }, rfl, hle, hout⟩

theorem reassembling_next (hs : Reassembling s.1.recv s.2) :
    Reassembling (ev.next s).1.recv (ev.next s).2 := by
  obtain ⟨-, hinv⟩ := @downlinkProcess_spec s ev hs
  rw [Downlink.next, bleSessionChannelProcess, if_pos ev.isDownlink]
  cases hr : downlinkProcess ev.malloc s.1.recv ev.req with
  | error f => exact hs
  | ok r => exact hinv r.1 r.2 hr

end Step

/-- **Reassembly** is bounded and exact in the runs in which every subpacket fits. -/
theorem reassembly_iff (evs : List Downlink) :
    Guarded Downlink.next Reassembles (BleChannel.init, []) evs ↔
      Guarded Downlink.next SubpacketFits (BleChannel.init, []) evs :=
  @guarded_iff_of_invariant _ _ Downlink.next SubpacketFits Reassembles
    (fun s => Reassembling s.1.recv s.2) (fun _ _ hs => reassembles_iff hs)
    (fun _ _ hs _ => reassembling_next hs) _ evs ⟨Nat.le_refl 0, by decide, nofun⟩

def overlongDownlink : Downlink where
  malloc := ⟨true, true, true⟩
  req := ⟨1, frmDownlinkTransparentReq, [0, 2, 0, 1, 0x40, 7, 8], 0, by decide⟩
  isDownlink := .inl rfl

/-- The second byte is written behind the end of the buffer. -/
theorem not_reassembles_overlong :
    ¬∀ evs, Guarded Downlink.next Reassembles (BleChannel.init, []) evs := by
  intro h
  obtain ⟨⟨out, ch, hok, -⟩, -⟩ := h [overlongDownlink]
  have hfault : bleSessionChannelProcess overlongDownlink.malloc BleChannel.init
      overlongDownlink.req = .error .pBuffer := rfl
  cases hfault.symm.trans hok

end TuyaOpen.Ble
