import TuyaOpen.AiProtocol.Receive
import TuyaOpen.AiProtocol.Send

/-!
# Sequence numbers

The writer numbers its packets by `sequence_out`, the reader compares with `sequence_in`. The two
wrap differently: `__ai_packet_write` starts again at 1 *instead of* using `0xFFFF`, whereas
`tuya_ai_basic_pkt_read` goes back to 0 only *after* it has received `0xFFFF`. So the reader is
still at `0xFFFE` when the writer comes back to 1.

## Main results

* `sequenceOut_of_aiPacketWrite`, `sequences_of_writeRun`: the calls assign these numbers.
* `recvBody_of_sequence_le`: the reader applies this rule.
* `sequencesAccepted_assigned_iff`: the first 65534 packets are accepted and the next is not.
-/

namespace TuyaOpen.AiProtocol

/-! ### The writer -/

/-- The numbers that `n` consecutive calls of `__ai_packet_write` assign. -/
def assignedSequences : Nat → Nat → List Nat
  | 0, _ => []
  | n + 1, sequenceOut => nextSequence sequenceOut :: assignedSequences n (nextSequence sequenceOut + 1)

section Writer

variable {env : AiEnv} {p p' : AiBasicProto} {info : AiSendPacket} {data ct : Bytes}
  {frag : AiFragFlag} {originLen size : Nat} {r : AiSendResult}

theorem aiEncryptPacket_sequenceOut (h : aiEncryptPacket env p info.type data = .ok (ct, p')) :
    p'.sequenceOut = p.sequenceOut := by
  obtain ⟨iv, rfl⟩ := aiEncryptPacket_frame h
  rfl

theorem signAndWrite_proto {pkt : Bytes} (h : signAndWrite env p size pkt = .ok r) :
    r.proto = p := by
  unfold signAndWrite at h
  by_cases hsize : size < pkt.length + aiSignLen
  · rw [if_pos hsize] at h
    cases h
  · rw [if_neg hsize] at h
    split at h
    · cases h
    · obtain rfl := Except.ok.inj h
      rfl
    · split at h
      · obtain rfl := Except.ok.inj h
        rfl
      · obtain rfl := Except.ok.inj h
        rfl

theorem sequenceOut_of_aiPacketWrite (h : aiPacketWrite env p info data frag originLen = .ok r) :
    r.proto.sequenceOut = nextSequence p.sequenceOut + 1 := by
  simp only [aiPacketWrite] at h
  split_ifs at h with hlong hmalloc
  · obtain rfl := Except.ok.inj h
    rfl
  · split at h
    · cases h
    · obtain rfl := Except.ok.inj h
      rfl
    · next ct p' hpack =>
      rw [signAndWrite_proto h, aiEncryptPacket_sequenceOut (aiPackPayload_ok hpack).1]
      rfl
  · obtain rfl := Except.ok.inj h
    rfl

/-- A run of calls of `__ai_packet_write`, with the sequence number of each of them. -/
inductive WriteRun (env : AiEnv) : AiBasicProto → List Nat → AiBasicProto → Prop
  | nil (p : AiBasicProto) : WriteRun env p [] p
  | cons {p p' : AiBasicProto} {info : AiSendPacket} {data : Bytes} {frag : AiFragFlag}
      {originLen : Nat} {r : AiSendResult} {sequences : List Nat}
      (write : aiPacketWrite env p info data frag originLen = .ok r)
      (rest : WriteRun env r.proto sequences p') :
      WriteRun env p (nextSequence p.sequenceOut :: sequences) p'

theorem sequences_of_writeRun {sequences : List Nat} (h : WriteRun env p sequences p') :
    sequences = assignedSequences sequences.length p.sequenceOut := by
  induction h with
  | nil p => rfl
  | cons write rest ih =>
    rw [List.length_cons, assignedSequences, ← sequenceOut_of_aiPacketWrite write, ← ih]

end Writer

/-! ### The reader -/

/-- The sequence rule of `tuya_ai_basic_pkt_read` lets in one number after the other. -/
def SequencesAccepted : Nat → List Nat → Prop
  | _, [] => True
  | sequenceIn, s :: sequences => sequenceIn < s ∧ SequencesAccepted (nextSequenceIn s) sequences

section Reader

variable {env : AiEnv} {p : AiBasicProto} {head : Bytes} {es : Transport}

theorem recvBody_of_sequence_le
    (hsize : u32 (aiGetPacketLen head + aiGetHeadLen head) ≤ env.cfg.recvBufSize)
    (hseq : headSequence head ≤ p.sequenceIn) :
    recvBody env p head es = .ok (.exit (aiGetHeadLen head) p es) := by
  simp only [recvBody]
  rw [if_neg (by omega), if_pos hseq]

end Reader

/-! ### Agreement -/

theorem assignedSequences_eq_range' {n k : Nat} (h : k + n ≤ 0xFFFF) :
    assignedSequences n k = List.range' k n := by
  induction n generalizing k with
  | zero => rfl
  | succ n ih =>
    have hnext : nextSequence k = k := if_neg (by omega)
    rw [assignedSequences, hnext, ih (by omega), List.range'_succ]

theorem assignedSequences_add {m : Nat} (n : Nat) {k : Nat} (h : k + m ≤ 0xFFFF) :
    assignedSequences (m + n) k = assignedSequences m k ++ assignedSequences n (k + m) := by
  induction m generalizing k with
  | zero => rw [Nat.zero_add, Nat.add_zero, assignedSequences, List.nil_append]
  | succ m ih =>
    have hnext : nextSequence k = k := if_neg (by omega)
    rw [Nat.succ_add, assignedSequences, assignedSequences, hnext, ih (by omega),
      List.cons_append, Nat.add_assoc, Nat.add_comm 1 m]

theorem sequencesAccepted_range'_append {n k sequenceIn : Nat} (hin : sequenceIn < k)
    (h : k + n ≤ 0xFFFF) (hn : 0 < n) (rest : List Nat) :
    SequencesAccepted sequenceIn (List.range' k n ++ rest) ↔
      SequencesAccepted (k + n - 1) rest := by
  induction n generalizing k sequenceIn with
  | zero => omega
  | succ n ih =>
    have hnext : nextSequenceIn k = k := if_neg (by omega)
    rw [List.range'_succ, List.cons_append, SequencesAccepted, hnext]
    by_cases hn' : n = 0
    · subst hn'
      simp [hin]
    · rw [ih (Nat.lt_succ_self k) (by omega) (by omega)]
      have hlast : k + 1 + n - 1 = k + (n + 1) - 1 := by omega
      rw [hlast]
      exact and_iff_right hin

/-- **Writer and reader agree up to the wrap.** The numbers of `n` calls of `__ai_packet_write`
from `sequence_out = 1` are all accepted by a reader with `sequence_in = 0` just when there are at
most 65534 of them: the next packet is numbered 1 and rejected. -/
theorem sequencesAccepted_assigned_iff (n : Nat) :
    SequencesAccepted 0 (assignedSequences n 1) ↔ n ≤ 65534 := by
  by_cases hn : n ≤ 65534
  · refine iff_of_true ?_ hn
    by_cases hzero : n = 0
    · subst hzero
      exact trivial
    · rw [assignedSequences_eq_range' (by omega), ← List.append_nil (List.range' 1 n),
        sequencesAccepted_range'_append (by decide) (by omega) (by omega)]
      exact trivial
  · refine iff_of_false ?_ hn
    obtain ⟨k, rfl⟩ : ∃ k, n = 65534 + (k + 1) := ⟨n - 65535, by omega⟩
    have hwrap : nextSequence (1 + 65534) = 1 := if_pos (by decide)
    rw [assignedSequences_add _ (by decide), assignedSequences_eq_range' (by decide),
      sequencesAccepted_range'_append (by decide) (by decide) (by decide), assignedSequences, hwrap,
      SequencesAccepted]
    omega

/-- The 65535th packet of a connection is rejected. -/
theorem not_sequencesAccepted_65535 :
    ¬∀ n, SequencesAccepted 0 (assignedSequences n 1) := by
  intro h
  have hall := h (65534 + 1)
  have hwrap : nextSequence (1 + 65534) = 1 := if_pos (by decide)
  rw [assignedSequences_add 1 (by decide), assignedSequences_eq_range' (by decide),
    sequencesAccepted_range'_append (by decide) (by decide) (by decide), assignedSequences, hwrap,
    SequencesAccepted] at hall
  omega

end TuyaOpen.AiProtocol
