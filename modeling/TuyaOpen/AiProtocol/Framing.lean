import Mathlib.Logic.Relation
import TuyaOpen.AiProtocol.Receive
import TuyaOpen.AiProtocol.Send

/-!
# Packet boundaries of the stream

The stream of a connection is a concatenation of packets, and the reader has no other way to find
their boundaries than to read every packet to its end. `__ai_running` keeps the connection after
`OPRT_OK` and after `OPRT_RESOURCE_NOT_READY`, which `tuya_ai_basic_pkt_read` returns when nothing
has arrived, when a signature is wrong, and when a packet does not fit `recv_buf`. In the last case
the body of the packet is still in the stream, and the next call takes it for a head.
-/

namespace TuyaOpen.AiProtocol

open ChunkStream

/-- The packet that a call starts with, if something has arrived, passes the size check of
`tuya_ai_basic_pkt_read`. -/
def HeadFits (cfg : AiConfig) (es : Transport) : Prop :=
  StartsWithData es →
    u32 (aiGetPacketLen (content es) + aiGetHeadLen (content es)) ≤ cfg.recvBufSize

def OnBoundary (pkts : List Bytes) (es : Transport) : Prop :=
  ∃ k, content es = (pkts.drop k).flatten

/-- A call of `tuya_ai_basic_pkt_read`, in any state, after which `__ai_running` keeps the
connection. -/
def KeptCall (env : AiEnv) (es es' : Transport) : Prop :=
  ∃ p r, tuyaAiBasicPktRead env p es = some (.ok r) ∧
    (r.rt = oprtOk ∨ r.rt = oprtResourceNotReady) ∧ es' = r.transport

def FittingCall (env : AiEnv) (es es' : Transport) : Prop :=
  HeadFits env.cfg es ∧ KeptCall env es es'

section Call

variable {env : AiEnv} {p : AiBasicProto} {es : Transport} {pkts : List Bytes}

theorem exists_pkt_of_head {head : Bytes} {es' : Transport} (hpkts : ∀ pkt ∈ pkts, IsFramed pkt)
    (hc : content es = pkts.flatten) (hlen : head.length = aiGetHeadLen head)
    (hhead : content es = head ++ content es') :
    ∃ body pkts', pkts = (head ++ body) :: pkts' ∧ body.length = aiGetPacketLen head ∧
      content es' = body ++ pkts'.flatten := by
  have hsize : packetHeadSize ≤ head.length := by
    rw [hlen, aiGetHeadLen]
    omega
  cases pkts with
  | nil =>
    rw [hhead, List.flatten_nil] at hc
    have hzero := congrArg List.length hc
    have hnine := nine_le_aiGetHeadLen head
    rw [List.length_append, List.length_nil] at hzero
    omega
  | cons pkt pkts =>
    have hpkt : pkt.length = aiGetHeadLen pkt + aiGetPacketLen pkt := hpkts pkt List.mem_cons_self
    rw [List.flatten_cons, hhead] at hc
    have hpsize : packetHeadSize ≤ pkt.length := by
      rw [hpkt, aiGetHeadLen]
      omega
    -- Head and packet start with the same bytes, so they have the same fields.
    have hsame : aiGetHeadLen head = aiGetHeadLen pkt := by
      rw [← aiGetHeadLen_append hsize (content es'), hc, aiGetHeadLen_append hpsize]
    have htake : pkt.take head.length = head := by
      have hfront := congrArg (List.take head.length) hc
      rwa [List.take_left, List.take_append_of_le_length (by omega), eq_comm] at hfront
    obtain ⟨body, rfl⟩ : ∃ body, pkt = head ++ body := ⟨pkt.drop head.length, by
      conv_lhs => rw [← List.take_append_drop head.length pkt, htake]⟩
    have hfield : aiGetPacketLen (head ++ body) = aiGetPacketLen head :=
      aiGetPacketLen_append hlen.ge body
    rw [List.append_assoc, List.append_cancel_left_eq] at hc
    refine ⟨body, pkts, rfl, ?_, hc⟩
    rw [List.length_append] at hpkt
    omega

theorem not_kept_of_pos {rt : OperateRet} (h : 0 < rt) :
    ¬(rt = oprtOk ∨ rt = oprtResourceNotReady) := by
  rintro (rfl | rfl)
  · exact absurd h (by decide)
  · exact absurd h (by decide)

theorem aiBasicReadPktHead_error {rt : OperateRet} {p' : AiBasicProto} {es' : Transport}
    (hs : StartsWithData es) (h : aiBasicReadPktHead p es = (.error rt, p', es')) :
    rt = oprtComError := by
  obtain ⟨x, xs, es, rfl⟩ := hs
  simp only [aiBasicReadPktHead, ChunkStream.read] at h
  split at h
  · cases h
    rfl
  · rw [readHeadRest] at h
    split at h
    · cases h
      rfl
    · cases h

theorem recvPacket_of_not_startsWithData {st : RecvStage} (hs : ¬StartsWithData es)
    (h : recvPacket env p es = .ok st) :
    ∃ rt es', st = .exit rt p es' ∧ content es' = content es := by
  match es with
  | [] => exact ⟨_, _, (Except.ok.inj h).symm, rfl⟩
  | .status s :: es => exact ⟨_, _, (Except.ok.inj h).symm, rfl⟩
  | .chunk x xs :: es => exact absurd ⟨x, xs, es, rfl⟩ hs

/-- What the first part of a call leaves of a stream of packets: it exits on a boundary, unless
the connection ends or the head does not fit, or it ends the connection, or it has taken a whole
packet. -/
theorem recvPacket_boundary {st : RecvStage} (hpkts : ∀ pkt ∈ pkts, IsFramed pkt)
    (hc : content es = pkts.flatten) (h : recvPacket env p es = .ok st) :
    (∃ rt p' es', st = .exit rt p' es' ∧
        (rt = oprtOk ∨ rt = oprtResourceNotReady ∧ HeadFits env.cfg es → OnBoundary pkts es')) ∨
      (∃ p' es', st = .ret oprtMallocFailed p' es') ∨
      ∃ pkt recvLen p' es', st = .packet pkt recvLen p' es' ∧ 0 < recvLen ∧
        content es' = (pkts.drop 1).flatten := by
  by_cases hs : StartsWithData es
  swap
  · obtain ⟨rt, es', rfl, hsame⟩ := recvPacket_of_not_startsWithData hs h
    exact .inl ⟨rt, p, es', rfl, fun _ => ⟨0, hsame.trans hc⟩⟩
  rcases recvPacket_cases h with ⟨rt, es', rfl, -, xs, hxs, hrt⟩ | ⟨head, es₁, hlen, hhead, hbody⟩
  · refine .inl ⟨rt, p, es', rfl, fun hkept => ⟨0, ?_⟩⟩
    have hnil : xs = [] := by
      rcases hrt with rfl | rfl
      · rcases hkept with hkept | ⟨hkept, -⟩
        · exact absurd hkept (by decide)
        · exact absurd hkept (by decide)
      · rfl
    rw [List.drop_zero, ← hc, hxs, hnil, List.nil_append]
  obtain ⟨body, pkts', rfl, hbl, hc₁⟩ := exists_pkt_of_head hpkts hc hlen hhead
  have hsize : packetHeadSize ≤ head.length := by
    rw [hlen, aiGetHeadLen]
    omega
  have hnine := nine_le_aiGetHeadLen head
  rcases recvBody_cases hbody with ⟨hbig, rfl⟩ | ⟨-, ⟨-, rfl⟩ | ⟨-, hrest⟩⟩
  · -- The head of a packet that does not fit.
    refine .inl ⟨_, _, _, rfl, fun hkept => ?_⟩
    rcases hkept with hkept | ⟨-, hfits⟩
    · exact absurd hkept (by decide)
    · have hle := hfits hs
      rw [hhead, aiGetPacketLen_append hlen.ge, aiGetHeadLen_append hsize] at hle
      omega
  · refine .inl ⟨_, _, _, rfl, fun hkept => ?_⟩
    exact absurd (hkept.imp_right And.left) (not_kept_of_pos (Int.natCast_pos.mpr (by omega)))
  · rcases hrest with ⟨rt, es₂, xs, rfl, -, hready, hshort, hxs, hend⟩ |
      ⟨body', last, es₂, hlast, hbody', hc₂, hcheck⟩
    · -- The stream ends inside the body, which cannot be.
      refine .inl ⟨rt, _, es₂, rfl, fun hkept => ?_⟩
      rcases hkept with hkept | ⟨hkept, -⟩
      · rw [hend hkept, content_nil, List.append_nil] at hxs
        have hle : bodyNeed head ≤ body.length := by
          rw [bodyNeed, hbl, u32]
          omega
        have hall := congrArg List.length (hxs.symm.trans hc₁)
        rw [List.length_append] at hall
        omega
      · exact absurd hkept hready
    · have hwrap : aiGetHeadLen head + aiGetPacketLen head < 4294967296 := by
        by_contra hwrap
        have hneed : body'.length = 0 := by
          have hlt := aiGetPacketLen_lt head
          have hle := aiGetHeadLen_le head
          rw [hbody', bodyNeed, u32]
          omega
        rw [List.eq_nil_of_length_eq_zero hneed, List.append_nil,
          recvCheck_of_wrap _ hlen (by omega)] at hcheck
        cases hcheck
      have hneed : body'.length = body.length := by
        rw [hbody', bodyNeed, u32_of_lt (by omega), hbl]
        omega
      have hrest : content es₂ = pkts'.flatten :=
        (List.append_inj (hc₂.symm.trans hc₁) hneed).2
      have hpos : (0 : OperateRet) < (last : Nat) := Int.natCast_pos.mpr hlast
      rcases recvCheck_cases hcheck with rfl | rfl | rfl | ⟨pkt, iv, rfl⟩
      · exact .inl ⟨_, _, _, rfl, fun _ => ⟨1, hrest⟩⟩
      · exact .inl ⟨_, _, _, rfl, fun _ => ⟨1, hrest⟩⟩
      · exact .inr (.inl ⟨_, _, rfl⟩)
      · exact .inr (.inr ⟨_, _, _, _, rfl, hpos, hrest⟩)

/-- A call after which the connection is kept takes whole packets from the stream, if it starts
with a packet that fits. -/
theorem onBoundary_of_headFits {fuel : Nat} {r : AiReadResult} (hpkts : ∀ pkt ∈ pkts, IsFramed pkt)
    (hc : content es = pkts.flatten) (h : pktReadLoop env fuel p es = some (.ok r))
    (hrt : r.rt = oprtOk ∨ r.rt = oprtResourceNotReady ∧ HeadFits env.cfg es) :
    OnBoundary pkts r.transport := by
  induction fuel generalizing p es r pkts with
  | zero => simp [pktReadLoop] at h
  | succ fuel ih =>
    rw [pktReadLoop] at h
    split at h
    · cases h
    · next hrecv =>
      obtain rfl := Except.ok.inj (Option.some.inj h)
      rcases recvPacket_boundary hpkts hc hrecv with
        ⟨_, _, _, hst, hk⟩ | ⟨_, _, hst⟩ | ⟨_, _, _, _, hst, _⟩
      · cases hst
        exact hk hrt
      · cases hst
      · cases hst
    · next rt p₁ es₁ hrecv =>
      obtain rfl := Except.ok.inj (Option.some.inj h)
      have hret : rt = oprtMallocFailed := recvPacket_ret hrecv
      have hkept : oprtMallocFailed = oprtOk ∨ oprtMallocFailed = oprtResourceNotReady :=
        hret ▸ hrt.imp_right And.left
      exact absurd hkept (by decide)
    · next pkt recvLen p₁ es₁ hrecv =>
      rcases recvPacket_boundary hpkts hc hrecv with ⟨_, _, _, hst, _⟩ | ⟨_, _, hst⟩ |
        ⟨_, _, _, _, hst, hpos, hc₁⟩
      · cases hst
      · cases hst
      obtain ⟨rfl, rfl, rfl, rfl⟩ := RecvStage.packet.inj hst
      -- Behind a packet every exit returns `recv_len`, which is positive.
      have hexit := not_kept_of_pos hpos
      split at h
      · cases h
      · obtain rfl := Except.ok.inj (Option.some.inj h)
        exact absurd (hrt.imp_right And.left) hexit
      · obtain rfl := Except.ok.inj (Option.some.inj h)
        exact ⟨1, hc₁⟩
      · split at h
        · cases h
        · cases h
        · next r' hnext =>
          split_ifs at h with hok
          · obtain rfl := Except.ok.inj (Option.some.inj h)
            obtain ⟨k, hk⟩ := ih (fun pkt hmem => hpkts pkt (List.mem_of_mem_drop hmem)) hc₁ hnext
              (.inl hok)
            exact ⟨1 + k, by rw [hk, List.drop_drop]⟩
          · obtain rfl := Except.ok.inj (Option.some.inj h)
            exact absurd (hrt.imp_right And.left) hexit

theorem exists_body_of_not_headFits {r : AiReadResult} (hpkts : ∀ pkt ∈ pkts, IsFramed pkt)
    (hc : content es = pkts.flatten) (h : tuyaAiBasicPktRead env p es = some (.ok r))
    (hrt : r.rt = oprtOk ∨ r.rt = oprtResourceNotReady) (hfits : ¬HeadFits env.cfg es) :
    ∃ head body pkts', pkts = (head ++ body) :: pkts' ∧ head ≠ [] ∧ body ≠ [] ∧
      content r.transport = body ++ pkts'.flatten := by
  rw [HeadFits, Classical.not_imp, Nat.not_le] at hfits
  obtain ⟨hs, hbig⟩ := hfits
  rw [tuyaAiBasicPktRead_eq, recvPacket] at h
  cases hread : aiBasicReadPktHead p es with
  | mk res st =>
    obtain ⟨p₁, es₁⟩ := st
    rw [hread] at h
    rcases aiBasicReadPktHead_cases hread with ⟨rt, rfl, -⟩ | ⟨head, rfl, rfl, hlen, hhead⟩
    · obtain rfl := Except.ok.inj (Option.some.inj h)
      have hkept : oprtComError = oprtOk ∨ oprtComError = oprtResourceNotReady :=
        aiBasicReadPktHead_error hs hread ▸ hrt
      exact absurd hkept (by decide)
    · obtain ⟨body, pkts', rfl, hbl, hc₁⟩ := exists_pkt_of_head hpkts hc hlen hhead
      have hsize : packetHeadSize ≤ head.length := by
        rw [hlen, aiGetHeadLen]
        omega
      rw [hhead, aiGetPacketLen_append hlen.ge, aiGetHeadLen_append hsize] at hbig
      simp only [recvBody, if_pos hbig] at h
      obtain rfl := Except.ok.inj (Option.some.inj h)
      refine ⟨head, body, pkts', rfl, ?_, ?_, hc₁⟩
      · rintro rfl
        exact absurd hsize (by decide)
      · rintro rfl
        have hmin := env.cfg.le_maxFragmentLength
        have hle := aiGetHeadLen_le head
        rw [List.length_nil] at hbl
        rw [← hbl, Nat.zero_add, u32_of_lt (by omega)] at hbig
        simp only [AiConfig.recvBufSize] at hbig
        omega

end Call

/-! ### Boundaries -/

theorem length_flatten_drop_le (pkts : List Bytes) {j k : Nat} (h : j ≤ k) :
    (pkts.drop k).flatten.length ≤ (pkts.drop j).flatten.length := by
  obtain ⟨i, rfl⟩ : ∃ i, k = j + i := ⟨k - j, by omega⟩
  rw [← List.drop_drop]
  conv_rhs => rw [← List.take_append_drop i (pkts.drop j), List.flatten_append, List.length_append]
  omega

theorem not_onBoundary_of_body {pkts pkts' : List Bytes} {head body : Bytes} {es : Transport}
    {k : Nat} (hk : pkts.drop k = (head ++ body) :: pkts') (hhead : head ≠ []) (hbody : body ≠ [])
    (hc : content es = body ++ pkts'.flatten) : ¬OnBoundary pkts es := by
  rintro ⟨j, hj⟩
  have hlen := congrArg List.length (hc.symm.trans hj)
  have hheadlen := List.length_pos_iff.mpr hhead
  have hbodylen := List.length_pos_iff.mpr hbody
  rw [List.length_append] at hlen
  by_cases hle : j ≤ k
  · have hmore := length_flatten_drop_le pkts hle
    rw [hk, List.flatten_cons, List.length_append, List.length_append] at hmore
    omega
  · have hless := length_flatten_drop_le pkts (Nat.succ_le_of_lt (Nat.lt_of_not_le hle))
    have hnext : pkts.drop (k + 1) = pkts' := by
      rw [← List.drop_drop, hk, List.drop_one, List.tail_cons]
    rw [hnext] at hless
    omega

/-- On a boundary, a call after which the connection is kept ends on a boundary just when it starts
with a packet that fits. -/
theorem onBoundary_iff_of_keptCall {env : AiEnv} {pkts : List Bytes} {es es' : Transport}
    (hpkts : ∀ pkt ∈ pkts, IsFramed pkt) (hes : OnBoundary pkts es) (hcall : KeptCall env es es') :
    OnBoundary pkts es' ↔ HeadFits env.cfg es := by
  obtain ⟨p, r, hr, hrt, rfl⟩ := hcall
  obtain ⟨k, hk⟩ := hes
  have hframed : ∀ pkt ∈ pkts.drop k, IsFramed pkt := fun pkt hmem =>
    hpkts pkt (List.mem_of_mem_drop hmem)
  constructor
  · intro hb
    by_contra hfits
    obtain ⟨head, body, pkts', heq, hhead, hbody, hc⟩ :=
      exists_body_of_not_headFits hframed hk hr hrt hfits
    exact not_onBoundary_of_body heq hhead hbody hc hb
  · intro hfits
    obtain ⟨j, hj⟩ := onBoundary_of_headFits hframed hk hr (hrt.imp_right fun h => ⟨h, hfits⟩)
    exact ⟨k + j, by rw [hj, List.drop_drop]⟩

/-- **The calls of a connection stay on the packet boundaries while the packets fit.** From the
start of a stream of packets, in any chunks, every run of calls that keep the connection and start
with a packet that fits ends on a boundary; and the next call that keeps the connection ends on
one just when it starts with a packet that fits. -/
theorem onBoundary_of_fittingCalls {env : AiEnv} {pkts : List Bytes} {es₀ es : Transport}
    (hpkts : ∀ pkt ∈ pkts, IsFramed pkt) (hc : content es₀ = pkts.flatten)
    (hrun : Relation.ReflTransGen (FittingCall env) es₀ es) :
    OnBoundary pkts es ∧
      ∀ es', KeptCall env es es' → (OnBoundary pkts es' ↔ HeadFits env.cfg es) := by
  have hes : OnBoundary pkts es := by
    induction hrun with
    | refl => exact ⟨0, hc⟩
    | tail _ hcall ih => exact (onBoundary_iff_of_keptCall hpkts ih hcall.2).mpr hcall.1
  exact ⟨hes, fun es' hcall => onBoundary_iff_of_keptCall hpkts hes hcall⟩

/-- The stream of the sample connection with its text packet, and nothing behind it. -/
def sampleStream : Transport :=
  pushBack (sampleUnsigned .noFrag 1 sampleText ++ sampleTextSign) []

/-- The call that reads the text packet of the sample connection ends at the end of the stream. -/
theorem onBoundary_sampleStream :
    ∃ es, FittingCall sampleEnv sampleStream es ∧
      OnBoundary [sampleUnsigned .noFrag 1 sampleText ++ sampleTextSign] es := by
  have hread : (tuyaAiBasicPktRead sampleEnv sampleProto sampleStream).map
      (fun r => r.map fun r => r.rt) = some (.ok oprtOk) := by
    decide +kernel
  have hframed : IsFramed (sampleUnsigned .noFrag 1 sampleText ++ sampleTextSign) := by
    unfold IsFramed
    decide +kernel
  have hfits : HeadFits sampleEnv.cfg sampleStream := fun _ => by decide +kernel
  match hr : tuyaAiBasicPktRead sampleEnv sampleProto sampleStream with
  | none => rw [hr] at hread; cases hread
  | some (.error f) => rw [hr] at hread; cases hread
  | some (.ok r) =>
    rw [hr] at hread
    have hok : r.rt = oprtOk := Except.ok.inj (Option.some.inj hread)
    have hcall : FittingCall sampleEnv sampleStream r.transport :=
      ⟨hfits, sampleProto, r, hr, .inl hok, rfl⟩
    exact ⟨_, hcall, (onBoundary_of_fittingCalls (List.forall_mem_singleton.mpr hframed)
      (by rw [sampleStream, content_pushBack]; rfl) (.single hcall)).1⟩

def oversizePacket : Bytes :=
  packetHead 1 false .sl4 .noFrag ++ beBytes 4 2000 ++ List.replicate 2000 0

/-- The head of a packet that is longer than `recv_buf` is taken from the stream, its body is
not, and the connection is kept. -/
theorem exists_lost_boundary :
    ¬∀ env es es' pkts, (∀ pkt ∈ pkts, IsFramed pkt) → content es = pkts.flatten →
      KeptCall env es es' → OnBoundary pkts es' := by
  intro h
  have hread : (tuyaAiBasicPktRead sampleEnv sampleProto (pushBack oversizePacket [])).map
      (fun r => r.map fun r => r.rt) = some (.ok oprtResourceNotReady) := by
    decide +kernel
  have hframed : ∀ pkt ∈ [oversizePacket], IsFramed pkt := by
    unfold IsFramed
    decide +kernel
  have hc : content (pushBack oversizePacket [] : Transport) = [oversizePacket].flatten :=
    content_pushBack _ _
  match hr : tuyaAiBasicPktRead sampleEnv sampleProto (pushBack oversizePacket []) with
  | none => rw [hr] at hread; cases hread
  | some (.error f) => rw [hr] at hread; cases hread
  | some (.ok r) =>
    rw [hr] at hread
    have hrt : r.rt = oprtResourceNotReady := Except.ok.inj (Option.some.inj hread)
    have hcall : KeptCall sampleEnv (pushBack oversizePacket []) r.transport :=
      ⟨sampleProto, r, hr, .inr hrt, rfl⟩
    have hfits := (onBoundary_iff_of_keptCall hframed ⟨0, hc⟩ hcall).mp
      (h _ _ _ _ hframed hc hcall)
    exact absurd (hfits ⟨_, _, _, rfl⟩) (by decide +kernel)

end TuyaOpen.AiProtocol
