import Mathlib.Logic.Relation
import TuyaOpen.AiProtocol.Receive
import TuyaOpen.AiProtocol.Send

/-!
# Memory safety of fragment reassembly

The first fragment of a group allocates `frag_total_len` bytes from the length it declares, and
every later fragment is copied behind the ones before it. The code compares neither the sum of
the fragments with the allocation, nor does it ask whether there is a buffer at all when a group
starts with a middle or last fragment.

A group never outlives the call of `tuya_ai_basic_pkt_read` that has read its first fragment, so
the packets of one call are what has to fit.
-/

namespace TuyaOpen.AiProtocol

open ChunkStream

/-! ### Runs of a connection -/

/-- The steps of a connection: a call of `__ai_running`, the reset of `__ai_basic_proto_reinit`,
and everything else, which leaves `recv_frag_mng` alone. -/
inductive AiRecvStep (env : AiEnv) : AiBasicProto → AiBasicProto → Prop
  | running {p : AiBasicProto} {es : Transport} {r : AiReadResult}
      (read : tuyaAiBasicPktRead env p es = some (.ok r)) : AiRecvStep env p (aiRunning r).2
  | reinit {p p' : AiBasicProto} (zero : p'.recvFragMng = .zero) : AiRecvStep env p p'
  | other {p p' : AiBasicProto} (same : p'.recvFragMng = p.recvFragMng) : AiRecvStep env p p'

section Runs

variable {env : AiEnv} {p p' : AiBasicProto} {es : Transport} {pkt : AiFragPacket}

theorem fragProcess_cases {st : AiFragStep} (h : fragProcess env p pkt = .ok st) :
    (∃ p', st = .exit p') ∨
      (∃ out, st = .deliver out p ∧ (p.fragFlag = true ∨ ¬p.recvFragMng.Pending)) ∨
      (∃ out p', st = .deliver out p' ∧ out.shared = true) ∨
      ∃ mng, st = .again { p with recvFragMng := mng } ∧ mng.Pending ∧ p.fragFlag = false := by
  unfold fragProcess at h
  by_cases hflag : p.fragFlag = true
  · rw [if_pos hflag] at h
    exact .inr (.inl ⟨_, (Except.ok.inj h).symm, .inl hflag⟩)
  rw [if_neg hflag] at h
  have hfalse : p.fragFlag = false := by simpa using hflag
  by_cases hpend : p.recvFragMng.Pending ∧ pkt.fragFlag ≠ .fragIng ∧ pkt.fragFlag ≠ .fragEnd
  · rw [if_pos hpend] at h
    exact .inl ⟨p, (Except.ok.inj h).symm⟩
  rw [if_neg hpend] at h
  cases hfrag : pkt.fragFlag with
  | noFrag =>
    simp only [hfrag] at h hpend
    exact .inr (.inl ⟨_, (Except.ok.inj h).symm, .inr fun hp => hpend ⟨hp, by decide, by decide⟩⟩)
  | fragStart =>
    simp only [hfrag, fragStart] at h
    split at h
    · cases h
    · split_ifs at h with hle hmalloc
      · exact .inl ⟨_, (Except.ok.inj h).symm⟩
      · split at h
        · cases h
        · exact .inr (.inr (.inr ⟨_, (Except.ok.inj h).symm, .inl rfl, hfalse⟩))
      · exact .inl ⟨_, (Except.ok.inj h).symm⟩
  | fragIng =>
    simp only [hfrag, appendFragment] at h
    split at h
    · cases h
    · next mng hmng =>
      split at hmng
      · cases hmng
      · obtain rfl := Except.ok.inj hmng
        exact .inr (.inr (.inr ⟨_, (Except.ok.inj h).symm, .inr rfl, hfalse⟩))
  | fragEnd =>
    simp only [hfrag] at h
    split at h
    · cases h
    · exact .inr (.inr (.inl ⟨_, _, (Except.ok.inj h).symm, rfl⟩))

/-- After a call the collected fragments are gone, or they are what the call has handed out, or
the call has returned early and left them as they were. -/
theorem recvFragMng_of_read {fuel : Nat} {r : AiReadResult}
    (h : pktReadLoop env fuel p es = some (.ok r)) :
    r.proto.recvFragMng = .zero ∨
      (r.rt = oprtOk ∧ ∃ out, r.out = some out ∧ out.shared = true) ∨
      (r.rt = oprtMallocFailed ∧ r.proto.recvFragMng = p.recvFragMng) ∨
      ((p.fragFlag = true ∨ ¬p.recvFragMng.Pending) ∧ r.proto.recvFragMng = p.recvFragMng) := by
  induction fuel generalizing p es r with
  | zero => simp [pktReadLoop] at h
  | succ fuel ih =>
    rw [pktReadLoop] at h
    split at h
    · cases h
    · obtain rfl := Except.ok.inj (Option.some.inj h)
      exact .inl rfl
    · next rt p₁ es₁ hrecv =>
      obtain rfl := Except.ok.inj (Option.some.inj h)
      obtain ⟨hmng, -⟩ := recvPacket_frame hrecv
      have hrt : rt = oprtMallocFailed := recvPacket_ret hrecv
      exact .inr (.inr (.inl ⟨hrt, hmng⟩))
    · next pkt recvLen p₁ es₁ hrecv =>
      obtain ⟨hmng, hflag⟩ := recvPacket_frame hrecv
      simp only [RecvStage.proto] at hmng hflag
      split at h
      · cases h
      · obtain rfl := Except.ok.inj (Option.some.inj h)
        exact .inl rfl
      · next out p₂ hfrag =>
        obtain rfl := Except.ok.inj (Option.some.inj h)
        rcases fragProcess_cases hfrag with ⟨_, hst⟩ | ⟨_, hst, hidle⟩ | ⟨_, _, hst, hsh⟩ | ⟨_, hst, _⟩
        · cases hst
        · cases hst
          rw [hmng, hflag] at hidle
          exact .inr (.inr (.inr ⟨hidle, hmng⟩))
        · cases hst
          exact .inr (.inl ⟨rfl, out, rfl, hsh⟩)
        · cases hst
      · next p₂ hfrag =>
        rcases fragProcess_cases hfrag with
          ⟨_, hst⟩ | ⟨_, hst, _⟩ | ⟨_, _, hst, _⟩ | ⟨mng, hst, hpend, hf⟩
        · cases hst
        · cases hst
        · cases hst
        · obtain rfl := AiFragStep.again.inj hst
          split at h
          · cases h
          · cases h
          · next r' hnext =>
            split_ifs at h with hok
            · obtain rfl := Except.ok.inj (Option.some.inj h)
              rcases ih hnext with hz | hsh | ⟨hm, -⟩ | ⟨hno, -⟩
              · exact .inl hz
              · exact .inr (.inl hsh)
              · exact absurd (hm.symm.trans hok) (by decide)
              · rcases hno with hno | hno
                · exact absurd (hno.symm.trans hf) (by decide)
                · exact absurd hpend hno
            · obtain rfl := Except.ok.inj (Option.some.inj h)
              exact .inl rfl

theorem recvFragMng_aiRunning (r : AiReadResult) :
    (aiRunning r).2.recvFragMng = r.proto.recvFragMng ∨ (aiRunning r).2.recvFragMng = .zero := by
  unfold aiRunning
  split
  · exact .inl rfl
  · split
    · exact .inl rfl
    · split
      · unfold tuyaAiBasicPktFree
        split
        · exact .inr rfl
        · exact .inl rfl
      · exact .inl rfl

theorem recvFragMng_aiRunning_of_shared {r : AiReadResult} {out : AiReadOut} (hrt : r.rt = oprtOk)
    (hout : r.out = some out) (hshared : out.shared = true) :
    (aiRunning r).2.recvFragMng = .zero := by
  have hready : r.rt ≠ oprtResourceNotReady := by
    rw [hrt]
    decide
  simp only [aiRunning, if_neg hready, hout, if_pos hrt, tuyaAiBasicPktFree, if_pos hshared]
  rfl

theorem recvFragMng_of_reachable {p₀ : AiBasicProto}
    (hrun : Relation.ReflTransGen (AiRecvStep env) p₀ p) (hinit : p₀.recvFragMng = .zero) :
    p.recvFragMng = .zero := by
  induction hrun with
  | refl => exact hinit
  | tail _ hstep ih =>
    cases hstep with
    | reinit zero => exact zero
    | other same => rw [same, ih]
    | running read =>
      next r =>
      have hkeep (hz : r.proto.recvFragMng = .zero) : (aiRunning r).2.recvFragMng = .zero :=
        (recvFragMng_aiRunning r).elim (fun h => h.trans hz) id
      rcases recvFragMng_of_read read with hz | ⟨hok, out, hout, hshared⟩ | ⟨-, hm⟩ | ⟨-, hm⟩
      · exact hkeep hz
      · exact recvFragMng_aiRunning_of_shared hok hout hshared
      · exact hkeep (hm.trans ih)
      · exact hkeep (hm.trans ih)

end Runs

/-! ### Copies -/

/-- A copy into `recv_frag_mng.data`: the size of that buffer, `none` for `NULL`, the position in
it and the number of bytes. -/
structure FragCopy where
  size : Option Nat
  offset : Nat
  len : Nat
  deriving DecidableEq

/-- `frag_total_len`, before it is cut to 32 bits. -/
def fragTotal (fields : Nat × Nat) : Nat := fields.2 + fields.1 + aiAddPktLen

def copyOf (env : AiEnv) (mng : AiRecvFragMng) (pkt : AiFragPacket) : Option FragCopy :=
  match pkt.fragFlag with
  | .noFrag => none
  | .fragStart =>
    match startFields pkt.decryptBuf with
    | none => none
    | some fields =>
      if ¬mng.Pending ∧ pkt.decryptLen < fields.2 ∧ env.malloc (u32 (fragTotal fields)) then
        some ⟨some (u32 (fragTotal fields)), 0, pkt.decryptLen⟩
      else none
  | .fragIng => some ⟨mng.data.map List.length, mng.offset, pkt.decryptLen⟩
  | .fragEnd => some ⟨mng.data.map List.length, mng.offset, pkt.decryptLen⟩

/-- The packets that reach the reassembly in a call nested at most `fuel` deep. -/
def readPackets (env : AiEnv) : Nat → AiBasicProto → Transport → List AiFragPacket
  | 0, _, _ => []
  | fuel + 1, p, es =>
    match recvPacket env p es with
    | .ok (.packet pkt _ p es) =>
      match fragProcess env p pkt with
      | .ok (.again p) => pkt :: readPackets env fuel p es
      | _ => [pkt]
    | _ => []

/-- The copies of a call nested at most `fuel` deep, each with the packets of the call up to the
one that is copied; `before` are the packets in front. -/
def readCopies (env : AiEnv) :
    Nat → List AiFragPacket → AiBasicProto → Transport → List (List AiFragPacket × FragCopy)
  | 0, _, _, _ => []
  | fuel + 1, before, p, es =>
    match recvPacket env p es with
    | .ok (.packet pkt _ p es) =>
      let here := (copyOf env p.recvFragMng pkt).toList.map fun c => (before ++ [pkt], c)
      match fragProcess env p pkt with
      | .ok (.again p) => here ++ readCopies env fuel (before ++ [pkt]) p es
      | _ => here
    | _ => []

/-- The packets that reach the reassembly in a call of `tuya_ai_basic_pkt_read`. -/
def callPackets (env : AiEnv) (p : AiBasicProto) (es : Transport) : List AiFragPacket :=
  readPackets env ((content es).length + 1) p es

/-- The copies in a call of `tuya_ai_basic_pkt_read`. -/
def callCopies (env : AiEnv) (p : AiBasicProto) (es : Transport) :
    List (List AiFragPacket × FragCopy) :=
  readCopies env ((content es).length + 1) [] p es

/-- A copy stays inside a buffer that the first fragment of its group has allocated, with a size
that has not wrapped. -/
def SafeCopy (c : List AiFragPacket × FragCopy) : Prop :=
  ∃ start rest fields, c.1 = start :: rest ∧ start.fragFlag = .fragStart ∧
    startFields start.decryptBuf = some fields ∧ fragTotal fields < 4294967296 ∧
      c.2.size = some (fragTotal fields) ∧ c.2.offset + c.2.len ≤ fragTotal fields

/-! ### Fragments that fit -/

/-- The middle and last fragments among the packets behind a first one fit into `total` bytes, of
which `got` are in use. -/
def TailFits (total : Nat) : Nat → List AiFragPacket → Prop
  | _, [] => True
  | got, pkt :: pkts =>
    pkt.fragFlag = .fragIng ∨ pkt.fragFlag = .fragEnd →
      got + pkt.decryptLen ≤ total ∧ TailFits total (got + pkt.decryptLen) pkts

/-- The packets of a call fit: the first of them is no middle or last fragment, and if it is a
first fragment that declares more than it has, the size it asks for does not wrap and holds the
fragments that follow. -/
def GroupFits : List AiFragPacket → Prop
  | [] => True
  | pkt :: pkts =>
    pkt.fragFlag ≠ .fragIng ∧ pkt.fragFlag ≠ .fragEnd ∧
      (pkt.fragFlag = .fragStart →
        ∀ fields, startFields pkt.decryptBuf = some fields → pkt.decryptLen < fields.2 →
          fragTotal fields < 4294967296 ∧ TailFits (fragTotal fields) pkt.decryptLen pkts)

section Copies

variable {env : AiEnv} {p : AiBasicProto} {es : Transport} {pkt start : AiFragPacket}

/-- `recv_frag_mng` holds `got` bytes of a group in a buffer of `total` bytes. -/
structure Collecting (p : AiBasicProto) (total got : Nat) : Prop where
  fragFlag : p.fragFlag = false
  pending : p.recvFragMng.Pending
  offset : p.recvFragMng.offset = got
  data : ∃ buf, p.recvFragMng.data = some buf ∧ buf.length = total

theorem copyFragment_of_le (pkt : AiFragPacket) {buf : Bytes} {offset : Nat}
    (h : offset + pkt.decryptLen ≤ buf.length) :
    copyFragment (some buf) offset pkt = .error .fragSource ∨
      ∃ buf', copyFragment (some buf) offset pkt = .ok buf' ∧ buf'.length = buf.length := by
  simp only [copyFragment]
  rw [if_neg (by omega)]
  cases hread : readSpan pkt.decryptBuf 0 pkt.decryptLen with
  | none => exact .inl rfl
  | some src =>
    have hsrc : src.length = pkt.decryptLen := by
      unfold readSpan at hread
      split_ifs at hread with hle
      rw [← Option.some.inj hread, length_slice hle]
    have hcopy : memcpy buf offset src = _ := memcpy_of_le (by omega)
    simp only [hcopy]
    exact .inr ⟨_, rfl, length_of_memcpy hcopy⟩

theorem collecting_step (env : AiEnv) {total got : Nat} (hc : Collecting p total got)
    (hfrag : pkt.fragFlag = .fragIng ∨ pkt.fragFlag = .fragEnd)
    (hfits : got + pkt.decryptLen ≤ total) :
    copyOf env p.recvFragMng pkt = some ⟨some total, got, pkt.decryptLen⟩ ∧
      (fragProcess env p pkt = .error .fragSource ∨
        (∃ out p', fragProcess env p pkt = .ok (.deliver out p')) ∨
        ∃ p', fragProcess env p pkt = .ok (.again p') ∧
          Collecting p' total (got + pkt.decryptLen)) := by
  obtain ⟨buf, hdata, hlen⟩ := hc.data
  have hpend : ¬(p.recvFragMng.Pending ∧ pkt.fragFlag ≠ .fragIng ∧ pkt.fragFlag ≠ .fragEnd) := by
    rintro ⟨-, hing, hend⟩
    exact hfrag.elim hing hend
  have happend : appendFragment p.recvFragMng pkt = .error .fragSource ∨
      ∃ buf', buf'.length = total ∧
        appendFragment p.recvFragMng pkt = .ok ⟨pkt.fragFlag, got + pkt.decryptLen, some buf'⟩ := by
    rw [appendFragment, hdata, hc.offset]
    rcases copyFragment_of_le pkt (by omega : got + pkt.decryptLen ≤ buf.length) with
      herr | ⟨buf', hok, hlen'⟩
    · exact .inl (by rw [herr])
    · exact .inr ⟨buf', hlen'.trans hlen, by rw [hok]⟩
  constructor
  · rcases hfrag with hfrag | hfrag <;> simp [copyOf, hfrag, hdata, hlen, hc.offset]
  · rw [fragProcess, if_neg (by rw [hc.fragFlag]; decide), if_neg hpend]
    rcases happend with herr | ⟨buf', hlen', hok⟩
    · left
      rcases hfrag with hfrag | hfrag <;> simp only [hfrag, herr]
    · right
      rcases hfrag with hfrag | hfrag
      · right
        simp only [hfrag] at hok ⊢
        simp only [hok]
        exact ⟨_, rfl, hc.fragFlag, .inr rfl, rfl, buf', rfl, hlen'⟩
      · left
        simp only [hfrag] at hok ⊢
        simp only [hok]
        exact ⟨_, _, rfl⟩

theorem pending_step (env : AiEnv) (hflag : p.fragFlag = false) (hpend : p.recvFragMng.Pending)
    (hing : pkt.fragFlag ≠ .fragIng) (hend : pkt.fragFlag ≠ .fragEnd) :
    copyOf env p.recvFragMng pkt = none ∧ fragProcess env p pkt = .ok (.exit p) := by
  constructor
  · unfold copyOf
    split
    · rfl
    · split
      · rfl
      · exact if_neg fun h => h.1 hpend
    · next h => exact absurd h hing
    · next h => exact absurd h hend
  · rw [fragProcess, if_neg (by rw [hflag]; decide), if_pos ⟨hpend, hing, hend⟩]

theorem nested_ne_fragCopy {fuel : Nat} {recvLen : OperateRet}
    (h : pktReadLoop env fuel p es ≠ some (.error .fragCopy)) :
    (match pktReadLoop env fuel p es with
      | none => none
      | some (.error f) => some (.error f)
      | some (.ok r) =>
        if r.rt = oprtOk then some (.ok r)
        else some (.ok (exitRead recvLen r.proto r.transport))) ≠
      some (Except.error MemFault.fragCopy) := by
  cases hr : pktReadLoop env fuel p es with
  | none => simp
  | some r =>
    cases r with
    | error f =>
      rintro ⟨⟩
      exact h hr
    | ok r =>
      simp only
      split <;> simp

theorem safeCopy_of_collecting {fuel total got : Nat} {before rest : List AiFragPacket}
    {fields : Nat × Nat} (hbefore : before = start :: rest) (hstart : start.fragFlag = .fragStart)
    (hfields : startFields start.decryptBuf = some fields) (htotal : fragTotal fields = total)
    (hlt : total < 4294967296) (hc : Collecting p total got)
    (hfits : TailFits total got (readPackets env fuel p es)) :
    (∀ c ∈ readCopies env fuel before p es, SafeCopy c) ∧
      pktReadLoop env fuel p es ≠ some (.error .fragCopy) := by
  induction fuel generalizing p es got before rest with
  | zero => exact ⟨by simp [readCopies], by simp [pktReadLoop]⟩
  | succ fuel ih =>
    cases hrecv : recvPacket env p es with
    | error f =>
      simp only [readCopies, pktReadLoop, hrecv, List.not_mem_nil, false_implies, implies_true,
        true_and]
      rintro ⟨⟩
      exact recvPacket_ne_fragCopy hrecv
    | ok st =>
      cases st with
      | exit recvLen p₁ es₁ => simp [readCopies, pktReadLoop, hrecv]
      | ret rt p₁ es₁ => simp [readCopies, pktReadLoop, hrecv]
      | packet pkt recvLen p₁ es₁ =>
        simp only [readPackets, readCopies, pktReadLoop, hrecv] at hfits ⊢
        obtain ⟨hmng, hflag⟩ := recvPacket_frame hrecv
        simp only [RecvStage.proto] at hmng hflag
        have hc₁ : Collecting p₁ total got :=
          ⟨hflag.trans hc.fragFlag, hmng ▸ hc.pending, hmng ▸ hc.offset, hmng ▸ hc.data⟩
        by_cases hfrag : pkt.fragFlag = .fragIng ∨ pkt.fragFlag = .fragEnd
        · have hroom : got + pkt.decryptLen ≤ total := by
            split at hfits <;> exact (hfits hfrag).1
          obtain ⟨hcopy, hstep⟩ := collecting_step env hc₁ hfrag hroom
          have hhere : SafeCopy (before ++ [pkt], ⟨some total, got, pkt.decryptLen⟩) :=
            ⟨start, rest ++ [pkt], fields, by rw [hbefore]; rfl, hstart, hfields, by omega,
              by rw [htotal], by rw [htotal]; exact hroom⟩
          simp only [hcopy, Option.toList_some, List.map_cons, List.map_nil]
          rcases hstep with herr | ⟨out, p₂, hdel⟩ | ⟨p₂, hagain, hc₂⟩
          · simp [herr, hhere]
          · simp [hdel, hhere]
          · simp only [hagain] at hfits ⊢
            obtain ⟨hcopies, hloop⟩ := ih
              (by rw [hbefore]; rfl : before ++ [pkt] = start :: (rest ++ [pkt])) hc₂
              (hfits hfrag).2
            refine ⟨fun c hcmem => ?_, ?_⟩
            · rcases List.mem_append.mp hcmem with hcmem | hcmem
              · exact List.mem_singleton.mp hcmem ▸ hhere
              · exact hcopies c hcmem
            · exact nested_ne_fragCopy hloop
        · have hing : pkt.fragFlag ≠ .fragIng := fun h => hfrag (.inl h)
          have hend : pkt.fragFlag ≠ .fragEnd := fun h => hfrag (.inr h)
          obtain ⟨hcopy, hexit⟩ := pending_step env hc₁.fragFlag hc₁.pending hing hend
          simp [hcopy, hexit]

/-- A first fragment, when nothing is collected, is copied into a buffer of the size it asks for,
or the call ends without a copy. -/
theorem start_step (env : AiEnv) (hflag : p.fragFlag = false) (hzero : p.recvFragMng = .zero)
    (hfrag : pkt.fragFlag = .fragStart)
    (hfits : ∀ fields, startFields pkt.decryptBuf = some fields → pkt.decryptLen < fields.2 →
      fragTotal fields < 4294967296) :
    (copyOf env p.recvFragMng pkt = none ∧
        (fragProcess env p pkt = .error .originLen ∨ ∃ p', fragProcess env p pkt = .ok (.exit p'))) ∨
      ∃ fields, startFields pkt.decryptBuf = some fields ∧ pkt.decryptLen < fields.2 ∧
        copyOf env p.recvFragMng pkt = some ⟨some (fragTotal fields), 0, pkt.decryptLen⟩ ∧
        (fragProcess env p pkt = .error .fragSource ∨
          ∃ p', fragProcess env p pkt = .ok (.again p') ∧
            Collecting p' (fragTotal fields) pkt.decryptLen) := by
  have hidle : ¬p.recvFragMng.Pending := by
    rw [hzero]
    decide
  have hproc : fragProcess env p pkt = fragStart env p pkt := by
    rw [fragProcess, if_neg (by rw [hflag]; decide), if_neg fun h => hidle h.1]
    simp only [hfrag]
  cases hfields : startFields pkt.decryptBuf with
  | none => exact .inl ⟨by simp [copyOf, hfrag, hfields], .inl (by simp [hproc, fragStart, hfields])⟩
  | some fields =>
    by_cases horigin : pkt.decryptLen < fields.2
    · have htotal := hfits fields hfields horigin
      have hu : u32 (fragTotal fields) = fragTotal fields := u32_of_lt htotal
      have hu' : u32 (fields.2 + fields.1 + aiAddPktLen) = fragTotal fields := hu
      by_cases hmalloc : env.malloc (fragTotal fields) = true
      · right
        refine ⟨fields, rfl, horigin, ?_, ?_⟩
        · simp [copyOf, hfrag, hfields, hu, hidle, horigin, hmalloc]
        · have hroom : 0 + pkt.decryptLen ≤ (List.replicate (fragTotal fields) (0 : UInt8)).length := by
            rw [List.length_replicate, fragTotal]
            omega
          rw [hproc, fragStart, hfields]
          simp only [if_neg (Nat.not_le.mpr horigin), hu', if_pos hmalloc]
          rcases copyFragment_of_le pkt hroom with herr | ⟨buf', hok, hlen⟩
          · exact .inl (by rw [herr])
          · right
            rw [hok]
            refine ⟨_, rfl, hflag, .inl rfl, rfl, buf', rfl, ?_⟩
            rw [hlen, List.length_replicate]
      · left
        refine ⟨by simp [copyOf, hfrag, hfields, hu, hmalloc], .inr ?_⟩
        rw [hproc, fragStart, hfields]
        simp only [if_neg (Nat.not_le.mpr horigin), hu', if_neg hmalloc]
        exact ⟨_, rfl⟩
    · left
      refine ⟨by simp [copyOf, hfrag, hfields, horigin], .inr ?_⟩
      rw [hproc, fragStart, hfields]
      simp only [if_pos (Nat.not_lt.mp horigin)]
      exact ⟨_, rfl⟩

theorem safeCopy_of_zero {fuel : Nat} (hflag : p.fragFlag = false) (hzero : p.recvFragMng = .zero)
    (hfits : GroupFits (readPackets env fuel p es)) :
    (∀ c ∈ readCopies env fuel [] p es, SafeCopy c) ∧
      pktReadLoop env fuel p es ≠ some (.error .fragCopy) := by
  cases fuel with
  | zero => exact ⟨by simp [readCopies], by simp [pktReadLoop]⟩
  | succ fuel =>
    cases hrecv : recvPacket env p es with
    | error f =>
      simp only [readCopies, pktReadLoop, hrecv, List.not_mem_nil, false_implies, implies_true,
        true_and]
      rintro ⟨⟩
      exact recvPacket_ne_fragCopy hrecv
    | ok st =>
      cases st with
      | exit recvLen p₁ es₁ => simp [readCopies, pktReadLoop, hrecv]
      | ret rt p₁ es₁ => simp [readCopies, pktReadLoop, hrecv]
      | packet pkt recvLen p₁ es₁ =>
        simp only [readPackets, readCopies, pktReadLoop, hrecv] at hfits ⊢
        obtain ⟨hmng, hflag₁⟩ := recvPacket_frame hrecv
        simp only [RecvStage.proto] at hmng hflag₁
        rw [hflag] at hflag₁
        rw [hzero] at hmng
        have hfirst : ∃ pkts, GroupFits (pkt :: pkts) := by
          split at hfits <;> exact ⟨_, hfits⟩
        obtain ⟨pkts, hing, hend, hstart⟩ := hfirst
        by_cases hfrag : pkt.fragFlag = .fragStart
        · rcases start_step env hflag₁ hmng hfrag
            (fun fields hfields hlen => (hstart hfrag fields hfields hlen).1) with
            ⟨hcopy, herr | ⟨p₂, hexit⟩⟩ | ⟨fields, hfields, hlen, hcopy, herr | ⟨p₂, hagain, hc⟩⟩
          · simp [hcopy, herr]
          · simp [hcopy, hexit]
          · have htotal := (hstart hfrag fields hfields hlen).1
            have hhere : SafeCopy ([] ++ [pkt], ⟨some (fragTotal fields), 0, pkt.decryptLen⟩) :=
              ⟨pkt, [], fields, rfl, hfrag, hfields, htotal, rfl, by simp [fragTotal]; omega⟩
            simpa [hcopy, herr] using hhere
          · simp only [hagain] at hfits ⊢
            obtain ⟨htotal, htail⟩ := hfits.2.2 hfrag fields hfields hlen
            have hhere : SafeCopy ([] ++ [pkt], ⟨some (fragTotal fields), 0, pkt.decryptLen⟩) :=
              ⟨pkt, [], fields, rfl, hfrag, hfields, htotal, rfl, by simp [fragTotal]; omega⟩
            obtain ⟨hcopies, hloop⟩ := safeCopy_of_collecting (List.nil_append _) hfrag hfields rfl
              htotal hc htail
            simp only [hcopy, Option.toList_some, List.map_cons, List.map_nil]
            refine ⟨fun c hcmem => ?_, nested_ne_fragCopy hloop⟩
            rcases List.mem_append.mp hcmem with hcmem | hcmem
            · exact List.mem_singleton.mp hcmem ▸ hhere
            · exact hcopies c hcmem
        · have hno : pkt.fragFlag = .noFrag := by
            cases h : pkt.fragFlag with
            | noFrag => rfl
            | fragStart => exact absurd h hfrag
            | fragIng => exact absurd h hing
            | fragEnd => exact absurd h hend
          have hidle : ¬p₁.recvFragMng.Pending := by
            rw [hmng]
            decide
          have hproc : fragProcess env p₁ pkt =
              .ok (.deliver ⟨pkt.decryptBuf, pkt.decryptLen, .noFrag, false⟩ p₁) := by
            rw [fragProcess, if_neg (by rw [hflag₁]; decide), if_neg fun h => hidle h.1]
            simp only [hno]
          simp [copyOf, hno, hproc]

end Copies

/-! ### Safety -/

/-- **Reassembly stays inside its buffers when the fragments fit.** In every run of a connection
and every call of `tuya_ai_basic_pkt_read` in it with `frag_flag == false`, whatever arrives: if
the packets that reach the reassembly in the call fit, every copy stays inside the buffer that the
first fragment of its group has allocated. -/
theorem safeCopy_of_groupFits {env : AiEnv} {p₀ p : AiBasicProto} {es : Transport}
    (hrun : Relation.ReflTransGen (AiRecvStep env) p₀ p) (hinit : p₀.recvFragMng = .zero)
    (hflag : p.fragFlag = false) (hfits : GroupFits (callPackets env p es)) :
    (∀ c ∈ callCopies env p es, SafeCopy c) ∧
      tuyaAiBasicPktRead env p es ≠ some (.error .fragCopy) :=
  safeCopy_of_zero hflag (recvFragMng_of_reachable hrun hinit) hfits

def sampleFragments : Transport :=
  pushBack (sampleUnsigned .fragStart 1 sampleStart ++ sampleStartSign ++
    sampleUnsigned .fragEnd 2 sampleTail ++ sampleEndSign) []

/-- The fragments of the sample connection are copied into their buffer of 160 bytes. -/
theorem safeCopy_sampleFragments :
    (callCopies sampleEnv sampleProto sampleFragments).map (·.2) =
        [⟨some 160, 0, 13⟩, ⟨some 160, 13, 24⟩] ∧
      ∀ c ∈ callCopies sampleEnv sampleProto sampleFragments, SafeCopy c := by
  have hpackets : callPackets sampleEnv sampleProto sampleFragments =
      [⟨.fragStart, sampleStart.data ++ List.replicate 201 0, 13⟩,
        ⟨.fragEnd, sampleTail.data ++ List.replicate 185 0, 24⟩] := by
    decide +kernel
  have hfields : startFields (sampleStart.data ++ List.replicate 201 0) = some (0, 32) := by
    decide +kernel
  refine ⟨by decide +kernel, (safeCopy_of_groupFits .refl (by decide) (by decide) ?_).1⟩
  rw [hpackets]
  refine ⟨by decide, by decide, fun _ fields h _ => ?_⟩
  obtain rfl := Option.some.inj (hfields.symm.trans h)
  exact ⟨by decide, fun _ => ⟨by decide, trivial⟩⟩

def sampleStray : Transport :=
  pushBack (sampleUnsigned .fragIng 1 sampleTail ++ sampleIngSign) []

/-- A signed middle fragment without a first one is copied to a `NULL` buffer. -/
theorem exists_unsafe_copy :
    ¬∀ env p₀ p es, Relation.ReflTransGen (AiRecvStep env) p₀ p → p₀.recvFragMng = .zero →
      p.fragFlag = false → ∀ c ∈ callCopies env p es, SafeCopy c := by
  intro h
  have hcopies : callCopies sampleEnv (sampleProto.setDecryptIv sampleProto.encryptIv) sampleStray =
      [([⟨.fragIng, sampleTail.data ++ List.replicate 185 0, 24⟩], ⟨none, 0, 24⟩)] := by
    decide +kernel
  have hsafe := h sampleEnv _ (sampleProto.setDecryptIv sampleProto.encryptIv) sampleStray .refl
    rfl rfl _ (hcopies ▸ List.mem_singleton_self _)
  obtain ⟨start, rest, fields, hcons, hstart, -⟩ := hsafe
  cases hcons
  cases hstart

end TuyaOpen.AiProtocol
