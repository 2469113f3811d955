import TuyaOpen.AiProtocol.ReadReport
import TuyaOpen.Basic.Blocks
import TuyaOpen.Basic.Transition

/-!
# Who owns a received packet

`tuya_ai_basic_pkt_read` hands out `decrypt_buf`, or for a group `recv_frag_mng.data`, which then
has two owners: `tuya_ai_basic_pkt_free` clears `recv_frag_mng` when it frees that buffer, the label
`EXIT` of a later read frees what it finds there, and `tuya_ai_auth_resp` frees its packet without
looking at `recv_frag_mng`. Here every buffer is a heap block; a buffer allocated later never has
the address of one that has been freed.

The attributes and the connection id that `tuya_ai_auth_resp` allocates are not received packets
and are left out.

## Main results

* `read_ownRead`: without its blocks a read is the one of the model.
* `callEnd_ownRead`: how a read ends.
* `Owned.step`: every call that meets the condition frees each block once.
* `singleOwner_of_handedBack`: the runs in which no block is freed twice.
-/

namespace TuyaOpen.AiProtocol

open ChunkStream

/-! ### Reads -/

def signatureRight (env : AiEnv) (p : AiBasicProto) (recv : Bytes) : Bool :=
  let buf := recvBuf env.cfg recv
  match aiPacketSign env p buf with
  | .error _ => false
  | .ok calcSign =>
    readSpan buf (aiGetHeadLen buf + aiGetPayloadLen buf) aiSignLen = some calcSign

/-- `tuya_ai_basic_pkt_read` gets as far as to allocate `decrypt_buf`. -/
def decryptBufAllocated (env : AiEnv) (p : AiBasicProto) (es : Transport) : Bool :=
  match aiBasicReadPktHead p es with
  | (.error _, _, _) => false
  | (.ok head, p, es) =>
    let need := u32 (aiGetPacketLen head + aiGetHeadLen head)
    if env.cfg.recvBufSize < need then false
    else if headSequence head ≤ p.sequenceIn then false
    else
      match gather retryRead (need - aiGetHeadLen head) head (aiGetHeadLen head) es with
      | (.stopped _ _, _) => false
      | (.full recv _, _) =>
        signatureRight env (storeSequence p (headSequence head)) recv &&
          env.malloc (u32 (aiGetPacketLen (recvBuf env.cfg recv) +
            aiGetHeadLen (recvBuf env.cfg recv) + aiAddPktLen))

/-- What a read leaves behind: its result, the blocks of `recv_frag_mng.data` and of `out`, and the
heap. -/
structure OwnRead where
  read : AiReadResult
  data : Option Nat
  out : Option Nat
  heap : Blocks

/-- The label `EXIT`, with the blocks of `decrypt_buf` and of `recv_frag_mng.data`. -/
def exitOwn (recvLen : OperateRet) (p : AiBasicProto) (es : Transport)
    (decryptBuf data : Option Nat) (heap : Blocks) : OwnRead :=
  ⟨exitRead recvLen p es, none, none, (heap.freeOpt decryptBuf).freeOpt data⟩

def endNested (recvLen : OperateRet) :
    Option (Except MemFault OwnRead) → Option (Except MemFault OwnRead)
  | some (.ok r) =>
    if r.read.rt = oprtOk then some (.ok r)
    else some (.ok (exitOwn recvLen r.read.proto r.read.transport none r.data r.heap))
  | r => r

/-- `tuya_ai_basic_pkt_read`, nested at most `fuel` deep, with its blocks: `data` is that of
`recv_frag_mng.data`, and `decrypt_buf` is allocated first. -/
def ownRead (env : AiEnv) :
    Nat → AiBasicProto → Option Nat → Blocks → Transport → Option (Except MemFault OwnRead)
  | 0, _, _, _, _ => none
  | fuel + 1, p, data, heap, es =>
    match recvPacket env p es with
    | .error f => some (.error f)
    | .ok (.exit recvLen p' es') =>
      if decryptBufAllocated env p es then
        some (.ok (exitOwn recvLen p' es' (some heap.next) data heap.alloc))
      else some (.ok (exitOwn recvLen p' es' none data heap))
    | .ok (.ret rt p' es') => some (.ok ⟨⟨rt, none, p', es'⟩, data, none, heap⟩)
    | .ok (.packet pkt recvLen p es) =>
      match fragProcess env p pkt with
      | .error f => some (.error f)
      | .ok (.exit p) =>
        -- A first fragment clears `recv_frag_mng` before it allocates.
        some (.ok (exitOwn recvLen p es (some heap.next)
          (if p.recvFragMng.data.isSome then data else none) heap.alloc))
      | .ok (.deliver out p) =>
        if out.shared then
          some (.ok ⟨⟨oprtOk, some out, p, es⟩, data, data, heap.alloc.free heap.next⟩)
        else some (.ok ⟨⟨oprtOk, some out, p, es⟩, data, some heap.next, heap.alloc⟩)
      | .ok (.again p) =>
        if pkt.fragFlag = .fragStart then
          endNested recvLen
            (ownRead env fuel p (some heap.alloc.next) (heap.alloc.alloc.free heap.next) es)
        else endNested recvLen (ownRead env fuel p data (heap.alloc.free heap.next) es)

/-- A call of `tuya_ai_basic_pkt_read` with its blocks. -/
def ownPktRead (env : AiEnv) (p : AiBasicProto) (data : Option Nat) (heap : Blocks)
    (es : Transport) : Option (Except MemFault OwnRead) :=
  ownRead env ((content es).length + 1) p data heap es

/-! ### Calls -/

structure Owner where
  proto : AiBasicProto
  /-- The block of `recv_frag_mng.data`. -/
  data : Option Nat
  heap : Blocks
  /-- The packets that the caller has been handed and has not passed to `tuya_ai_basic_pkt_free`. -/
  held : List Nat

inductive OwnCall
  | pktRead (env : AiEnv) (es : Transport)
  | pktFree (b : Nat)
  | authResp (env : AiEnv) (es : Transport)

/-- `tuya_ai_basic_pkt_free`. -/
def ownPktFree (s : Owner) (b : Nat) : Owner :=
  if s.data = some b then ⟨s.proto.clearFrag, none, s.heap.free b, s.held.erase b⟩
  else { s with heap := s.heap.free b, held := s.held.erase b }

/-- `tuya_ai_auth_resp` after its read. What it does with the attributes is left out: it frees the
packet in any case. A packet that is not there it reads all the same. -/
def ownAuthResp (s : Owner) (r : OwnRead) : Option Owner :=
  if r.read.rt ≠ oprtOk then some { s with proto := r.read.proto, data := r.data, heap := r.heap }
  else
    match r.out with
    | none => none
    | some b => some { s with proto := r.read.proto, data := r.data, heap := r.heap.free b }

def ownStep (s : Owner) : OwnCall → Option Owner
  | .pktRead env es =>
    match ownPktRead env s.proto s.data s.heap es with
    | some (.ok r) => some ⟨r.read.proto, r.data, r.heap, r.out.toList ++ s.held⟩
    | _ => none
  | .pktFree b => some (ownPktFree s b)
  | .authResp env es =>
    match ownPktRead env s.proto s.data s.heap es with
    | some (.ok r) => ownAuthResp s r
    | _ => none

def ownNext (s : Option Owner) (call : OwnCall) : Option Owner := s.bind (ownStep · call)

/-- The call frees or keeps the buffer of `recv_frag_mng`. -/
def OwnCall.consumes : OwnCall → Bool
  | .pktRead _ _ => false
  | .pktFree _ => true
  | .authResp _ _ => true

/-- No block has been freed twice, and `tuya_ai_basic_pkt_free` and `tuya_ai_auth_resp` leave no
block in `recv_frag_mng` that has been freed. -/
def SingleOwner (s : Option Owner) (call : OwnCall) : Prop :=
  ∀ s', ownNext s call = some s' → s'.heap.freed.Nodup ∧
    (call.consumes = true → ∀ b, s'.data = some b → b ∉ s'.heap.freed)

/-- The read does nothing to the buffer of the last group, which its caller still has: the next
packet is handed out as it is, or it is a first fragment, for which `recv_frag_mng` is cleared
before anything else. -/
def leavesBuffer (env : AiEnv) (p : AiBasicProto) (es : Transport) : Bool :=
  match recvPacket env p es with
  | .ok (.packet pkt _ p _) =>
    match fragProcess env p pkt with
    | .ok (.deliver out _) => !out.shared
    | .ok (.again _) => pkt.fragFlag = .fragStart
    | .ok (.exit p) => p.recvFragMng.data.isNone
    | .error _ => false
  | .ok (.ret _ _ _) => true
  | _ => false

/-- No last fragment is put into `recv_frag_mng`. -/
def NoGroup (env : AiEnv) (p : AiBasicProto) (es : Transport) : Prop :=
  p.fragFlag = true ∨ ∀ pkt ∈ callPackets env p es, pkt.fragFlag ≠ .fragEnd

instance (env : AiEnv) (p : AiBasicProto) (es : Transport) : Decidable (NoGroup env p es) :=
  inferInstanceAs (Decidable (_ ∨ _))

/-- The condition on a call: before a read the buffer of the last group has been handed back, or
the read leaves it alone, an authentication response is no group, and the caller frees what it has
been handed. -/
def ownerReady (s : Owner) : OwnCall → Prop
  | .pktRead env es => s.data = none ∨ leavesBuffer env s.proto es = true
  | .pktFree b => b ∈ s.held
  | .authResp env es =>
    (s.data = none ∨ leavesBuffer env s.proto es = true) ∧ NoGroup env s.proto es

def HandedBack (s : Option Owner) (call : OwnCall) : Prop := ∀ s', s = some s' → ownerReady s' call

instance instDecidableOwnerReady (s : Owner) : ∀ call, Decidable (ownerReady s call)
  | .pktRead _ _ => inferInstanceAs (Decidable (_ ∨ _))
  | .pktFree _ => inferInstanceAs (Decidable (_ ∈ _))
  | .authResp _ _ => inferInstanceAs (Decidable (_ ∧ _))

instance instDecidableHandedBack : ∀ (s : Option Owner) (call : OwnCall),
    Decidable (HandedBack s call)
  | none, _ => isTrue (by rintro s' ⟨⟩)
  | some s, call => decidable_of_iff (ownerReady s call)
    ⟨fun h _ hs => Option.some.inj hs ▸ h, fun h => h s rfl⟩

/-! ### Reads without their blocks -/

section Erase

variable {env : AiEnv} {p : AiBasicProto} {es : Transport} {fuel : Nat}

theorem read_endNested (recvLen : OperateRet) (x : Option (Except MemFault OwnRead)) :
    (endNested recvLen x).map (Except.map OwnRead.read) =
      match x.map (Except.map OwnRead.read) with
      | none => none
      | some (.error f) => some (.error f)
      | some (.ok r) =>
        if r.rt = oprtOk then some (.ok r)
        else some (.ok (exitRead recvLen r.proto r.transport)) := by
  match x with
  | none => rfl
  | some (.error f) => rfl
  | some (.ok r) =>
    simp only [endNested, Option.map_some, Except.map]
    split_ifs <;> rfl

theorem read_ownRead (data : Option Nat) (heap : Blocks) :
    (ownRead env fuel p data heap es).map (Except.map OwnRead.read) =
      pktReadLoop env fuel p es := by
  induction fuel generalizing p data heap es with
  | zero => rfl
  | succ fuel ih =>
    rw [ownRead, pktReadLoop]
    cases recvPacket env p es with
    | error f => rfl
    | ok stage =>
      cases stage with
      | exit recvLen p' es' =>
        dsimp only
        split_ifs <;> rfl
      | ret rt p' es' => rfl
      | packet pkt recvLen p₁ es₁ =>
        dsimp only
        cases fragProcess env p₁ pkt with
        | error f => rfl
        | ok st =>
          cases st with
          | exit p₂ => rfl
          | deliver out p₂ =>
            dsimp only
            split_ifs <;> rfl
          | again p₂ =>
            dsimp only
            split_ifs
            · rewrite [read_endNested, ih]
              rfl
            · rewrite [read_endNested, ih]
              rfl

end Erase

/-! ### Reassembly -/

/-- `recv_frag_mng` collects a group and has a buffer. -/
structure Gathering (p : AiBasicProto) : Prop where
  fragFlag : p.fragFlag = false
  pending : p.recvFragMng.Pending
  data : p.recvFragMng.data.isSome

section Step

variable {env : AiEnv} {p q : AiBasicProto} {pkt : AiFragPacket} {mng : AiRecvFragMng}
  {st : AiFragStep}

theorem Gathering.of_frame (h : Gathering p) (hmng : q.recvFragMng = p.recvFragMng)
    (hflag : q.fragFlag = p.fragFlag) : Gathering q :=
  ⟨hflag.trans h.fragFlag, hmng ▸ h.pending, hmng ▸ h.data⟩

theorem appendFragment_ok (h : appendFragment p.recvFragMng pkt = .ok mng) :
    p.recvFragMng.data.isSome ∧ mng.data.isSome ∧ mng.fragFlag = pkt.fragFlag := by
  rw [appendFragment] at h
  split at h
  · cases h
  · next buf hcopy =>
    obtain rfl := Except.ok.inj h
    refine ⟨?_, rfl, rfl⟩
    cases hdata : p.recvFragMng.data with
    | none =>
      rw [hdata] at hcopy
      cases hcopy
    | some old => rfl

theorem fragProcess_owner (h : fragProcess env p pkt = .ok st) :
    (∃ p', st = .exit p' ∧ (p' = p ∨ p'.recvFragMng.data = none)) ∨
      (∃ out, st = .deliver out p ∧ out.shared = false ∧
        (p.fragFlag = true ∨ ¬p.recvFragMng.Pending)) ∨
      (∃ out p', st = .deliver out p' ∧ out.shared = true ∧ p.fragFlag = false ∧
        pkt.fragFlag = .fragEnd ∧ p.recvFragMng.data.isSome ∧ p'.recvFragMng.data.isSome ∧
          ¬p'.recvFragMng.Pending) ∨
      ∃ p', st = .again p' ∧ p.fragFlag = false ∧ Gathering p' ∧
        (pkt.fragFlag = .fragStart ∧ ¬p.recvFragMng.Pending ∨
          pkt.fragFlag = .fragIng ∧ p.recvFragMng.data.isSome) := by
  rw [fragProcess] at h
  by_cases hmode : p.fragFlag = true
  · rw [if_pos hmode] at h
    exact Or.inr (Or.inl ⟨_, (Except.ok.inj h).symm, rfl, Or.inl hmode⟩)
  have hflag : p.fragFlag = false := Bool.not_eq_true _ ▸ hmode
  rw [if_neg hmode] at h
  by_cases hpend : p.recvFragMng.Pending ∧ pkt.fragFlag ≠ .fragIng ∧ pkt.fragFlag ≠ .fragEnd
  · rw [if_pos hpend] at h
    exact Or.inl ⟨p, (Except.ok.inj h).symm, Or.inl rfl⟩
  rw [if_neg hpend] at h
  cases hfrag : pkt.fragFlag with
  | noFrag =>
    rw [hfrag] at h hpend
    exact Or.inr (Or.inl ⟨_, (Except.ok.inj h).symm, rfl,
      Or.inr fun hp => hpend ⟨hp, by decide, by decide⟩⟩)
  | fragStart =>
    rw [hfrag] at h hpend
    have hidle : ¬p.recvFragMng.Pending := fun hp => hpend ⟨hp, by decide, by decide⟩
    dsimp only at h
    rw [fragStart] at h
    split at h
    · cases h
    · dsimp only at h
      split_ifs at h
      · exact Or.inl ⟨p, (Except.ok.inj h).symm, Or.inl rfl⟩
      · split at h
        · cases h
        · exact Or.inr (Or.inr (Or.inr ⟨_, (Except.ok.inj h).symm, hflag,
            ⟨hflag, Or.inl rfl, rfl⟩, Or.inl ⟨rfl, hidle⟩⟩))
      · exact Or.inl ⟨_, (Except.ok.inj h).symm, Or.inr rfl⟩
  | fragIng =>
    rw [hfrag] at h
    dsimp only at h
    split at h
    · cases h
    · next mng hmng =>
      obtain ⟨hold, hnew, hmngFlag⟩ := appendFragment_ok hmng
      exact Or.inr (Or.inr (Or.inr ⟨_, (Except.ok.inj h).symm, hflag,
        ⟨hflag, Or.inr (hmngFlag.trans hfrag), hnew⟩, Or.inr ⟨rfl, hold⟩⟩))
  | fragEnd =>
    rw [hfrag] at h
    dsimp only at h
    split at h
    · cases h
    · next mng hmng =>
      obtain ⟨hold, hnew, hmngFlag⟩ := appendFragment_ok hmng
      refine Or.inr (Or.inr (Or.inl
        ⟨_, _, (Except.ok.inj h).symm, rfl, hflag, rfl, hold, hnew, ?_⟩))
      rintro (hp | hp)
      · exact absurd (hp.symm.trans (hmngFlag.trans hfrag)) (by decide)
      · exact absurd (hp.symm.trans (hmngFlag.trans hfrag)) (by decide)

end Step

/-! ### Calls for the next fragment -/

section Nested

variable {env : AiEnv} {p : AiBasicProto} {es : Transport} {fuel g : Nat} {heap : Blocks}
  {r : OwnRead} {recvLen : OperateRet} {pkts : List AiFragPacket}

/-- How a call ends that has been made while a group is collected in the block `g`: the group is
gone, or it is still there and the call has failed, or it is whole and handed out. -/
structure GroupEnd (g : Nat) (pkts : List AiFragPacket) (heap : Blocks) (r : OwnRead) : Prop where
  sound : r.heap.Sound
  keeps : heap.Extends (some g) r.heap
  data : (r.data = none ∧ r.out = none ∧ r.read.proto.recvFragMng = .zero) ∨
    (r.data = some g ∧ r.heap.Live g ∧ r.out = none ∧ r.read.rt ≠ oprtOk) ∨
    r.data = some g ∧ r.heap.Live g ∧ r.out = some g ∧ r.read.rt = oprtOk ∧
      r.read.proto.recvFragMng.data.isSome ∧ ¬r.read.proto.recvFragMng.Pending ∧
        ∃ pkt ∈ pkts, pkt.fragFlag = .fragEnd

theorem groupEnd_exitOwn (hs : heap.Sound) (hg : heap.Live g) (p : AiBasicProto) :
    GroupEnd g pkts heap (exitOwn recvLen p es none (some g) heap) where
  sound := hs.free hg
  keeps := Blocks.extends_free g heap
  data := Or.inl ⟨rfl, rfl, rfl⟩

theorem groupEnd_exitOwn_alloc (hs : heap.Sound) (hg : heap.Live g) (p : AiBasicProto) :
    GroupEnd g pkts heap (exitOwn recvLen p es (some heap.next) (some g) heap.alloc) where
  sound := hs.alloc_free.free (hg.alloc.free hg.ne_next)
  keeps := (Blocks.extends_alloc_free _ heap).trans (Blocks.extends_free g _)
  data := Or.inl ⟨rfl, rfl, rfl⟩

theorem GroupEnd.of_extends {heap₀ : Blocks} {pkts' : List AiFragPacket}
    (hext : heap₀.Extends (some g) heap) (hpkts : ∀ pkt ∈ pkts, pkt ∈ pkts')
    (h : GroupEnd g pkts heap r) : GroupEnd g pkts' heap₀ r where
  sound := h.sound
  keeps := hext.trans h.keeps
  data := by
    rcases h.data with hgone | hfailed | ⟨hdata, hlive, hout, hrt, hsome, hpend, pkt, hmem, hend⟩
    · exact Or.inl hgone
    · exact Or.inr (Or.inl hfailed)
    · exact Or.inr (Or.inr ⟨hdata, hlive, hout, hrt, hsome, hpend, pkt, hpkts pkt hmem, hend⟩)

theorem endNested_eq_some {x : Option (Except MemFault OwnRead)}
    (h : endNested recvLen x = some (.ok r)) :
    ∃ r₁, x = some (.ok r₁) ∧ (r₁.read.rt = oprtOk ∧ r = r₁ ∨
      r₁.read.rt ≠ oprtOk ∧
        r = exitOwn recvLen r₁.read.proto r₁.read.transport none r₁.data r₁.heap) := by
  match x with
  | none => cases h
  | some (.error f) => cases h
  | some (.ok r₁) =>
    refine ⟨r₁, rfl, ?_⟩
    rw [endNested] at h
    split_ifs at h with hrt
    · exact Or.inl ⟨hrt, (Except.ok.inj (Option.some.inj h)).symm⟩
    · exact Or.inr ⟨hrt, (Except.ok.inj (Option.some.inj h)).symm⟩

theorem GroupEnd.endNested {r₁ : OwnRead} (h : GroupEnd g pkts heap r₁)
    (hr : r₁.read.rt = oprtOk ∧ r = r₁ ∨ r₁.read.rt ≠ oprtOk ∧
      r = exitOwn recvLen r₁.read.proto r₁.read.transport none r₁.data r₁.heap) :
    GroupEnd g pkts heap r ∧ (r.data = none ∨ r.out = some g) := by
  rcases hr with ⟨hrt, rfl⟩ | ⟨hrt, rfl⟩
  · rcases h.data with hgone | hfailed | hwhole
    · exact ⟨h, Or.inl hgone.1⟩
    · exact absurd hrt hfailed.2.2.2
    · exact ⟨h, Or.inr hwhole.2.2.1⟩
  · rcases h.data with hgone | ⟨hdata, hlive, -, -⟩ | hwhole
    · rw [hgone.1]
      exact ⟨⟨h.sound, h.keeps, Or.inl ⟨rfl, rfl, rfl⟩⟩, Or.inl rfl⟩
    · rw [hdata]
      exact ⟨(groupEnd_exitOwn h.sound hlive _).of_extends h.keeps fun _ hmem => hmem, Or.inl rfl⟩
    · exact absurd hwhole.2.2.2.1 hrt

theorem Gathering.groupEnd (hp : Gathering p) (hs : heap.Sound) (hg : heap.Live g)
    (h : ownRead env fuel p (some g) heap es = some (.ok r)) :
    GroupEnd g (readPackets env fuel p es) heap r := by
  induction fuel generalizing p heap es r with
  | zero => cases h
  | succ fuel ih =>
    rw [ownRead] at h
    rw [readPackets]
    cases hrecv : recvPacket env p es with
    | error f =>
      rw [hrecv] at h
      cases h
    | ok stage =>
      rw [hrecv] at h
      cases stage with
      | exit recvLen p₁ es₁ =>
        dsimp only at h
        split_ifs at h
        · obtain rfl := Except.ok.inj (Option.some.inj h)
          exact groupEnd_exitOwn_alloc hs hg _
        · obtain rfl := Except.ok.inj (Option.some.inj h)
          exact groupEnd_exitOwn hs hg _
      | ret rt p₁ es₁ =>
        obtain rfl := Except.ok.inj (Option.some.inj h)
        have hrt : rt ≠ oprtOk := fun hok =>
          oprtMallocFailed_ne_ok ((recvPacket_ret hrecv).symm.trans hok)
        exact ⟨hs, .refl _ _, Or.inr (Or.inl ⟨rfl, hg, rfl, hrt⟩)⟩
      | packet pkt recvLen p₁ es₁ =>
        obtain ⟨hmng, hflag⟩ := recvPacket_frame hrecv
        have hp₁ : Gathering p₁ := hp.of_frame hmng hflag
        have hg₁ : (heap.alloc.free heap.next).Live g := hg.alloc.free hg.ne_next
        dsimp only at h ⊢
        cases hfrag : fragProcess env p₁ pkt with
        | error f =>
          rw [hfrag] at h
          cases h
        | ok st =>
          rw [hfrag] at h
          rcases fragProcess_owner hfrag with ⟨p₂, rfl, hp₂⟩ | ⟨out, rfl, -, hidle⟩ |
            ⟨out, p₂, rfl, hshared, -, hend, -, hsome, hpend⟩ | ⟨p₂, rfl, -, hgather, hpkt⟩
          · obtain rfl := Except.ok.inj (Option.some.inj h)
            rcases hp₂ with rfl | hnone
            · rw [if_pos hp₁.data]
              exact groupEnd_exitOwn_alloc hs hg _
            · rw [if_neg (by rw [hnone]; decide)]
              exact ⟨hs.alloc_free, Blocks.extends_alloc_free _ _, Or.inl ⟨rfl, rfl, rfl⟩⟩
          · rcases hidle with hmode | hidle
            · exact absurd (hp₁.fragFlag.symm.trans hmode) (by decide)
            · exact absurd hp₁.pending hidle
          · dsimp only at h
            rw [if_pos hshared] at h
            obtain rfl := Except.ok.inj (Option.some.inj h)
            exact ⟨hs.alloc_free, Blocks.extends_alloc_free _ _, Or.inr (Or.inr
              ⟨rfl, hg₁, rfl, rfl, hsome, hpend, pkt, List.mem_singleton_self _, hend⟩)⟩
          · have hing : pkt.fragFlag ≠ .fragStart := by
              rcases hpkt with ⟨-, hidle⟩ | ⟨hing, -⟩
              · exact absurd hp₁.pending hidle
              · rw [hing]
                decide
            dsimp only at h
            rw [if_neg hing] at h
            obtain ⟨r₁, hnext, hr⟩ := endNested_eq_some h
            exact ((ih hgather hs.alloc_free hg₁ hnext).of_extends (Blocks.extends_alloc_free _ _)
              fun _ hmem => List.mem_cons_of_mem _ hmem).endNested hr |>.1

end Nested

/-! ### Calls between groups -/

section Call

variable {env : AiEnv} {p : AiBasicProto} {es : Transport} {fuel : Nat} {data : Option Nat}
  {heap : Blocks} {r : OwnRead} {pkts : List AiFragPacket}

/-- How a call ends that finds `data` in `recv_frag_mng`: `recv_frag_mng` is empty, or as it was, or
it has a group that is handed out. What is handed out is a new block. -/
structure CallEnd (p : AiBasicProto) (data : Option Nat) (pkts : List AiFragPacket)
    (heap : Blocks) (r : OwnRead) : Prop where
  sound : r.heap.Sound
  keeps : heap.Extends none r.heap
  fresh : ∀ b, r.out = some b → heap.next ≤ b ∧ r.heap.Live b
  data : (r.data = none ∧ r.read.proto.recvFragMng = .zero) ∨
    (r.data = data ∧ r.read.proto.recvFragMng = p.recvFragMng) ∨
    r.data.isSome ∧ r.data = r.out ∧ r.read.proto.recvFragMng.data.isSome ∧
      ¬r.read.proto.recvFragMng.Pending ∧ p.fragFlag = false ∧
        ∃ pkt ∈ pkts, pkt.fragFlag = .fragEnd

theorem callEnd_exitOwn {q : AiBasicProto} {recvLen : OperateRet} (hs : heap.Sound) :
    CallEnd p data pkts heap (exitOwn recvLen q es none none heap) where
  sound := hs
  keeps := .refl _ _
  fresh := by rintro b ⟨⟩
  data := Or.inl ⟨rfl, rfl⟩

theorem callEnd_exitOwn_alloc {q : AiBasicProto} {recvLen : OperateRet} (hs : heap.Sound) :
    CallEnd p data pkts heap (exitOwn recvLen q es (some heap.next) none heap.alloc) where
  sound := hs.alloc_free
  keeps := Blocks.extends_alloc_free _ _
  fresh := by rintro b ⟨⟩
  data := Or.inl ⟨rfl, rfl⟩

theorem Gathering.callEnd {p₂ : AiBasicProto} {recvLen : OperateRet} (hgather : Gathering p₂)
    (hs : heap.Sound) (hmode : p.fragFlag = false)
    (hpkts : ∀ pkt ∈ readPackets env fuel p₂ es, pkt ∈ pkts)
    (h : endNested recvLen
      (ownRead env fuel p₂ (some heap.alloc.next) (heap.alloc.alloc.free heap.next) es) =
        some (.ok r)) : CallEnd p data pkts heap r := by
  have hs₁ : heap.alloc.Sound := hs.alloc
  have hnext : heap.next ≠ heap.alloc.next := Nat.ne_of_lt (Nat.lt_succ_self _)
  have hlive : (heap.alloc.alloc.free heap.next).Live heap.alloc.next :=
    hs₁.live_next.free hnext.symm
  have hsound : (heap.alloc.alloc.free heap.next).Sound :=
    hs₁.alloc.free hs.live_next.alloc
  have hext : heap.Extends none (heap.alloc.alloc.free heap.next) :=
    ⟨Nat.le_add_right _ 2, fun b hb _ => hb.alloc.alloc.free hb.ne_next⟩
  obtain ⟨r₁, hread, hr⟩ := endNested_eq_some h
  obtain ⟨hend, hgone⟩ := (hgather.groupEnd hsound hlive hread).endNested hr
  refine ⟨hend.sound, hext.trans_fresh hend.keeps (Nat.le_succ _), ?_, ?_⟩
  · rintro b hb
    rcases hend.data with ⟨-, hout, -⟩ | ⟨-, -, hout, -⟩ | ⟨-, hblock, hout, -⟩
    · exact absurd (hb.symm.trans hout) (by simp)
    · exact absurd (hb.symm.trans hout) (by simp)
    · obtain rfl := Option.some.inj (hb.symm.trans hout)
      exact ⟨Nat.le_succ _, hblock⟩
  · rcases hend.data with ⟨hdata, -, hmng⟩ | ⟨hdata, -, hout, -⟩ |
      ⟨hdata, -, hout, -, hsome, hpend, pkt, hmem, hlast⟩
    · exact Or.inl ⟨hdata, hmng⟩
    · rcases hgone with hgone | hgone
      · exact absurd (hdata.symm.trans hgone) (by simp)
      · exact absurd (hout.symm.trans hgone) (by simp)
    · exact Or.inr (Or.inr ⟨by rw [hdata]; rfl, hdata.trans hout.symm, hsome, hpend, hmode,
        pkt, hpkts pkt hmem, hlast⟩)

theorem callEnd_ownRead (hs : heap.Sound)
    (hready : data = none ∧ p.recvFragMng = .zero ∨ leavesBuffer env p es = true)
    (h : ownRead env fuel p data heap es = some (.ok r)) :
    CallEnd p data (readPackets env fuel p es) heap r := by
  cases fuel with
  | zero => cases h
  | succ fuel =>
    rw [ownRead] at h
    rw [readPackets]
    rw [leavesBuffer] at hready
    cases hrecv : recvPacket env p es with
    | error f =>
      rw [hrecv] at h
      cases h
    | ok stage =>
      rw [hrecv] at h hready
      cases stage with
      | exit recvLen p₁ es₁ =>
        obtain ⟨rfl, -⟩ := hready.resolve_right (by rintro ⟨⟩)
        dsimp only at h
        split_ifs at h
        · obtain rfl := Except.ok.inj (Option.some.inj h)
          exact callEnd_exitOwn_alloc hs
        · obtain rfl := Except.ok.inj (Option.some.inj h)
          exact callEnd_exitOwn hs
      | ret rt p₁ es₁ =>
        obtain rfl := Except.ok.inj (Option.some.inj h)
        exact ⟨hs, .refl _ _, by rintro b ⟨⟩, Or.inr (Or.inl ⟨rfl, (recvPacket_frame hrecv).1⟩)⟩
      | packet pkt recvLen p₁ es₁ =>
        obtain ⟨hmng, hflag⟩ := recvPacket_frame hrecv
        dsimp only at h hready ⊢
        have hzero (hz : data = none ∧ p.recvFragMng = .zero) : p₁.recvFragMng.data = none := by
          rw [show p₁.recvFragMng = _ from hmng, hz.2]
          rfl
        cases hfrag : fragProcess env p₁ pkt with
        | error f =>
          rw [hfrag] at h
          cases h
        | ok st =>
          rw [hfrag] at h hready
          rcases fragProcess_owner hfrag with ⟨p₂, rfl, hp₂⟩ | ⟨out, rfl, hshared, -⟩ |
            ⟨out, p₂, rfl, hshared, -, -, hold, -, -⟩ | ⟨p₂, rfl, hmode, hgather, hpkt⟩
          · obtain rfl := Except.ok.inj (Option.some.inj h)
            have hnone : p₂.recvFragMng.data = none := by
              rcases hready with hz | hleft
              · rcases hp₂ with rfl | hnone
                · exact hzero hz
                · exact hnone
              · exact Option.isNone_iff_eq_none.mp hleft
            rw [if_neg (by rw [hnone]; decide)]
            exact callEnd_exitOwn_alloc hs
          · dsimp only at h
            rw [if_neg (by rw [hshared]; decide)] at h
            obtain rfl := Except.ok.inj (Option.some.inj h)
            refine ⟨hs.alloc, Blocks.extends_alloc _ _, ?_, Or.inr (Or.inl ⟨rfl, hmng⟩)⟩
            rintro b hb
            obtain rfl := Option.some.inj hb
            exact ⟨Nat.le_refl _, hs.live_next⟩
          · rcases hready with hz | hleft
            · rw [hzero hz] at hold
              cases hold
            · dsimp only at hleft
              rw [hshared] at hleft
              cases hleft
          · have hstart : pkt.fragFlag = .fragStart := by
              rcases hready with hz | hleft
              · rcases hpkt with ⟨hstart, -⟩ | ⟨-, hold⟩
                · exact hstart
                · rw [hzero hz] at hold
                  cases hold
              · exact of_decide_eq_true hleft
            dsimp only at h
            rw [if_pos hstart] at h
            exact hgather.callEnd hs (hflag.symm.trans hmode)
              (fun _ hmem => List.mem_cons_of_mem _ hmem) h

end Call

/-! ### Runs -/

section Runs

variable {s s' : Owner} {call : OwnCall} {env : AiEnv} {es : Transport} {b : Nat}

/-- The caller has every block it has been handed, and `recv_frag_mng` is empty or has one of them,
with a group that is over. -/
structure Owned (s : Owner) : Prop where
  sound : s.heap.Sound
  nodup : s.held.Nodup
  live : ∀ b ∈ s.held, s.heap.Live b
  data : (s.data = none ∧ s.proto.recvFragMng = .zero) ∨
    (∃ b ∈ s.held, s.data = some b) ∧ s.proto.recvFragMng.data.isSome ∧
      ¬s.proto.recvFragMng.Pending

theorem owned_init {p : AiBasicProto} (hzero : p.recvFragMng = .zero) :
    Owned ⟨p, none, .empty, []⟩ where
  sound := Blocks.sound_empty
  nodup := List.nodup_nil
  live := by rintro b ⟨⟩
  data := Or.inl ⟨rfl, hzero⟩

theorem Owned.callEnd {r : OwnRead} (h : Owned s)
    (hready : s.data = none ∨ leavesBuffer env s.proto es = true)
    (hread : ownPktRead env s.proto s.data s.heap es = some (.ok r)) :
    CallEnd s.proto s.data (callPackets env s.proto es) s.heap r := by
  refine callEnd_ownRead h.sound ?_ hread
  rcases hready with hnone | hleft
  · rcases h.data with hz | ⟨⟨b, -, hb⟩, -⟩
    · exact Or.inl hz
    · exact absurd (hb.symm.trans hnone) (by simp)
  · exact Or.inr hleft

theorem Owned.lt_next (h : Owned s) : ∀ b ∈ s.held, b < s.heap.next := fun b hb => (h.live b hb).1

theorem Owned.pktRead (h : Owned s)
    (hready : s.data = none ∨ leavesBuffer env s.proto es = true)
    (hstep : ownStep s (.pktRead env es) = some s') : Owned s' := by
  rw [ownStep] at hstep
  split at hstep
  · next r hread =>
    obtain rfl := Option.some.inj hstep
    have hend := h.callEnd hready hread
    have hlive : ∀ b ∈ s.held, r.heap.Live b := fun b hb => hend.keeps.2 b (h.live b hb) (by simp)
    refine ⟨hend.sound, ?_, fun b hb => ?_, ?_⟩
    · refine List.nodup_append.mpr ⟨by cases r.out <;> simp, h.nodup, fun b hb c hc => ?_⟩
      have hold := h.lt_next c hc
      have hnew := (hend.fresh b (Option.mem_toList.mp hb)).1
      omega
    · rcases List.mem_append.mp hb with hb | hb
      · exact (hend.fresh b (Option.mem_toList.mp hb)).2
      · exact hlive b hb
    · rcases hend.data with hz | ⟨hdata, hmng⟩ | ⟨hsome, hout, hmng, hpend, -⟩
      · exact Or.inl hz
      · dsimp only
        rw [hdata, hmng]
        exact h.data.imp id fun ⟨⟨b, hb, hbdata⟩, hrest⟩ =>
          ⟨⟨b, List.mem_append_right _ hb, hbdata⟩, hrest⟩
      · obtain ⟨b, hb⟩ := Option.isSome_iff_exists.mp hsome
        exact Or.inr ⟨⟨b, List.mem_append_left _ (Option.mem_toList.mpr (hout ▸ hb)), hb⟩,
          hmng, hpend⟩
  · cases hstep

theorem Owned.pktFree (h : Owned s) (hb : b ∈ s.held) : Owned (ownPktFree s b) := by
  have hsound := h.sound.free (h.live b hb)
  have hlive : ∀ c ∈ s.held.erase b, (s.heap.free b).Live c := fun c hc => by
    obtain ⟨hne, hc⟩ := (List.Nodup.mem_erase_iff h.nodup).mp hc
    exact (h.live c hc).free hne
  rw [ownPktFree]
  split_ifs with hdata
  · exact ⟨hsound, h.nodup.erase b, hlive, Or.inl ⟨rfl, rfl⟩⟩
  · refine ⟨hsound, h.nodup.erase b, hlive, h.data.imp id ?_⟩
    rintro ⟨⟨c, hc, hcdata⟩, hrest⟩
    have hne : c ≠ b := fun heq => hdata (heq ▸ hcdata)
    exact ⟨⟨c, (List.Nodup.mem_erase_iff h.nodup).mpr ⟨hne, hc⟩, hcdata⟩, hrest⟩

theorem Owned.data_of_noGroup {r : OwnRead} (h : Owned s) (hgroup : NoGroup env s.proto es)
    (hend : CallEnd s.proto s.data (callPackets env s.proto es) s.heap r) :
    (r.data = none ∧ r.read.proto.recvFragMng = .zero) ∨
      (∃ b ∈ s.held, r.data = some b) ∧ r.read.proto.recvFragMng.data.isSome ∧
        ¬r.read.proto.recvFragMng.Pending := by
  rcases hend.data with hz | ⟨hdata, hmng⟩ | ⟨-, -, -, -, hmode, pkt, hmem, hlast⟩
  · exact Or.inl hz
  · rw [hdata, hmng]
    exact h.data
  · rcases hgroup with hgroup | hgroup
    · exact absurd (hmode.symm.trans hgroup) (by decide)
    · exact absurd hlast (hgroup pkt hmem)

theorem Owned.authResp (h : Owned s)
    (hready : s.data = none ∨ leavesBuffer env s.proto es = true)
    (hgroup : NoGroup env s.proto es) (hstep : ownStep s (.authResp env es) = some s') :
    Owned s' := by
  rw [ownStep] at hstep
  split at hstep
  · next r hread =>
    have hend := h.callEnd hready hread
    have hdata := h.data_of_noGroup hgroup hend
    have hlive : ∀ b ∈ s.held, r.heap.Live b := fun b hb => hend.keeps.2 b (h.live b hb) (by simp)
    rw [ownAuthResp] at hstep
    split_ifs at hstep
    · obtain rfl := Option.some.inj hstep
      exact ⟨hend.sound, h.nodup, hlive, hdata⟩
    · split at hstep
      · cases hstep
      · next b hout =>
        obtain rfl := Option.some.inj hstep
        obtain ⟨hnew, hblive⟩ := hend.fresh b hout
        refine ⟨hend.sound.free hblive, h.nodup, fun c hc => (hlive c hc).free ?_, hdata⟩
        have hold := h.lt_next c hc
        omega
  · cases hstep

theorem Owned.step (h : Owned s) (hready : ownerReady s call) (hstep : ownStep s call = some s') :
    Owned s' := by
  cases call with
  | pktRead env es => exact h.pktRead hready hstep
  | pktFree b =>
    obtain rfl := Option.some.inj hstep
    exact h.pktFree hready
  | authResp env es => exact h.authResp hready.1 hready.2 hstep

theorem Owned.singleOwner (h : Owned s) :
    s.heap.freed.Nodup ∧ ∀ b, s.data = some b → b ∉ s.heap.freed := by
  refine ⟨h.sound.nodup, fun b hb => ?_⟩
  rcases h.data with ⟨hnone, -⟩ | ⟨⟨c, hc, hdata⟩, -⟩
  · exact absurd (hb.symm.trans hnone) (by simp)
  · obtain rfl := Option.some.inj (hdata.symm.trans hb)
    exact (h.live c hc).2

/-- **Single owner.** In every run of reads, frees and authentication responses in which every call
meets the condition, no block is freed twice, and no call leaves one in `recv_frag_mng` that it has
freed. -/
theorem singleOwner_of_handedBack {p : AiBasicProto} {calls : List OwnCall}
    (hzero : p.recvFragMng = .zero)
    (h : Guarded ownNext HandedBack (some ⟨p, none, .empty, []⟩) calls) :
    Guarded ownNext SingleOwner (some ⟨p, none, .empty, []⟩) calls := by
  have hnext (s : Option Owner) (call : OwnCall) (hs : ∀ s', s = some s' → Owned s')
      (hready : HandedBack s call) : ∀ s', ownNext s call = some s' → Owned s' := by
    intro s' hs'
    obtain ⟨s₁, rfl, hstep⟩ := Option.bind_eq_some_iff.mp hs'
    exact (hs s₁ rfl).step (hready s₁ rfl) hstep
  refine Guarded.of_invariant (fun s call hs hready s' hs' => ?_) hnext ?_ h
  · obtain ⟨hnodup, hdata⟩ := (hnext s call hs hready s' hs').singleOwner
    exact ⟨hnodup, fun _ => hdata⟩
  · rintro s' hs'
    obtain rfl := Option.some.inj hs'
    exact owned_init hzero

def sampleOwner : Owner := ⟨sampleProto, none, .empty, []⟩

/-- A group is read and freed, and an authentication response fails. -/
theorem singleOwner_of_handedBack_sampleFragments :
    Guarded ownNext SingleOwner (some sampleOwner)
      [.pktRead sampleEnv sampleFragments, .pktFree 1,
        .authResp sampleEnv [.status ⟨oprtComError, by decide⟩]] :=
  singleOwner_of_handedBack rfl (by decide +kernel)

/-- After an authentication response in fragments the block of `recv_frag_mng` is free, and the next
read frees it again. -/
theorem not_singleOwner_authGroup :
    ¬Guarded ownNext SingleOwner (some sampleOwner)
        [.authResp sampleEnv sampleFragments, .pktRead sampleEnv []] ∧
      (([.authResp sampleEnv sampleFragments, .pktRead sampleEnv []].foldl ownNext
        (some sampleOwner)).map fun s => s.heap.freed) = some [1, 1, 2, 0] := by
  have hstep : (ownNext (some sampleOwner) (.authResp sampleEnv sampleFragments)).map
      (fun s => (s.data, s.heap.freed)) = some (some 1, [1, 2, 0]) := by
    decide +kernel
  obtain ⟨s', hs', hfreed⟩ := Option.map_eq_some_iff.mp hstep
  have hnot : ¬SingleOwner (some sampleOwner) (.authResp sampleEnv sampleFragments) := by
    intro h
    have hlive := (h s' hs').2 rfl 1 (Prod.mk.inj hfreed).1
    rw [(Prod.mk.inj hfreed).2] at hlive
    exact hlive List.mem_cons_self
  exact ⟨fun h => hnot h.1, by decide +kernel⟩

end Runs

end TuyaOpen.AiProtocol
