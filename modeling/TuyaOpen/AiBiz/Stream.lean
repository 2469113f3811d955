import TuyaOpen.AiBiz.Receive

/-!
# Delivery of AI streams

A payload that is whole, or a group of fragments, leads to calls of the callback that is registered
for the channel in the header. The header and the length in it are taken as they are, and the later
fragments go to the callback without its `usr_data`.
-/

namespace TuyaOpen.AiBiz

open AiProtocol

variable {κ υ : Type*}

/-! ### Groups -/

/-- A fragment: the memory that may be read, of which `len` bytes have been received. -/
structure Fragment where
  mem : Bytes
  len : Nat
  len_le : len ≤ mem.length

/-- A payload that is whole, or a start and later fragments, each with the mark of the end or
not. -/
inductive BizGroup
  | whole (p : Fragment)
  | fragments (start : Fragment) (later : List (Fragment × Bool))

def BizGroup.first : BizGroup → Fragment
  | .whole p => p
  | .fragments start _ => start

def BizGroup.later : BizGroup → List (Fragment × AiFragFlag)
  | .whole _ => []
  | .fragments _ later => later.map fun p => (p.1, if p.2 then .fragEnd else .fragIng)

def BizGroup.pieces : BizGroup → List (Fragment × AiFragFlag)
  | .whole p => [(p, .noFrag)]
  | .fragments start later => (start, .fragStart) :: (BizGroup.fragments start later).later

/-- `__ai_biz_recv_handle` on one fragment after the other. -/
def recvFragments (fuel : Nat) (calls : BizCallbacks κ υ) (biz : AiBasicBiz κ υ) :
    List (Fragment × AiFragFlag) →
      Option (Except BizFault (List (BizRecvOut κ υ) × AiBasicBiz κ υ))
  | [] => some (.ok ([], biz))
  | p :: ps =>
    match aiBizRecvHandle fuel calls biz p.1.mem p.1.len p.2 with
    | none => none
    | some (.error f) => some (.error f)
    | some (.ok (out, biz)) =>
      (recvFragments fuel calls biz ps).map fun r => r.map fun r => (out :: r.1, r.2)

/-- The header of a stream and the data pointer are inside the fragment, and the data has as many
bytes there as the callback is told. -/
def InFragment (p : Fragment) (out : BizRecvOut κ υ) : Prop :=
  (∀ span, out.headSpan = some span → span.1 + span.2 ≤ p.len) ∧
    ∀ d, out.delivered = some d → d.data ≤ p.len ∧ d.head.len ≤ p.len - d.data

/-- The callback of a call and its `usr_data`. -/
def BizRecvOut.target (out : BizRecvOut κ υ) : Option (κ × Option υ) :=
  out.delivered.map fun d => (d.cb, d.usrData)

/-- If the calls return, then headers and data are inside the fragments, and all fragments go to one
callback with one `usr_data`, or to none. No header is read outside of memory. -/
def Coherent (calls : BizCallbacks κ υ) (biz : AiBasicBiz κ υ) (g : BizGroup) : Prop :=
  ∀ fuel r, recvFragments fuel calls biz g.pieces = some r →
    r ≠ .error .bizHead ∧ ∀ outs biz', r = .ok (outs, biz') →
      List.Forall₂ InFragment (g.pieces.map Prod.fst) outs ∧
        ∃ target, ∀ out ∈ outs, out.target = target

/-- The payload is that of a stream of the given type, its attributes are accepted, and its header
is at the given offset. -/
inductive ReachesHead (mem : Bytes) : Nat → Nat → Prop
  | plain {b : UInt8} {rest : Bytes} (hmem : mem = b :: rest) (hflag : b.toNat % 2 = 0)
      (hvaild : aiIsBizPktVaild (b.toNat / 2) = true) (hclose : b.toNat / 2 ≠ aiPtSessionClose)
      (hevent : b.toNat / 2 ≠ aiPtEvent) : ReachesHead mem (b.toNat / 2) (u32 (1 + 4))
  | attrs {b : UInt8} {rest attrLen : Bytes} {fuel : Nat} {value : AiBizAttrValue}
      (hmem : mem = b :: rest) (hflag : b.toNat % 2 = 1)
      (hvaild : aiIsBizPktVaild (b.toNat / 2) = true) (hclose : b.toNat / 2 ≠ aiPtSessionClose)
      (hevent : b.toNat / 2 ≠ aiPtEvent) (hlen : readSpan mem 1 4 = some attrLen)
      (hattrs : aiParseBizAttr fuel (b.toNat / 2) (mem.drop 5) (beNat attrLen) =
        some (.ok value)) :
      ReachesHead mem (b.toNat / 2) (u32 (u32 (5 + beNat attrLen) + 4))

def headLen (mem : Bytes) (type offset : Nat) : Nat :=
  beNat (slice mem (offset + bizHeadSize type - 4) 4)

/-- If the first fragment has the header of a stream, then the header is inside the fragment; and if
a callback is registered for its channel, then so is the data of the length in the header, and
there are no later fragments or the callback has no `usr_data`. -/
def StreamFits (biz : AiBasicBiz κ υ) (g : BizGroup) : Prop :=
  ∀ type offset, ReachesHead g.first.mem type offset →
    offset + bizHeadSize type ≤ g.first.len ∧
      ∀ cb usrData, findReceiver (beNat (slice g.first.mem offset 2)) biz.session none =
          (some cb, usrData) →
        headLen g.first.mem type offset ≤ g.first.len - (offset + bizHeadSize type) ∧
          (g.later = [] ∨ usrData = none)

/-! ### The start of a group -/

section Start

variable {fuel : Nat} {calls : BizCallbacks κ υ} {biz : AiBasicBiz κ υ} {mem : Bytes}

def NoStream (r : Except BizFault (BizRecvOut κ υ × AiBasicBiz κ υ)) : Prop :=
  r ≠ .error .bizHead ∧ ∀ out biz', r = .ok (out, biz') →
    out.headSpan = none ∧ out.delivered = none ∧ biz'.cb = none

theorem noStream_ok {out : BizRecvOut κ υ} (hspan : out.headSpan = none)
    (hdelivered : out.delivered = none) (hcb : biz.cb = none) : NoStream (.ok (out, biz)) := by
  refine ⟨fun h => (by cases h), fun out' biz' h => ?_⟩
  obtain ⟨rfl, rfl⟩ := Prod.mk.inj (Except.ok.inj h)
  exact ⟨hspan, hdelivered, hcb⟩

theorem noStream_error {f : BizFault} (h : f ≠ .bizHead) :
    NoStream (.error f : Except BizFault (BizRecvOut κ υ × AiBasicBiz κ υ)) := by
  refine ⟨fun heq => h (Except.error.inj heq), fun out biz' heq => ?_⟩
  cases heq

theorem noStream_event (hcb : biz.cb = none) (offset : Nat) (event : AiEventAttr) :
    NoStream ((aiBizRecvEvent calls biz mem offset event).map fun out => (out, biz)) := by
  rw [aiBizRecvEvent]
  cases readSpan mem offset 2 with
  | none => exact noStream_error BizFault.noConfusion
  | some type =>
    cases findEventCb (event.sessionId.getD []) biz.session with
    | none => exact noStream_error BizFault.noConfusion
    | some r =>
      cases r with
      | none => exact noStream_ok rfl rfl hcb
      | some cb => exact noStream_ok rfl rfl hcb

theorem cb_sessionDestory {id : Option Bytes} {close : Option OperateRet} {rt : OperateRet}
    {biz' : Option (AiBasicBiz κ υ)}
    (h : aiBizSessionDestory id close (some biz) = some (rt, biz')) :
    (biz'.getD biz).cb = biz.cb := by
  cases id with
  | none =>
    obtain ⟨-, rfl⟩ := Prod.mk.inj (Option.some.inj h)
    rfl
  | some id =>
    rw [aiBizSessionDestory] at h
    split at h
    · cases h
    · obtain ⟨-, rfl⟩ := Prod.mk.inj (Option.some.inj h)
      rfl
    · obtain ⟨-, rfl⟩ := Prod.mk.inj (Option.some.inj h)
      rfl

theorem recvBehindAttrs_cases (hcb : biz.cb = none) (offset : Nat) (info : AiBizAttrInfo) :
    (info.type ≠ aiPtSessionClose ∧ info.type ≠ aiPtEvent ∧
        recvBehindAttrs calls biz mem offset info =
          recvStream calls biz mem (u32 (offset + 4)) info) ∨
      NoStream (recvBehindAttrs calls biz mem offset info) := by
  rw [recvBehindAttrs]
  by_cases hclose : info.type = aiPtSessionClose
  · right
    rw [if_pos hclose]
    dsimp only
    split
    · exact noStream_error BizFault.noConfusion
    · next rt biz' h => exact noStream_ok rfl rfl ((cb_sessionDestory h).trans hcb)
  · rw [if_neg hclose]
    by_cases hevent : info.type = aiPtEvent
    · right
      rw [if_pos hevent]
      exact noStream_event hcb _ _
    · left
      exact ⟨hclose, hevent, if_neg hevent⟩

/-- **The start of a group** reads the header of a stream, or has nothing to do with one. -/
theorem recvStart_cases {r : Except BizFault (BizRecvOut κ υ × AiBasicBiz κ υ)}
    (h : recvStart fuel calls biz mem = some r) :
    (∃ type offset info, ReachesHead mem type offset ∧ info.type = type ∧
        r = recvStream calls { biz with cb := none } mem offset info) ∨ NoStream r := by
  cases mem with
  | nil =>
    obtain rfl := Option.some.inj h
    exact .inr (noStream_error BizFault.noConfusion)
  | cons b rest =>
    rw [recvStart] at h
    by_cases hvaild : aiIsBizPktVaild (b.toNat / 2) = true
    · rw [if_pos hvaild] at h
      by_cases hflag : b.toNat % 2 = 1
      · rw [if_pos hflag] at h
        cases hlen : readSpan (b :: rest) 1 4 with
        | none =>
          rw [hlen] at h
          obtain rfl := Option.some.inj h
          exact .inr (noStream_error BizFault.noConfusion)
        | some attrLen =>
          rw [hlen] at h
          dsimp only at h
          cases hattrs : aiParseBizAttr fuel (b.toNat / 2) ((b :: rest).drop 5)
              (beNat attrLen) with
          | none =>
            rw [hattrs] at h
            cases h
          | some res =>
            rw [hattrs] at h
            cases res with
            | error stop =>
              cases stop with
              | fault f =>
                obtain rfl := Option.some.inj h
                exact .inr (noStream_error BizFault.noConfusion)
              | err rt =>
                obtain rfl := Option.some.inj h
                exact .inr (noStream_ok rfl rfl rfl)
            | ok value =>
              obtain rfl := Option.some.inj h
              refine (recvBehindAttrs_cases rfl _ _).imp_left ?_
              rintro ⟨hclose, hevent, heq⟩
              exact ⟨_, _, _, .attrs rfl hflag hvaild hclose hevent hlen hattrs, rfl, heq⟩
      · rw [if_neg hflag] at h
        obtain rfl := Option.some.inj h
        refine (recvBehindAttrs_cases rfl _ _).imp_left ?_
        rintro ⟨hclose, hevent, heq⟩
        exact ⟨_, _, _, .plain rfl (by omega) hvaild hclose hevent, rfl, heq⟩
    · rw [if_neg hvaild] at h
      obtain rfl := Option.some.inj h
      exact .inr (noStream_ok rfl rfl rfl)

theorem exists_recvStart {type offset : Nat} (h : ReachesHead mem type offset)
    (calls : BizCallbacks κ υ) (biz : AiBasicBiz κ υ) :
    ∃ fuel info, info.type = type ∧ recvStart fuel calls biz mem =
      some (recvStream calls { biz with cb := none } mem offset info) := by
  cases h with
  | @plain b rest hmem hflag hvaild hclose hevent =>
    refine ⟨0, ⟨b.toNat % 2, b.toNat / 2, .zero⟩, rfl, ?_⟩
    rw [hmem, recvStart, if_pos hvaild, if_neg (by omega), recvBehindAttrs, if_neg hclose,
      if_neg hevent]
  | @attrs b rest attrLen fuel value hmem hflag hvaild hclose hevent hlen hattrs =>
    refine ⟨fuel, ⟨b.toNat % 2, b.toNat / 2, value⟩, rfl, ?_⟩
    rw [hmem] at hlen hattrs ⊢
    rw [recvStart, if_pos hvaild, if_pos hflag, hlen]
    dsimp only
    rw [hattrs]
    dsimp only
    rw [recvBehindAttrs, if_neg hclose, if_neg hevent]

end Start

/-! ### Streams -/

section Stream

variable {calls : BizCallbacks κ υ} {biz : AiBasicBiz κ υ} {mem : Bytes} {offset : Nat}
  {info : AiBizAttrInfo}

theorem len_aiParseBizHead (mem : Bytes) (type offset : Nat) :
    (aiParseBizHead type (slice mem offset (bizHeadSize type))).len = headLen mem type offset := by
  unfold aiParseBizHead headLen bizHeadSize
  split_ifs
  · exact congrArg beNat (slice_slice (by decide))
  · exact congrArg beNat (slice_slice (by decide))
  · exact congrArg beNat (slice_slice (by decide))

theorem slice_channel (mem : Bytes) (type offset : Nat) :
    slice (slice mem offset (bizHeadSize type)) 0 2 = slice mem offset 2 := by
  have hsize : 2 ≤ bizHeadSize type := by
    unfold bizHeadSize
    split_ifs <;> decide
  exact slice_slice hsize

theorem recvStream_of_lt (h : mem.length < offset + bizHeadSize info.type) :
    recvStream calls biz mem offset info = .error .bizHead := by
  rw [recvStream, readSpan_eq_none h]

theorem recvStream_of_le (h : offset + bizHeadSize info.type ≤ mem.length) :
    ∃ out biz', recvStream calls biz mem offset info = .ok (out, biz') ∧
      out.headSpan = some (offset, bizHeadSize info.type) ∧
      ((∃ usrData, findReceiver (beNat (slice mem offset 2)) biz.session none = (none, usrData) ∧
          out.delivered = none ∧ biz'.cb = biz.cb) ∨
        ∃ cb usrData d, findReceiver (beNat (slice mem offset 2)) biz.session none =
            (some cb, usrData) ∧ out.delivered = some d ∧ biz'.cb = some cb ∧ d.cb = cb ∧
          d.usrData = usrData ∧ d.data = offset + bizHeadSize info.type ∧
          d.head.len = headLen mem info.type offset) := by
  have hlen := len_aiParseBizHead mem info.type offset
  rw [recvStream, readSpan_of_le h]
  dsimp only
  rw [slice_channel]
  cases hfind : findReceiver (beNat (slice mem offset 2)) biz.session none with
  | mk cb usrData =>
    cases cb with
    | none => exact ⟨_, _, rfl, rfl, .inl ⟨usrData, rfl, rfl, rfl⟩⟩
    | some cb => exact ⟨_, _, rfl, rfl, .inr ⟨cb, usrData, _, rfl, rfl, rfl, rfl, rfl, rfl, hlen⟩⟩

end Stream

/-! ### Later fragments -/

section Later

variable {fuel : Nat} {calls : BizCallbacks κ υ} {biz : AiBasicBiz κ υ} {g : BizGroup}

def laterOuts (calls : BizCallbacks κ υ) (biz : AiBasicBiz κ υ) (g : BizGroup) :
    List (BizRecvOut κ υ) :=
  g.later.map fun p => (recvLater calls biz p.1.len).1

theorem recvLater_snd (calls : BizCallbacks κ υ) (biz : AiBasicBiz κ υ) (len : Nat) :
    (recvLater calls biz len).2 = biz := by
  unfold recvLater
  cases biz.cb <;> rfl

theorem recvFragments_later (fuel : Nat) (calls : BizCallbacks κ υ) (biz : AiBasicBiz κ υ)
    (g : BizGroup) :
    recvFragments fuel calls biz g.later = some (.ok (laterOuts calls biz g, biz)) := by
  have hflags : ∀ p ∈ g.later, ¬(p.2 = .noFrag ∨ p.2 = .fragStart) := by
    cases g with
    | whole p => exact nofun
    | fragments start later =>
      intro p hp
      obtain ⟨q, -, rfl⟩ := List.mem_map.mp hp
      cases q.2
      · exact (by decide : ¬(AiFragFlag.fragIng = .noFrag ∨ AiFragFlag.fragIng = .fragStart))
      · exact (by decide : ¬(AiFragFlag.fragEnd = .noFrag ∨ AiFragFlag.fragEnd = .fragStart))
  unfold laterOuts
  generalize g.later = ps at hflags
  induction ps with
  | nil => rfl
  | cons p ps ih =>
    obtain ⟨hp, hps⟩ := List.forall_mem_cons.mp hflags
    have hstep : recvLater calls biz p.1.len = ((recvLater calls biz p.1.len).1, biz) :=
      Prod.ext rfl (recvLater_snd calls biz p.1.len)
    rw [recvFragments, aiBizRecvHandle, if_neg hp, hstep]
    dsimp only
    rw [ih hps]
    rfl

theorem recvLater_spec (calls : BizCallbacks κ υ) (biz : AiBasicBiz κ υ) (p : Fragment) :
    InFragment p (recvLater calls biz p.len).1 ∧
      (recvLater calls biz p.len).1.target = biz.cb.map fun cb => (cb, none) := by
  unfold recvLater
  cases biz.cb with
  | none => exact ⟨⟨nofun, nofun⟩, rfl⟩
  | some cb =>
    refine ⟨⟨nofun, fun d hd => ?_⟩, rfl⟩
    obtain rfl := Option.some.inj hd
    exact ⟨Nat.zero_le _, Nat.le_refl _⟩

theorem forall₂_laterOuts (calls : BizCallbacks κ υ) (biz : AiBasicBiz κ υ) (g : BizGroup) :
    List.Forall₂ InFragment (g.later.map Prod.fst) (laterOuts calls biz g) := by
  rw [laterOuts, List.forall₂_map_left_iff, List.forall₂_map_right_iff, List.forall₂_same]
  intro p _
  exact (recvLater_spec calls biz p.1).1

theorem recvFragments_pieces (fuel : Nat) (calls : BizCallbacks κ υ) (biz : AiBasicBiz κ υ)
    (g : BizGroup) :
    recvFragments fuel calls biz g.pieces =
      (recvStart fuel calls biz g.first.mem).map fun r =>
        r.map fun r => (r.1 :: laterOuts calls r.2 g, r.2) := by
  obtain ⟨frag, hpieces, hfrag⟩ : ∃ frag, g.pieces = (g.first, frag) :: g.later ∧
      (frag = .noFrag ∨ frag = .fragStart) := by
    cases g with
    | whole p => exact ⟨.noFrag, rfl, .inl rfl⟩
    | fragments start later => exact ⟨.fragStart, rfl, .inr rfl⟩
  rw [hpieces, recvFragments, aiBizRecvHandle, if_pos hfrag]
  cases recvStart fuel calls biz g.first.mem with
  | none => rfl
  | some r =>
    cases r with
    | error f => rfl
    | ok r =>
      dsimp only
      rw [recvFragments_later]
      rfl

theorem coherent_outs {out : BizRecvOut κ υ} {biz' : AiBasicBiz κ υ}
    (hfirst : InFragment g.first out)
    (htarget : g.later = [] ∨ out.target = biz'.cb.map fun cb => (cb, none)) :
    List.Forall₂ InFragment (g.pieces.map Prod.fst) (out :: laterOuts calls biz' g) ∧
      ∃ target, ∀ o ∈ out :: laterOuts calls biz' g, o.target = target := by
  have hpieces : g.pieces.map Prod.fst = g.first :: g.later.map Prod.fst := by
    cases g <;> rfl
  refine ⟨?_, out.target, List.forall_mem_cons.mpr ⟨rfl, fun o ho => ?_⟩⟩
  · rw [hpieces]
    exact .cons hfirst (forall₂_laterOuts calls biz' g)
  · obtain ⟨p, hp, rfl⟩ := List.mem_map.mp ho
    rcases htarget with hnil | htarget
    · rw [hnil] at hp
      cases hp
    · rw [htarget]
      exact (recvLater_spec calls biz' p.1).2

end Later

/-! ### Coherence -/

section Coherence

variable {biz : AiBasicBiz κ υ} {g : BizGroup}

theorem coherent_outs_of_noStream {calls : BizCallbacks κ υ} {out : BizRecvOut κ υ}
    {biz' : AiBasicBiz κ υ} (hspan : out.headSpan = none) (hdelivered : out.delivered = none)
    (hcb : biz'.cb = none) :
    List.Forall₂ InFragment (g.pieces.map Prod.fst) (out :: laterOuts calls biz' g) ∧
      ∃ target, ∀ o ∈ out :: laterOuts calls biz' g, o.target = target := by
  refine coherent_outs ⟨fun span h => ?_, fun d h => ?_⟩ (.inr ?_)
  · rw [hspan] at h
    cases h
  · rw [hdelivered] at h
    cases h
  · rw [BizRecvOut.target, hdelivered, hcb]
    rfl

theorem coherent_of_streamFits (calls : BizCallbacks κ υ) (h : StreamFits biz g) :
    Coherent calls biz g := by
  intro fuel r hr
  rw [recvFragments_pieces] at hr
  obtain ⟨r₁, hstart, rfl⟩ := Option.map_eq_some_iff.mp hr
  rcases recvStart_cases hstart with ⟨type, offset, info, hreach, rfl, rfl⟩ | ⟨hne, hno⟩
  · obtain ⟨hle, hfits⟩ := h info.type offset hreach
    obtain ⟨out, biz', hstream, hspan, hout⟩ :=
      @recvStream_of_le _ _ calls { biz with cb := none } _ _ info (hle.trans g.first.len_le)
    rw [hstream]
    refine ⟨fun hc => (by cases hc), fun outs biz₁ hok => ?_⟩
    obtain ⟨rfl, rfl⟩ := Prod.mk.inj (Except.ok.inj hok)
    have hspan' (span : Nat × Nat) (hs : out.headSpan = some span) :
        span.1 + span.2 ≤ g.first.len := by
      rw [hspan] at hs
      rwa [← Option.some.inj hs]
    rcases hout with ⟨-, -, hnone, hcb⟩ | ⟨cb, usrData, d, hfind, hsome, hcb, rfl, rfl, hdata, hlen⟩
    · refine coherent_outs ⟨hspan', fun d hd => ?_⟩ (.inr ?_)
      · rw [hnone] at hd
        cases hd
      · rw [BizRecvOut.target, hnone, hcb]
        rfl
    · obtain ⟨hhead, htarget⟩ := hfits d.cb d.usrData hfind
      refine coherent_outs ⟨hspan', fun d' hd => ?_⟩ (htarget.imp_right fun husr => ?_)
      · rw [hsome] at hd
        obtain rfl := Option.some.inj hd
        rw [hdata, hlen]
        exact ⟨hle, hhead⟩
      · rw [BizRecvOut.target, hsome, hcb, Option.map_some, Option.map_some, husr]
  · cases r₁ with
    | error f =>
      refine ⟨fun hc => hne (congrArg Except.error (Except.error.inj hc)), fun outs biz₁ hok => ?_⟩
      cases hok
    | ok r₁ =>
      obtain ⟨hspan, hdelivered, hcb⟩ := hno r₁.1 r₁.2 rfl
      refine ⟨fun hc => (by cases hc), fun outs biz₁ hok => ?_⟩
      obtain ⟨rfl, rfl⟩ := Prod.mk.inj (Except.ok.inj hok)
      exact coherent_outs_of_noStream hspan hdelivered hcb

theorem streamFits_of_coherent {calls : BizCallbacks κ υ} (h : Coherent calls biz g) :
    StreamFits biz g := by
  intro type offset hreach
  obtain ⟨fuel, info, rfl, hstart⟩ := exists_recvStart hreach calls biz
  have hrun := recvFragments_pieces fuel calls biz g
  rw [hstart] at hrun
  obtain ⟨hne, hcoherent⟩ := h fuel _ hrun
  have hmem : offset + bizHeadSize info.type ≤ g.first.mem.length := by
    by_contra hlt
    apply hne
    rw [recvStream_of_lt (Nat.lt_of_not_le hlt)]
    rfl
  obtain ⟨out, biz', hstream, hspan, hout⟩ :=
    @recvStream_of_le _ _ calls { biz with cb := none } _ _ info hmem
  obtain ⟨hinside, target, htarget⟩ := hcoherent _ _ (by rw [hstream]; rfl)
  have hpieces : g.pieces.map Prod.fst = g.first :: g.later.map Prod.fst := by
    cases g <;> rfl
  rw [hpieces] at hinside
  cases hinside with
  | cons hfirst hrest =>
    refine ⟨hfirst.1 _ hspan, fun cb usrData hfind => ?_⟩
    rcases hout with ⟨usr, hnone, -, -⟩ | ⟨cb', usr, d, hsome, hd, hcb, rfl, rfl, hdata, hlen⟩
    · cases hnone.symm.trans hfind
    · obtain ⟨-, rfl⟩ := Prod.mk.inj (hsome.symm.trans hfind)
      obtain ⟨-, hbytes⟩ := hfirst.2 d hd
      rw [hdata, hlen] at hbytes
      refine ⟨hbytes, ?_⟩
      cases hlater : g.later with
      | nil => exact .inl rfl
      | cons p ps =>
        have hpiece : (recvLater calls biz' p.1.len).1 ∈ out :: laterOuts calls biz' g := by
          rw [laterOuts, hlater]
          exact .tail _ (.head _)
        have hsame := (htarget out (.head _)).trans (htarget _ hpiece).symm
        rw [(recvLater_spec calls biz' p.1).2, BizRecvOut.target, hd, hcb] at hsame
        exact .inr (congrArg Prod.snd (Option.some.inj hsame))

/-- **Delivery is coherent** for the groups whose header and data are inside the first fragment, if
later fragments do not miss `usr_data`. -/
theorem coherent_iff (calls : BizCallbacks κ υ) (biz : AiBasicBiz κ υ) (g : BizGroup) :
    Coherent calls biz g ↔ StreamFits biz g :=
  ⟨streamFits_of_coherent, coherent_of_streamFits calls⟩

/-- A session with a callback that has `usr_data`, for channel 2. -/
def sampleBiz : AiBasicBiz Unit Unit where
  thread := false
  session := ⟨[97], ⟨[], [⟨2, some (), some ()⟩], none, by decide, by decide⟩⟩ ::
    List.replicate 5 AiSession.zero
  cb := none
  length_session := rfl

/-- A text of two bytes, the second one in a fragment of its own. The header gives the length of the
part in the first fragment. -/
def sampleGroup : BizGroup :=
  .fragments ⟨[68, 0, 0, 0, 8, 0, 2, 64, 0, 0, 0, 1, 104], 13, Nat.le_refl _⟩
    [(⟨[105], 1, Nat.le_refl _⟩, true)]

/-- The second fragment goes to the callback without `usr_data`. -/
theorem not_coherent_sampleGroup :
    ¬∀ (calls : BizCallbacks Unit Unit) (biz : AiBasicBiz Unit Unit) (g : BizGroup),
      Coherent calls biz g := by
  intro h
  have hfits := streamFits_of_coherent
    (h ⟨fun _ => oprtOk, fun _ => oprtOk⟩ sampleBiz sampleGroup)
  have hreach : ReachesHead sampleGroup.first.mem 34 5 := by
    have hplain : ReachesHead sampleGroup.first.mem ((68 : UInt8).toNat / 2) (u32 (1 + 4)) :=
      .plain rfl (by decide) (by decide) (by decide) (by decide)
    rwa [u32_of_lt (by decide)] at hplain
  obtain ⟨-, hcall⟩ := hfits 34 5 hreach
  obtain ⟨-, hnone⟩ := hcall () (some ()) (by decide)
  rcases hnone with hnil | husr
  · cases hnil
  · cases husr

end Coherence

end TuyaOpen.AiBiz
