import TuyaOpen.AiProtocol.UserAttrs

/-!
# Safety of the attribute parser

`tuya_parse_user_attrs` on arbitrary bytes. The parser believes the lengths it finds: it does not
compare them with what is left, it adds them to an offset of 32 bits, and it copies as many bytes
into an integer before `__ai_check_attr_vaild` looks at the length. So it need not end, and it may
read behind `attr_len`, write behind an integer, or accept a last attribute that is cut off.

It does no harm just when both loops stay inside: all heads are inside, and up to the first
attribute that is refused the integers are no longer than their types, and inside. The array is
never too small, because both loops go through the same offsets.

## Main results

* `Walk.length_le`: a walk that ends goes through every offset once.
* `parseUserAttrsLoop_of_orderly`, `orderly_of_parseUserAttrsLoop`.
* `safeParse_iff`.
-/

namespace TuyaOpen.AiProtocol

/-! ### What should be true -/

/-- From an offset on the attributes tile the buffer. -/
inductive Tiling (deBuf : Bytes) : Nat → Prop
  | done : Tiling deBuf deBuf.length
  | step {offset : Nat}
      (hfits : offset + attributeHeadSize + attrLength deBuf offset ≤ deBuf.length)
      (hrest : Tiling deBuf (offset + attributeHeadSize + attrLength deBuf offset)) :
      Tiling deBuf offset

/-- `tuya_parse_user_attrs` returns, does none of the things it must not do, and returns `OPRT_OK`
only if the attributes tile the buffer. -/
def SafeParse (deBuf : Bytes) : Prop :=
  ∀ malloc : Nat → Bool, ∃ fuel r,
    tuyaParseUserAttrs malloc fuel deBuf deBuf.length = some (.ok r) ∧
      (r.rt = oprtOk → Tiling deBuf 0)

/-! ### What the second loop finds -/

def headAt (deBuf : Bytes) (offset : Nat) : AiAttribute where
  type := UInt16.ofNat (beNat (slice deBuf offset 2))
  payloadType := (slice deBuf (u32 (offset + 2)) 1).getD 0 0
  length := UInt32.ofNat (attrLength deBuf offset)
  scalar := 0
  mem := []

/-- The attribute at an offset is of one of the six payload types and passes
`__ai_check_attr_vaild`. -/
def accepted (deBuf : Bytes) (offset : Nat) : Bool :=
  decide ((headAt deBuf offset).payloadType ∈ [1, 2, 3, 4, 5, 6]) &&
    aiCheckAttrVaild (headAt deBuf offset)

/-- Type and payload type of the attribute at an offset are inside the buffer, and if it is an
integer, its value is no longer than its type, and inside. -/
structure ReadsInside (deBuf : Bytes) (offset : Nat) : Prop where
  type : offset + 2 ≤ deBuf.length
  payloadType : u32 (offset + 2) + 1 ≤ deBuf.length
  value : ∀ k, integerSize (headAt deBuf offset).payloadType = some k →
    attrLength deBuf offset ≤ k ∧
      u32 (offset + attributeHeadSize) + attrLength deBuf offset ≤ deBuf.length

/-- The attributes at the offsets are read inside, up to the first that is refused. -/
def Orderly (deBuf : Bytes) : List Nat → Prop
  | [] => True
  | offset :: offsets =>
    ReadsInside deBuf offset ∧ (accepted deBuf offset = true → Orderly deBuf offsets)

/-! ### One attribute -/

section Value

variable {deBuf : Bytes} {offset k length : Nat} {payloadType : UInt8}

theorem copyInteger_of_fits (h : length ≤ k ∧ offset + length ≤ deBuf.length) :
    ∃ v, copyInteger deBuf k offset length = .ok v := by
  rw [copyInteger, if_neg (Nat.not_lt.mpr h.1), readSpan_of_le h.2]
  exact ⟨_, rfl⟩

theorem copyInteger_of_not_fits (h : ¬(length ≤ k ∧ offset + length ≤ deBuf.length)) :
    ∃ f, copyInteger deBuf k offset length = .error (.fault f) := by
  rw [copyInteger]
  split_ifs with hlong
  · exact ⟨_, rfl⟩
  · have hout : deBuf.length < offset + length :=
      Nat.not_le.mp fun hin => h ⟨Nat.not_lt.mp hlong, hin⟩
    rw [readSpan_eq_none hout]
    exact ⟨_, rfl⟩

theorem readAttrValue_integer (hk : integerSize payloadType = some k) :
    ∃ swap : Nat → Nat, readAttrValue deBuf offset payloadType length =
      copyInteger deBuf k offset length >>= fun v => .ok (swap v, []) := by
  rw [integerSize] at hk
  rw [readAttrValue]
  split_ifs at hk ⊢
  all_goals obtain rfl := Option.some.inj hk
  · exact ⟨id, rfl⟩
  · exact ⟨wordSwap, rfl⟩
  · exact ⟨dwordSwap, rfl⟩
  · exact ⟨ddwordSwap, rfl⟩

theorem readAttrValue_of_fits
    (h : ∀ k, integerSize payloadType = some k → length ≤ k ∧ offset + length ≤ deBuf.length) :
    (payloadType ∈ [1, 2, 3, 4, 5, 6] →
        ∃ v, readAttrValue deBuf offset payloadType length = .ok v) ∧
      (payloadType ∉ [1, 2, 3, 4, 5, 6] →
        ∃ rt, readAttrValue deBuf offset payloadType length = .error (.err rt)) := by
  cases hk : integerSize payloadType with
  | some k =>
    obtain ⟨swap, hread⟩ := @readAttrValue_integer deBuf offset k length payloadType hk
    obtain ⟨v, hv⟩ := copyInteger_of_fits (h k hk)
    refine ⟨fun _ => ⟨(swap v, []), by rw [hread, hv]; rfl⟩, fun hno => absurd ?_ hno⟩
    rw [integerSize] at hk
    split_ifs at hk with h1 h2 h3 h4 <;> simp [*]
  | none =>
    rw [integerSize] at hk
    rw [readAttrValue]
    split_ifs at hk ⊢ with h1 h2 h3 h4 h5 h6
    · exact ⟨fun _ => ⟨_, rfl⟩, fun hno => absurd (by simp [h5]) hno⟩
    · exact ⟨fun _ => ⟨_, rfl⟩, fun hno => absurd (by simp [h6]) hno⟩
    · exact ⟨fun hyes => absurd hyes (by simp [h1, h2, h3, h4, h5, h6]), fun _ => ⟨_, rfl⟩⟩

theorem readAttrValue_of_not_fits
    (h : ¬∀ k, integerSize payloadType = some k →
      length ≤ k ∧ offset + length ≤ deBuf.length) :
    ∃ f, readAttrValue deBuf offset payloadType length = .error (.fault f) := by
  obtain ⟨k, hk⟩ := not_forall.mp h
  obtain ⟨hk, hno⟩ := Classical.not_imp.mp hk
  obtain ⟨swap, hread⟩ := @readAttrValue_integer deBuf offset k length payloadType hk
  obtain ⟨f, hf⟩ := copyInteger_of_not_fits hno
  exact ⟨f, by rw [hread, hf]; rfl⟩

theorem tuyaAiGetAttrValue_eq (htype : offset + 2 ≤ deBuf.length)
    (hpayload : u32 (offset + 2) + 1 ≤ deBuf.length)
    (hhead : u32 (offset + 3) + 4 ≤ deBuf.length) :
    tuyaAiGetAttrValue deBuf offset =
      match readAttrValue deBuf (u32 (offset + attributeHeadSize))
        (headAt deBuf offset).payloadType (attrLength deBuf offset) with
      | .error stop => .error stop
      | .ok (scalar, mem) =>
        if aiCheckAttrVaild (headAt deBuf offset) then
          .ok ({ headAt deBuf offset with scalar := UInt64.ofNat scalar, mem := mem },
            nextOffset deBuf offset)
        else .error (.err ⟨oprtComError, oprtComError_ne_ok⟩) := by
  obtain ⟨h3, h7⟩ := u32_head offset
  rw [tuyaAiGetAttrValue, readSpan_of_le htype]
  dsimp only
  rw [readSpan_of_le hpayload]
  dsimp only
  rw [h7, h3, readSpan_of_le hhead]
  dsimp only
  rw [dwordSwap_leNat (length_slice hhead), wordSwap_leNat (length_slice htype)]
  show (match readAttrValue deBuf _ _ (attrLength deBuf offset) with
    | .error stop => _
    | .ok (scalar, mem) => _) = _
  rw [show beNat (slice deBuf (u32 (offset + 3)) 4) = attrLength deBuf offset from rfl, u32_next]
  rfl

theorem tuyaAiGetAttrValue_of_inside (hhead : u32 (offset + 3) + 4 ≤ deBuf.length)
    (h : ReadsInside deBuf offset) :
    (accepted deBuf offset = true →
        ∃ b, tuyaAiGetAttrValue deBuf offset = .ok (b, nextOffset deBuf offset)) ∧
      (accepted deBuf offset = false →
        ∃ rt, tuyaAiGetAttrValue deBuf offset = .error (.err rt)) := by
  obtain ⟨hknown, hunknown⟩ := readAttrValue_of_fits h.value
  rw [tuyaAiGetAttrValue_eq h.type h.payloadType hhead, accepted]
  by_cases hmem : (headAt deBuf offset).payloadType ∈ [1, 2, 3, 4, 5, 6]
  · obtain ⟨v, hv⟩ := hknown hmem
    rw [hv, decide_eq_true hmem, Bool.true_and]
    dsimp only
    refine ⟨fun hyes => ?_, fun hno => ?_⟩
    · rw [if_pos hyes]
      exact ⟨_, rfl⟩
    · rw [if_neg (by rw [hno]; decide)]
      exact ⟨_, rfl⟩
  · obtain ⟨rt, hrt⟩ := hunknown hmem
    rw [hrt, decide_eq_false hmem, Bool.false_and]
    exact ⟨fun hyes => absurd hyes (by decide), fun _ => ⟨rt, rfl⟩⟩

theorem tuyaAiGetAttrValue_of_not_inside (hhead : u32 (offset + 3) + 4 ≤ deBuf.length)
    (h : ¬ReadsInside deBuf offset) :
    ∃ f, tuyaAiGetAttrValue deBuf offset = .error (.fault f) := by
  by_cases htype : offset + 2 ≤ deBuf.length
  · by_cases hpayload : u32 (offset + 2) + 1 ≤ deBuf.length
    · obtain ⟨f, hf⟩ := readAttrValue_of_not_fits fun hvalue => h ⟨htype, hpayload, hvalue⟩
      rw [tuyaAiGetAttrValue_eq htype hpayload hhead, hf]
      exact ⟨f, rfl⟩
    · rw [tuyaAiGetAttrValue, readSpan_of_le htype]
      dsimp only
      rw [readSpan_eq_none (Nat.not_le.mp hpayload)]
      exact ⟨_, rfl⟩
  · rw [tuyaAiGetAttrValue, readSpan_eq_none (Nat.not_le.mp htype)]
    exact ⟨_, rfl⟩

end Value

/-! ### Walks -/

section Walks

variable {deBuf : Bytes} {offset offset' fuel idx num : Nat} {offsets offsets' : List Nat}

theorem Walk.unique (h : Walk deBuf offset offsets) (h' : Walk deBuf offset offsets') :
    offsets = offsets' := by
  induction h generalizing offsets' with
  | done hend =>
    cases h' with
    | done hend' => rfl
    | step hlt hhead hrest => exact absurd hlt (Nat.not_lt.mpr hend)
  | step hlt hhead hrest ih =>
    cases h' with
    | done hend' => exact absurd hlt (Nat.not_lt.mpr hend')
    | step hlt' hhead' hrest' => rw [ih hrest']

theorem Walk.lt_length (h : Walk deBuf offset offsets) : ∀ o ∈ offsets, o < deBuf.length := by
  induction h with
  | done hend => simp
  | step hlt hhead hrest ih => exact List.forall_mem_cons.mpr ⟨hlt, ih⟩

theorem Walk.of_mem (h : Walk deBuf offset offsets) (hmem : offset' ∈ offsets) :
    ∃ rest, Walk deBuf offset' rest ∧ rest.length ≤ offsets.length := by
  induction h with
  | done hend => cases hmem
  | step hlt hhead hrest ih =>
    rcases List.mem_cons.mp hmem with rfl | hmem
    · exact ⟨_, .step hlt hhead hrest, Nat.le_refl _⟩
    · obtain ⟨rest, hwalk, hle⟩ := ih hmem
      exact ⟨rest, hwalk, Nat.le_succ_of_le hle⟩

theorem Walk.nodup (h : Walk deBuf offset offsets) : offsets.Nodup := by
  induction h with
  | done hend => exact List.nodup_nil
  | step hlt hhead hrest ih =>
    refine List.nodup_cons.mpr ⟨fun hmem => ?_, ih⟩
    obtain ⟨rest, hwalk, hle⟩ := hrest.of_mem hmem
    have hsame := congrArg List.length (hwalk.unique (.step hlt hhead hrest))
    rw [List.length_cons] at hsame
    omega

theorem Walk.length_le (h : Walk deBuf offset offsets) : offsets.length ≤ deBuf.length := by
  have hsub : offsets ⊆ List.range deBuf.length := fun o ho => List.mem_range.mpr (h.lt_length o ho)
  have hle := (h.nodup.subperm hsub).length_le
  rwa [List.length_range] at hle

theorem tuyaAiGetAttrNum_of_walk (h : Walk deBuf 0 offsets) (hlt : deBuf.length < 4294967296)
    (hfuel : offsets.length < fuel) :
    tuyaAiGetAttrNum fuel deBuf deBuf.length = some (.ok offsets.length) := by
  have hidx : 0 + offsets.length < 4294967296 := by
    rw [Nat.zero_add]
    exact h.length_le.trans_lt hlt
  rw [tuyaAiGetAttrNum, getAttrNumLoop_of_walk h hfuel hidx, Nat.zero_add]

theorem exists_walk_of_getAttrNumLoop
    (h : getAttrNumLoop deBuf deBuf.length fuel offset idx = some (.ok num)) :
    ∃ offsets, Walk deBuf offset offsets ∧ offsets.length < fuel := by
  induction fuel generalizing offset idx with
  | zero => cases h
  | succ fuel ih =>
    by_cases hlt : offset < deBuf.length
    · by_cases hhead : u32 (offset + 3) + 4 ≤ deBuf.length
      · rw [getAttrNumLoop_succ hlt hhead] at h
        obtain ⟨offsets, hwalk, hfuel⟩ := ih h
        exact ⟨_, .step hlt hhead hwalk, Nat.succ_lt_succ hfuel⟩
      · rw [getAttrNumLoop, if_pos hlt] at h
        dsimp only at h
        rw [(u32_head offset).2, u32_u32_add, readSpan_eq_none (Nat.not_le.mp hhead)] at h
        cases h
    · exact ⟨[], .done (Nat.not_lt.mp hlt), Nat.succ_pos _⟩

/-- Along a walk the second loop does no harm if the attributes are read inside, and it returns
`OPRT_OK` only if all of them are accepted. -/
theorem parseUserAttrsLoop_of_orderly (h : Walk deBuf offset offsets) (hord : Orderly deBuf offsets)
    {got : List AiAttribute} (hnum : got.length + offsets.length = num)
    (hfuel : offsets.length < fuel) :
    ∃ r, parseUserAttrsLoop deBuf deBuf.length num fuel offset got = some (.ok r) ∧
      (r.rt = oprtOk → ∀ o ∈ offsets, accepted deBuf o = true) := by
  obtain ⟨fuel, rfl⟩ := Nat.exists_eq_succ_of_ne_zero (Nat.ne_zero_of_lt hfuel)
  induction h generalizing got fuel with
  | done hend =>
    rw [parseUserAttrsLoop, if_neg (Nat.not_lt.mpr hend)]
    exact ⟨_, rfl, fun _ o ho => by cases ho⟩
  | @step offset offsets hlt hhead hrest ih =>
    obtain ⟨hread, hmore⟩ := hord
    rw [List.length_cons] at hnum hfuel
    obtain ⟨hyes, hno⟩ := tuyaAiGetAttrValue_of_inside hhead hread
    rw [parseUserAttrsLoop, if_pos hlt, if_pos (by omega)]
    cases hacc : accepted deBuf offset with
    | false =>
      obtain ⟨rt, hrt⟩ := hno hacc
      rw [hrt]
      exact ⟨_, rfl, fun hok => absurd hok rt.2⟩
    | true =>
      obtain ⟨b, hb⟩ := hyes hacc
      obtain ⟨fuel, rfl⟩ := Nat.exists_eq_succ_of_ne_zero (show fuel ≠ 0 by omega)
      obtain ⟨r, hr, hall⟩ := @ih (hmore hacc) (got ++ [b])
        (by rw [List.length_append, List.length_singleton]; omega) fuel (by omega)
      rw [hb]
      exact ⟨r, hr, fun hok => List.forall_mem_cons.mpr ⟨hacc, hall hok⟩⟩

theorem orderly_of_parseUserAttrsLoop (h : Walk deBuf offset offsets) {got : List AiAttribute}
    {r : AiParseResult} (hnum : got.length + offsets.length = num)
    (hr : parseUserAttrsLoop deBuf deBuf.length num fuel offset got = some (.ok r)) :
    Orderly deBuf offsets ∧ ((∀ o ∈ offsets, accepted deBuf o = true) → r.rt = oprtOk) := by
  induction h generalizing got fuel with
  | done hend =>
    cases fuel with
    | zero => cases hr
    | succ fuel =>
      rw [parseUserAttrsLoop, if_neg (Nat.not_lt.mpr hend)] at hr
      obtain rfl := Except.ok.inj (Option.some.inj hr)
      exact ⟨trivial, fun _ => rfl⟩
  | @step offset offsets hlt hhead hrest ih =>
    cases fuel with
    | zero => cases hr
    | succ fuel =>
      rw [List.length_cons] at hnum
      rw [parseUserAttrsLoop, if_pos hlt, if_pos (by omega)] at hr
      have hread : ReadsInside deBuf offset := by
        by_contra hread
        obtain ⟨f, hf⟩ := tuyaAiGetAttrValue_of_not_inside hhead hread
        rw [hf] at hr
        cases hr
      have hrec (hacc : accepted deBuf offset = true) : Orderly deBuf offsets ∧
          ((∀ o ∈ offsets, accepted deBuf o = true) → r.rt = oprtOk) := by
        obtain ⟨b, hb⟩ := (tuyaAiGetAttrValue_of_inside hhead hread).1 hacc
        rw [hb] at hr
        exact @ih fuel (got ++ [b]) (by rw [List.length_append, List.length_singleton]; omega) hr
      refine ⟨⟨hread, fun hacc => (hrec hacc).1⟩, fun hall => ?_⟩
      obtain ⟨hacc, hall⟩ := List.forall_mem_cons.mp hall
      exact (hrec hacc).2 hall

end Walks

/-! ### Safety -/

section Safety

variable {deBuf : Bytes}

theorem SafeParse.orderly (h : SafeParse deBuf) (hlt : deBuf.length < 4294967296) :
    ∃ offsets, Walk deBuf 0 offsets ∧ Orderly deBuf offsets ∧
      ((∀ o ∈ offsets, accepted deBuf o = true) → Tiling deBuf 0) := by
  obtain ⟨fuel, r, hr, htiling⟩ := h fun _ => true
  rw [tuyaParseUserAttrs] at hr
  split at hr
  · cases hr
  · cases hr
  · next num hnum =>
    obtain ⟨offsets, hwalk, hfuel⟩ := exists_walk_of_getAttrNumLoop hnum
    rw [tuyaAiGetAttrNum_of_walk hwalk hlt hfuel] at hnum
    obtain rfl := Except.ok.inj (Option.some.inj hnum)
    rw [if_pos rfl] at hr
    obtain ⟨hord, hall⟩ := @orderly_of_parseUserAttrsLoop deBuf 0 fuel offsets.length offsets hwalk
      [] r (Nat.zero_add _) hr
    exact ⟨offsets, hwalk, hord, fun hacc => htiling (hall hacc)⟩

/-- **Safety.** The parser does no harm just when the lengths lead to the end of the buffer with all
heads inside, every attribute up to the first that is refused is read inside, and the attributes
tile the buffer unless one of them is refused. -/
theorem safeParse_iff (hlt : deBuf.length < 4294967296) :
    SafeParse deBuf ↔ ∃ offsets, Walk deBuf 0 offsets ∧ Orderly deBuf offsets ∧
      ((∀ o ∈ offsets, accepted deBuf o = true) → Tiling deBuf 0) := by
  refine ⟨fun h => h.orderly hlt, ?_⟩
  rintro ⟨offsets, hwalk, hord, htiling⟩ malloc
  have hnum := tuyaAiGetAttrNum_of_walk hwalk hlt (Nat.lt_succ_self _)
  obtain ⟨r, hr, hall⟩ := @parseUserAttrsLoop_of_orderly deBuf 0 (offsets.length + 1)
    offsets.length offsets hwalk hord [] (Nat.zero_add _) (Nat.lt_succ_self _)
  by_cases hm : malloc (offsets.length * attributeSize) = true
  · refine ⟨offsets.length + 1, r, ?_, fun hok => htiling (hall hok)⟩
    rw [tuyaParseUserAttrs, hnum]
    dsimp only
    rw [if_pos hm, hr]
  · refine ⟨offsets.length + 1, ⟨oprtMallocFailed, [], 0⟩, ?_, fun hok =>
      absurd hok oprtMallocFailed_ne_ok⟩
    rw [tuyaParseUserAttrs, hnum]
    dsimp only
    rw [if_neg hm]

def sampleBuf : Bytes := [0, 24, 2, 0, 0, 0, 2, 0, 200, 0, 43, 6, 0, 0, 0, 2, 0x68, 0x69]

theorem safeParse_iff_sampleBuf : SafeParse sampleBuf := by
  have hnext : nextOffset sampleBuf 0 = 9 ∧ nextOffset sampleBuf 9 = sampleBuf.length := by
    decide +kernel
  have hlast : Walk sampleBuf 9 [9] :=
    .step (by decide) (by decide +kernel) (.done (by rw [hnext.2]))
  have hwalk : Walk sampleBuf 0 [0, 9] :=
    .step (by decide) (by decide +kernel) (by rw [hnext.1]; exact hlast)
  have hord : Orderly sampleBuf [0, 9] := by
    refine ⟨⟨by decide, by decide +kernel, fun k hk => ?_⟩, fun _ =>
      ⟨⟨by decide, by decide +kernel, fun k hk => ?_⟩, fun _ => trivial⟩⟩
    · obtain rfl : 2 = k := Option.some.inj ((by decide +kernel : integerSize
        (headAt sampleBuf 0).payloadType = some 2).symm.trans hk)
      decide +kernel
    · cases (by decide +kernel : integerSize
        (headAt sampleBuf 9).payloadType = none).symm.trans hk
  have htiling : Tiling sampleBuf 0 := by
    have h0 : attrLength sampleBuf 0 = 2 := by decide +kernel
    have h9 : attrLength sampleBuf 9 = 2 := by decide +kernel
    refine .step (by rw [h0]; decide) ?_
    rw [h0]
    show Tiling sampleBuf 9
    refine .step (by rw [h9]; decide) ?_
    rw [h9]
    exact .done
  exact (safeParse_iff (by decide)).2 ⟨[0, 9], hwalk, hord, fun _ => htiling⟩

/-- A length with which the offset comes back to 0, a head that is cut off, an integer of one byte
with two, and a string that is cut off. -/
theorem not_safeParse_samples :
    ¬SafeParse [0, 41, 5, 0xff, 0xff, 0xff, 0xf9] ∧ ¬SafeParse [0] ∧
      ¬SafeParse [0, 41, 1, 0, 0, 0, 2, 5, 5] ∧ ¬SafeParse [0, 43, 6, 0, 0, 0, 5, 0x68] := by
  refine ⟨fun h => ?_, fun h => ?_, fun h => ?_, fun h => ?_⟩
  · obtain ⟨offsets, hwalk, -⟩ := h.orderly (by decide)
    have hback : nextOffset [0, 41, 5, 0xff, 0xff, 0xff, 0xf9] 0 = 0 := by decide +kernel
    cases hwalk with
    | done hend => exact absurd hend (by decide)
    | step hlt hhead hrest =>
      have hnodup := (Walk.step hlt hhead hrest).nodup
      rw [hback] at hrest
      cases hrest with
      | done hend => exact absurd hend (by decide)
      | step => simp at hnodup
  · obtain ⟨offsets, hwalk, -⟩ := h.orderly (by decide)
    cases hwalk with
    | done hend => exact absurd hend (by decide)
    | step hlt hhead hrest => exact absurd hhead (by decide +kernel)
  · obtain ⟨offsets, hwalk, hord, -⟩ := h.orderly (by decide)
    cases hwalk with
    | done hend => exact absurd hend (by decide)
    | step hlt hhead hrest =>
      exact absurd (hord.1.value 1 (by decide +kernel)).1 (by decide +kernel)
  · obtain ⟨offsets, hwalk, -, htiling⟩ := h.orderly (by decide)
    have hlen : attrLength [0, 43, 6, 0, 0, 0, 5, 0x68] 0 = 5 := by decide +kernel
    have hnext : nextOffset [0, 43, 6, 0, 0, 0, 5, 0x68] 0 = 12 := by decide +kernel
    cases hwalk with
    | done hend => exact absurd hend (by decide)
    | step hlt hhead hrest =>
      rw [hnext] at hrest
      cases hrest with
      | step hlt' => exact absurd hlt' (by decide)
      | done hend =>
        have htile := htiling fun o ho => by
          obtain rfl := List.mem_singleton.mp ho
          decide +kernel
        cases htile with
        | step hfits => exact absurd hfits (by rw [hlen]; decide)

end Safety

end TuyaOpen.AiProtocol
