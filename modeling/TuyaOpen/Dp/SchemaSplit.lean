import TuyaOpen.Basic.JsonText
import TuyaOpen.Dp.SchemaParse

/-!
# Where the objects of a schema are

`dp_node_pos_decode` finds the objects of an array by their braces, and counts those in strings,
too. It is right about an object just when its braces close with its last byte only, the strings
included, and about its position just when it fits into 16 bits. The copy of an object is right just
when it leaves a byte of the buffer for the NUL.

## Main results

* `posLoop_delimited`: the scan of an object.
* `map_posLoop_eq_iff`: when the objects are found.
* `nodeLoop_copies_iff`: when the copies stay in bounds.
* `splits_iff`, `splitCond_of_level`: when a schema is split as it ought to be, and that it is when
  no brace stands in a string.
-/

namespace TuyaOpen.Dp

/-! ### The array -/

/-- The text of an object, whose strings satisfy `S`. -/
def ObjectText (S : Bytes → Prop) (t : Bytes) : Prop :=
  ∃ u, t = 0x7b :: (u ++ [0x7d]) ∧ (Blank u ∨ JsonText S .members u)

def objectSpans : Nat → List (Bytes × Bytes) → List (Nat × Nat)
  | _, [] => []
  | off, p :: items =>
    (off + p.1.length, off + p.1.length + p.2.length - 1) ::
      objectSpans (off + p.1.length + p.2.length) items

def NodePos.span (pos : NodePos) : Nat × Nat := (pos.startPos.toNat, pos.endPos.toNat)

/-- The objects of an array are found, as many as there are, and no copy that is made of them leaves
the text or the buffer, or is without its NUL. -/
structure Splits (env : SchemaEnv) (items : List (Bytes × Bytes)) (tail : Bytes) : Prop where
  spans : (dpNodePosDecode (joined items tail) 255).map NodePos.span = objectSpans 0 items
  copies : dpNodeParse env (joined items tail) (dpNodePosDecode (joined items tail) 255) ≠
    .error .copy

/-- The object `i` is turned into a node. -/
def Taken (env : SchemaEnv) (i : Nat) (item : Bytes) : Prop := ∃ r, nodeOf env i item = .ok r

/-- Each of the objects, from the object `i` on and up to the first one that is not turned into a
node, leaves a byte of the buffer. -/
def FitBuffer (env : SchemaEnv) : Nat → List (Bytes × Bytes) → Prop
  | _, [] => True
  | i, p :: items => p.2.length < maxItemLen ∧ (Taken env i p.2 → FitBuffer env (i + 1) items)

/-- The condition: the braces of each object, those in its strings included, close with its last
byte only, all of the objects end below 65536, and, with memory for the buffer, they fit into it. -/
def SplitCond (env : SchemaEnv) (items : List (Bytes × Bytes)) : Prop :=
  (∀ p ∈ items, Delimited p.2) ∧ (∀ s ∈ objectSpans 0 items, s.2 < 65536) ∧
    (env.mallocBuf = true → FitBuffer env 0 items)

/-- What the scan needs of an array: nothing but the objects has braces. -/
structure Pieces (items : List (Bytes × Bytes)) (tail : Bytes) : Prop where
  gaps : ∀ p ∈ items, ∀ b ∈ p.1, Neutral b
  objects : ∀ p ∈ items, ∃ t, p.2 = 0x7b :: t ∧ 0 ∉ t
  tail : ∀ b ∈ tail, Neutral b

section Scan

variable {posNum i : Nat} {brace : ℤ} {start : UInt16} {pos : List NodePos} {rest : Bytes}

theorem posLoop_neutral {t : Bytes} (ht : ∀ b ∈ t, Neutral b) :
    posLoop posNum (t ++ rest) i brace start pos =
      posLoop posNum rest (i + t.length) brace start pos := by
  induction t generalizing i with
  | nil => rfl
  | cons b t ih =>
    obtain ⟨hb, ht⟩ := List.forall_mem_cons.mp ht
    rw [List.cons_append, posLoop, if_neg hb.2.2, if_neg hb.1, if_neg hb.2.1, ih ht,
      List.length_cons, Nat.add_assoc, Nat.add_comm 1]

theorem posLoop_inside {t : Bytes} (hzero : 0 ∉ t)
    (hdepth : ∀ n ≤ t.length, 0 < brace + depth (t.take n)) (hpos : pos.length < posNum) :
    posLoop posNum (t ++ rest) i brace start pos =
      posLoop posNum rest (i + t.length) (brace + depth t) start pos := by
  induction t generalizing i brace with
  | nil => rw [List.nil_append, List.length_nil, depth_nil, add_zero, add_zero]
  | cons b t ih =>
    have hnow := hdepth 0 (Nat.zero_le _)
    rw [List.take_zero, depth_nil, add_zero] at hnow
    have hnext : ∀ n ≤ t.length, 0 < brace + braceDelta b + depth (t.take n) := by
      intro n hn
      have h := hdepth (n + 1) (Nat.succ_le_succ hn)
      rwa [List.take_succ_cons, depth_cons, ← add_assoc] at h
    have hzero' := List.not_mem_of_not_mem_cons hzero
    have hlen : i + 1 + t.length = i + (b :: t).length := by
      rw [List.length_cons]
      omega
    rw [List.cons_append, posLoop, if_neg (List.ne_of_not_mem_cons hzero).symm, depth_cons,
      ← add_assoc]
    by_cases hopen : b = 0x7b
    · subst hopen
      have hdelta : braceDelta 0x7b = 1 := rfl
      rw [hdelta] at hnext ⊢
      rw [if_pos rfl, if_neg hnow.ne', ih hzero' hnext, hlen]
    rw [if_neg hopen]
    by_cases hclose : b = 0x7d
    · subst hclose
      have hdelta : braceDelta 0x7d = -1 := rfl
      have hstay := hnext 0 (Nat.zero_le _)
      rw [hdelta, List.take_zero, depth_nil, add_zero, ← sub_eq_add_neg] at hstay
      rw [hdelta, ← sub_eq_add_neg] at hnext ⊢
      rw [if_pos rfl, if_neg hstay.ne']
      dsimp only
      rw [if_neg (Nat.not_le.mpr hpos), ih hzero' hnext, hlen]
    · have hdelta := braceDelta_of_ne hopen hclose
      rw [hdelta, add_zero] at hnext ⊢
      rw [if_neg hclose, ih hzero' hnext, hlen]

theorem posLoop_open (text : Bytes) :
    posLoop posNum (0x7b :: text) i 0 start pos =
      posLoop posNum text (i + 1) 1 (UInt16.ofNat i) pos := by
  rw [posLoop, if_neg (by decide), if_pos rfl, if_pos rfl, zero_add]

theorem posLoop_delimited {t : Bytes} (h : Delimited (0x7b :: t)) (hzero : 0 ∉ t)
    (hpos : pos.length < posNum) :
    posLoop posNum (0x7b :: t ++ rest) i 0 start pos =
      if posNum ≤ pos.length + 1 then
        pos ++ [⟨UInt16.ofNat i, UInt16.ofNat (i + t.length)⟩]
      else
        posLoop posNum rest (i + (t.length + 1)) 0 (UInt16.ofNat i)
          (pos ++ [⟨UInt16.ofNat i, UInt16.ofNat (i + t.length)⟩]) := by
  obtain ⟨u, rfl, hinside, hdepth⟩ := h.exists_eq
  have hzero' : 0 ∉ u := fun hmem => hzero (List.mem_append_left _ hmem)
  have hlen : i + 1 + u.length = i + (u ++ [0x7d] : Bytes).length := by
    rw [List.length_append, List.length_singleton]
    omega
  rw [List.cons_append, List.append_assoc, posLoop_open, posLoop_inside hzero' hinside hpos, hdepth,
    add_zero, hlen, List.singleton_append, posLoop, if_neg (by decide), if_neg (by decide),
    if_pos rfl]
  dsimp only
  rw [sub_self, if_pos rfl, List.length_append, List.length_singleton]
  rfl

theorem exists_posLoop_eq (text : Bytes) :
    ∃ more, posLoop posNum text i brace start pos = pos ++ more ∧
      ∀ e ∈ more, ∃ k, text[k]? = some 0x7d ∧ e.endPos = UInt16.ofNat (i + k) := by
  induction text generalizing i brace start pos with
  | nil => exact ⟨[], (List.append_nil pos).symm, fun e he => absurd he List.not_mem_nil⟩
  | cons c text ih =>
    -- What is found behind the first byte.
    have hlater {more : List NodePos}
        (h : ∀ e ∈ more, ∃ k, text[k]? = some 0x7d ∧ e.endPos = UInt16.ofNat (i + 1 + k)) :
        ∀ e ∈ more, ∃ k, (c :: text)[k]? = some 0x7d ∧ e.endPos = UInt16.ofNat (i + k) := by
      intro e he
      obtain ⟨k, hk, hend⟩ := h e he
      exact ⟨k + 1, by rwa [List.getElem?_cons_succ], by rw [hend, Nat.add_assoc, Nat.add_comm 1]⟩
    rw [posLoop]
    by_cases hnul : c = 0
    · rw [if_pos hnul]
      exact ⟨[], (List.append_nil pos).symm, fun e he => absurd he List.not_mem_nil⟩
    rw [if_neg hnul]
    by_cases hopen : c = 0x7b
    · rw [if_pos hopen]
      obtain ⟨more, heq, hmore⟩ := @ih (i + 1) (brace + 1)
        (if brace = 0 then UInt16.ofNat i else start) pos
      exact ⟨more, heq, hlater hmore⟩
    rw [if_neg hopen]
    by_cases hclose : c = 0x7d
    · rw [if_pos hclose]
      dsimp only
      have hnew : ∃ here, (if brace - 1 = 0 then pos ++ [⟨start, UInt16.ofNat i⟩] else pos) =
          pos ++ here ∧ ∀ e ∈ here, ∃ k, (c :: text)[k]? = some 0x7d ∧
            e.endPos = UInt16.ofNat (i + k) := by
        split_ifs
        · refine ⟨[⟨start, UInt16.ofNat i⟩], rfl, fun e he => ⟨0, ?_, ?_⟩⟩
          · rw [hclose]
            rfl
          · rw [List.mem_singleton.mp he]
            rfl
        · exact ⟨[], (List.append_nil pos).symm, fun e he => absurd he List.not_mem_nil⟩
      obtain ⟨here, hhere, hends⟩ := hnew
      rw [hhere]
      split_ifs
      · exact ⟨here, rfl, hends⟩
      · obtain ⟨more, heq, hmore⟩ := @ih (i + 1) (brace - 1) start (pos ++ here)
        refine ⟨here ++ more, by rw [heq, List.append_assoc], fun e he => ?_⟩
        rcases List.mem_append.mp he with he | he
        · exact hends e he
        · exact hlater hmore e he
    · rw [if_neg hclose]
      obtain ⟨more, heq, hmore⟩ := @ih (i + 1) brace start pos
      exact ⟨more, heq, hlater hmore⟩

end Scan

/-! ### The positions -/

section Positions

variable {items : List (Bytes × Bytes)} {tail : Bytes} {i : Nat} {start : UInt16}
  {pos : List NodePos}

theorem joined_cons (p : Bytes × Bytes) (items : List (Bytes × Bytes)) (tail : Bytes) :
    joined (p :: items) tail = p.1 ++ (p.2 ++ joined items tail) := by
  simp only [joined, List.flatMap_cons, List.append_assoc]

theorem Pieces.of_cons {p : Bytes × Bytes} (h : Pieces (p :: items) tail) : Pieces items tail where
  gaps q hq := h.gaps q (List.mem_cons_of_mem _ hq)
  objects q hq := h.objects q (List.mem_cons_of_mem _ hq)
  tail := h.tail

theorem Pieces.exists_span (h : Pieces items tail) {k : Nat}
    (hk : (joined items tail)[k]? = some 0x7d) : ∃ s ∈ objectSpans i items, i + k ≤ s.2 := by
  induction items generalizing i k with
  | nil => exact absurd rfl (h.tail 0x7d (List.mem_of_getElem? hk)).2.1
  | cons p items ih =>
    rw [joined_cons] at hk
    by_cases hgap : k < p.1.length
    · rw [List.getElem?_append_left hgap] at hk
      exact absurd rfl (h.gaps p List.mem_cons_self 0x7d (List.mem_of_getElem? hk)).2.1
    · rw [List.getElem?_append_right (not_lt.mp hgap)] at hk
      by_cases hobject : k - p.1.length < p.2.length
      · exact ⟨_, List.mem_cons_self, by dsimp only; omega⟩
      · rw [List.getElem?_append_right (not_lt.mp hobject)] at hk
        obtain ⟨s, hs, hle⟩ := ih h.of_cons hk
        exact ⟨s, List.mem_cons_of_mem _ hs, by omega⟩

theorem toNat_ofNat_of_lt {n : Nat} (h : n < 65536) : (UInt16.ofNat n).toNat = n := by
  rw [UInt16.toNat_ofNat', Nat.mod_eq_of_lt h]

theorem toNat_ofNat_le (n : Nat) : (UInt16.ofNat n).toNat ≤ n := by
  rw [UInt16.toNat_ofNat']
  exact Nat.mod_le _ _

theorem posLoop_cons {gap t : Bytes} (hgap : ∀ b ∈ gap, Neutral b) (hzero : 0 ∉ t)
    (hdelimited : Delimited (0x7b :: t)) (hpos : pos.length + 1 < 255) :
    posLoop 255 (joined ((gap, 0x7b :: t) :: items) tail) i 0 start pos =
      posLoop 255 (joined items tail) (i + gap.length + (t.length + 1)) 0
        (UInt16.ofNat (i + gap.length))
        (pos ++ [⟨UInt16.ofNat (i + gap.length), UInt16.ofNat (i + gap.length + t.length)⟩]) := by
  rw [joined_cons]
  dsimp only
  rw [posLoop_neutral hgap, posLoop_delimited hdelimited hzero (by omega), if_neg (by omega)]

theorem Pieces.map_posLoop (h : Pieces items tail) (hlen : pos.length + items.length < 255)
    (hdelimited : ∀ p ∈ items, Delimited p.2) (hspans : ∀ s ∈ objectSpans i items, s.2 < 65536) :
    (posLoop 255 (joined items tail) i 0 start pos).map NodePos.span =
      pos.map NodePos.span ++ objectSpans i items := by
  induction items generalizing i start pos with
  | nil =>
    have hscan := @posLoop_neutral 255 i 0 start pos [] tail h.tail
    rw [List.append_nil] at hscan
    rw [joined, List.flatMap_nil, List.nil_append, hscan, posLoop, objectSpans, List.append_nil]
  | cons p items ih =>
    obtain ⟨gap, object⟩ := p
    obtain ⟨t, rfl, hzero⟩ := h.objects _ List.mem_cons_self
    obtain ⟨hhead, htail⟩ := List.forall_mem_cons.mp hspans
    rw [List.length_cons] at hlen
    dsimp only [objectSpans] at hhead htail ⊢
    rw [List.length_cons] at hhead htail ⊢
    have hgap : ∀ b ∈ gap, Neutral b := h.gaps _ List.mem_cons_self
    rw [posLoop_cons hgap hzero (hdelimited _ List.mem_cons_self) (by omega),
      ih h.of_cons (by rw [List.length_append, List.length_singleton]; omega)
        (fun q hq => hdelimited q (List.mem_cons_of_mem _ hq)) htail,
      List.map_append, List.map_singleton, List.append_assoc, List.singleton_append]
    rw [NodePos.span, toNat_ofNat_of_lt (by omega), toNat_ofNat_of_lt (by omega),
      Nat.add_succ_sub_one]

theorem exists_posLoop_early {gap t : Bytes} {n : Nat} (hgap : ∀ b ∈ gap, Neutral b)
    (hzero : 0 ∉ t) (hn : n < t.length) (hearly : Delimited (0x7b :: t.take n))
    (hpos : pos.length + 1 < 255) :
    ∃ more, posLoop 255 (joined ((gap, 0x7b :: t) :: items) tail) i 0 start pos =
      pos ++ ⟨UInt16.ofNat (i + gap.length), UInt16.ofNat (i + gap.length + n)⟩ :: more := by
  have hzero' : 0 ∉ t.take n := fun hmem => hzero (List.mem_of_mem_take hmem)
  have htake : (t.take n).length = n := List.length_take_of_le hn.le
  have hsplit : joined ((gap, 0x7b :: t) :: items) tail =
      gap ++ (0x7b :: t.take n ++ (t.drop n ++ joined items tail)) := by
    rw [joined_cons]
    dsimp only
    rw [List.cons_append, List.cons_append, ← List.append_assoc (t.take n),
      List.take_append_drop]
  rw [hsplit, posLoop_neutral hgap, posLoop_delimited hearly hzero' (by omega), htake]
  split_ifs
  · exact ⟨[], rfl⟩
  · obtain ⟨more, hmore, -⟩ := exists_posLoop_eq (t.drop n ++ joined items tail)
    exact ⟨more, by rw [hmore, List.append_assoc, List.singleton_append]⟩

theorem Pieces.exists_posLoop_unclosed {gap t : Bytes} (h : Pieces items tail)
    (hgap : ∀ b ∈ gap, Neutral b) (hzero : 0 ∉ t)
    (hnever : ∀ n ≤ t.length, 0 < 1 + depth (t.take n)) (hpos : pos.length + 1 < 255) :
    ∃ more, posLoop 255 (joined ((gap, 0x7b :: t) :: items) tail) i 0 start pos = pos ++ more ∧
      ∀ e ∈ more, ∃ n, e.endPos = UInt16.ofNat n ∧ i + gap.length + (t.length + 1) ≤ n ∧
        ∃ s ∈ objectSpans (i + gap.length + (t.length + 1)) items, n ≤ s.2 := by
  rw [joined_cons]
  dsimp only
  rw [posLoop_neutral hgap, List.cons_append, posLoop_open,
    posLoop_inside hzero hnever (by omega), Nat.add_assoc (i + gap.length),
    Nat.add_comm 1 t.length]
  obtain ⟨more, hmore, hends⟩ := @exists_posLoop_eq 255 (i + gap.length + (t.length + 1))
    (1 + depth t) (UInt16.ofNat (i + gap.length)) pos (joined items tail)
  refine ⟨more, hmore, fun e he => ?_⟩
  obtain ⟨k, hk, hend⟩ := hends e he
  exact ⟨_, hend, Nat.le_add_right _ k, h.exists_span hk⟩

theorem Pieces.delimited_of_map_posLoop (h : Pieces items tail)
    (hlen : pos.length + items.length < 255) (hspans : ∀ s ∈ objectSpans i items, s.2 < 65536)
    (heq : (posLoop 255 (joined items tail) i 0 start pos).map NodePos.span =
      pos.map NodePos.span ++ objectSpans i items) : ∀ p ∈ items, Delimited p.2 := by
  induction items generalizing i start pos with
  | nil => exact fun p hp => absurd hp List.not_mem_nil
  | cons p items ih =>
    obtain ⟨gap, object⟩ := p
    obtain ⟨t, rfl, hzero⟩ := h.objects _ List.mem_cons_self
    have hgap : ∀ b ∈ gap, Neutral b := h.gaps _ List.mem_cons_self
    obtain ⟨hhead, htail⟩ := List.forall_mem_cons.mp hspans
    rw [List.length_cons] at hlen
    have hroom : pos.length + 1 < 255 := by omega
    dsimp only [objectSpans] at hhead htail heq
    rw [List.length_cons] at hhead htail heq
    -- The entry that comes next is that of the object.
    have hentry {e : NodePos} {more : List NodePos}
        (hscan : posLoop 255 (joined ((gap, 0x7b :: t) :: items) tail) i 0 start pos =
          pos ++ e :: more) : e.endPos.toNat = i + gap.length + t.length := by
      rw [hscan, List.map_append, List.map_cons] at heq
      have hspan := (List.cons.inj (List.append_cancel_left heq)).1
      exact congrArg Prod.snd hspan
    rcases delimited_or t with hdelimited | ⟨n, hpos, hlt, hearly⟩ | hnever
    · refine List.forall_mem_cons.mpr ⟨hdelimited, ?_⟩
      rw [posLoop_cons hgap hzero hdelimited hroom] at heq
      refine ih h.of_cons ?_ htail (heq.trans ?_)
      · rw [List.length_append, List.length_singleton]
        omega
      · rw [List.map_append, List.map_singleton, List.append_assoc, List.singleton_append,
          NodePos.span, toNat_ofNat_of_lt (by omega), toNat_ofNat_of_lt (by omega)]
        rfl
    · -- The entry ends too early.
      exfalso
      obtain ⟨n, rfl⟩ := Nat.exists_eq_succ_of_ne_zero hpos.ne'
      rw [List.length_cons] at hlt
      rw [List.take_succ_cons] at hearly
      obtain ⟨more, hscan⟩ :=
        exists_posLoop_early hgap hzero (Nat.lt_of_succ_lt_succ hlt) hearly hroom
      have hend := hentry hscan
      have hle := toNat_ofNat_le (i + gap.length + n)
      dsimp only at hend
      omega
    · -- The braces do not close, and the entry ends in a later object.
      exfalso
      obtain ⟨more, hscan, hends⟩ :=
        h.of_cons.exists_posLoop_unclosed hgap hzero hnever hroom
      cases more with
      | nil =>
        rw [hscan, List.append_nil] at heq
        exact absurd (List.self_eq_append_right.mp heq) (List.cons_ne_nil _ _)
      | cons e more =>
        obtain ⟨n, hnend, hle, s, hs, hles⟩ := hends e List.mem_cons_self
        have hbound := htail s hs
        have hend := hentry hscan
        rw [hnend, toNat_ofNat_of_lt (by omega)] at hend
        omega

/-- The scan finds the objects just when their braces close with their last bytes only, and their
positions have 16 bits. -/
theorem Pieces.map_posLoop_eq_iff (h : Pieces items tail) (hlen : items.length < 255) :
    (dpNodePosDecode (joined items tail) 255).map NodePos.span = objectSpans 0 items ↔
      (∀ p ∈ items, Delimited p.2) ∧ ∀ s ∈ objectSpans 0 items, s.2 < 65536 := by
  rw [dpNodePosDecode]
  constructor
  · intro heq
    have hspans : ∀ s ∈ objectSpans 0 items, s.2 < 65536 := by
      intro s hs
      rw [← heq] at hs
      obtain ⟨e, -, rfl⟩ := List.mem_map.mp hs
      exact e.endPos.toNat_lt
    exact ⟨h.delimited_of_map_posLoop (by simpa using hlen) hspans heq, hspans⟩
  · rintro ⟨hdelimited, hspans⟩
    exact h.map_posLoop (by simpa using hlen) hdelimited hspans

end Positions

/-! ### The copies -/

section Copies

variable {items : List (Bytes × Bytes)} {tail : Bytes} {S : Bytes → Prop}

theorem copyItem_object {schemaJson item : Bytes} {pos : NodePos} (pre post : Bytes)
    (htext : schemaJson = pre ++ (item ++ post)) (hzero : 0 ∉ item) (hne : item ≠ [])
    (hpos : pos.span = (pre.length, pre.length + item.length - 1)) :
    copyItem schemaJson pos = if item.length < maxItemLen then some item else none := by
  have hlen : 0 < item.length := List.length_pos_of_ne_nil hne
  have hstart : pos.startPos.toNat = pre.length := congrArg Prod.fst hpos
  have hend : pos.endPos.toNat = pre.length + item.length - 1 := congrArg Prod.snd hpos
  have hcount : pos.endPos.toNat + 1 - pos.startPos.toNat = item.length := by omega
  have hspan : readSpan schemaJson pre.length item.length = some item := by
    rw [readSpan_of_le (by rw [htext, List.length_append, List.length_append]; omega), htext,
      slice_append_right]
  rw [copyItem, if_neg (by omega), hcount, hstart, hspan, Option.bind_some]
  by_cases hlt : item.length < maxItemLen
  · rw [if_pos hlt, memcpy_of_le (by rw [List.length_replicate]; omega), Option.bind_some,
      List.take_zero, List.nil_append, Nat.zero_add, List.drop_replicate]
    obtain ⟨n, hn⟩ : ∃ n, maxItemLen - item.length = n + 1 :=
      ⟨maxItemLen - item.length - 1, by omega⟩
    rw [hn, List.replicate_succ, if_pos (List.mem_append_right _ List.mem_cons_self),
      cString_append_zero hzero]
  · rw [if_neg hlt]
    by_cases heq : item.length = maxItemLen
    · rw [memcpy_of_le (by rw [List.length_replicate]; omega), Option.bind_some, List.take_zero,
        List.nil_append, Nat.zero_add, heq, List.drop_replicate, Nat.sub_self, List.replicate_zero,
        List.append_nil, if_neg hzero]
    · rw [memcpy_eq_none (by rw [List.length_replicate]; omega), Option.bind_none]

theorem nodeLoop_copies_iff (env : SchemaEnv) (h : Pieces items tail) {schemaJson : Bytes}
    (pre : Bytes) (htext : schemaJson = pre ++ joined items tail) {i : Nat} {nodepos : List NodePos}
    (hpos : nodepos.map NodePos.span = objectSpans pre.length items) :
    nodeLoop env schemaJson i nodepos ≠ .error .copy ↔ FitBuffer env i items := by
  induction items generalizing pre i nodepos with
  | nil =>
    rw [objectSpans, List.map_eq_nil_iff] at hpos
    rw [hpos]
    exact iff_of_true (fun heq => by cases heq) trivial
  | cons p items ih =>
    obtain ⟨gap, object⟩ := p
    obtain ⟨t, rfl, hzero⟩ := h.objects _ List.mem_cons_self
    cases nodepos with
    | nil => cases hpos
    | cons pos nodepos =>
      obtain ⟨hhead, hrest⟩ := List.cons.inj hpos
      rw [joined_cons] at htext
      dsimp only at hhead hrest htext
      have htext' : schemaJson = pre ++ gap ++ (0x7b :: t ++ joined items tail) := by
        rw [htext, List.append_assoc]
      have hzero' : (0 : UInt8) ∉ (0x7b :: t : Bytes) := by simpa using hzero
      have hcopy := copyItem_object (pre ++ gap) (joined items tail) htext' hzero'
        (List.cons_ne_nil _ _) (by rw [hhead, List.length_append])
      have htext'' : schemaJson = pre ++ gap ++ (0x7b :: t) ++ joined items tail := by
        rw [htext', List.append_assoc (pre ++ gap)]
      have hnext := @ih h.of_cons (pre ++ gap ++ (0x7b :: t)) htext'' (i + 1) nodepos
        (by rw [hrest, List.length_append, List.length_append])
      rw [nodeLoop, hcopy, FitBuffer]
      dsimp only
      by_cases hlt : (0x7b :: t : Bytes).length < maxItemLen
      · rw [if_pos hlt, and_iff_right hlt, ← hnext]
        dsimp only
        cases hnode : nodeOf env i (0x7b :: t) with
        | error stop =>
          refine iff_of_true (fun heq => ?_) ?_
          · cases Except.error.inj heq
          · rintro ⟨r, hr⟩
            rw [hnode] at hr
            cases hr
        | ok r =>
          have htaken : Taken env i (0x7b :: t) := ⟨r, hnode⟩
          rw [forall_prop_of_true htaken]
          dsimp only
          cases nodeLoop env schemaJson (i + 1) nodepos with
          | error stop => rfl
          | ok rs => exact iff_of_true (fun heq => by cases heq) fun heq => by cases heq
      · rw [if_neg hlt]
        exact iff_of_false (fun hne => hne rfl) fun hfit => hlt hfit.1

theorem pieces_of_isArray (h : IsArray (ObjectText S) items tail) : Pieces items tail := by
  have hobject {o : Bytes} (ho : ObjectText S o) : ∃ t, o = 0x7b :: t ∧ 0 ∉ t := by
    obtain ⟨u, rfl, hu⟩ := ho
    have hzero : 0 ∉ u := by
      rcases hu with hu | hu
      · exact zero_notMem_of_neutral hu.neutral
      · exact zero_notMem_of_jsonText hu
    exact ⟨u ++ [0x7d], rfl, by simpa using hzero⟩
  have hneutral {w₁ w₂ : Bytes} {c : UInt8} (hw₁ : Blank w₁) (hw₂ : Blank w₂) (hc : Neutral c) :
      ∀ b ∈ w₁ ++ c :: w₂, Neutral b := by
    intro b hb
    rcases List.mem_append.mp hb with hb | hb
    · exact hw₁.neutral b hb
    · rcases List.mem_cons.mp hb with rfl | hb
      · exact hc
      · exact hw₂.neutral b hb
  cases items with
  | nil =>
    obtain ⟨w₁, w₂, w₃, hw₁, hw₂, hw₃, rfl⟩ := h
    refine ⟨fun p hp => absurd hp List.not_mem_nil, fun p hp => absurd hp List.not_mem_nil, ?_⟩
    intro b hb
    rcases List.mem_append.mp hb with hb | hb
    · exact hw₁.neutral b hb
    · rcases List.mem_cons.mp hb with rfl | hb
      · exact ⟨by decide, by decide, by decide⟩
      · exact hneutral hw₂ hw₃ ⟨by decide, by decide, by decide⟩ b hb
  | cons p items =>
    obtain ⟨⟨w₁, w₂, hw₁, hw₂, hgap⟩, hp, hitems, w₃, w₄, hw₃, hw₄, rfl⟩ := h
    refine ⟨List.forall_mem_cons.mpr ⟨?_, fun q hq => ?_⟩,
      List.forall_mem_cons.mpr ⟨hobject hp, fun q hq => hobject (hitems q hq).2⟩,
      hneutral hw₃ hw₄ ⟨by decide, by decide, by decide⟩⟩
    · rw [hgap]
      exact hneutral hw₁ hw₂ ⟨by decide, by decide, by decide⟩
    · obtain ⟨⟨w₁, w₂, hw₁, hw₂, hgap⟩, -⟩ := hitems q hq
      rw [hgap]
      exact hneutral hw₁ hw₂ ⟨by decide, by decide, by decide⟩

theorem delimited_of_objectText (hS : ∀ s, S s → Level s) {t : Bytes} (h : ObjectText S t) :
    Delimited t := by
  obtain ⟨u, rfl, hu⟩ := h
  rcases hu with hu | hu
  · exact (level_of_neutral hu.neutral).delimited
  · exact (hu.level hS).delimited

theorem forall_of_isArray {V : Bytes → Prop} (h : IsArray V items tail) : ∀ p ∈ items, V p.2 := by
  cases items with
  | nil => exact fun p hp => absurd hp List.not_mem_nil
  | cons p items => exact List.forall_mem_cons.mpr ⟨h.2.1, fun q hq => (h.2.2.1 q hq).2⟩

theorem fitBuffer_of_lt (env : SchemaEnv) (h : ∀ p ∈ items, p.2.length < maxItemLen) (i : Nat) :
    FitBuffer env i items := by
  induction items generalizing i with
  | nil => trivial
  | cons p items ih =>
    obtain ⟨hp, hitems⟩ := List.forall_mem_cons.mp h
    exact ⟨hp, fun _ => ih hitems (i + 1)⟩

theorem splitCond_of_level (env : SchemaEnv) (harray : IsArray (ObjectText Level) items tail)
    (hends : ∀ s ∈ objectSpans 0 items, s.2 < 65536) (hfit : ∀ p ∈ items, p.2.length < maxItemLen) :
    SplitCond env items :=
  ⟨fun p hp => delimited_of_objectText (fun _ hs => hs) (forall_of_isArray harray p hp), hends,
    fun _ => fitBuffer_of_lt env hfit 0⟩

/-- **The objects of a schema.** In an array of fewer than 255 objects they are found, and copied in
bounds, if and only if the braces of each of them, those in strings included, close with its last
byte only, they end below 65536, and they fit into the buffer. -/
theorem splits_iff (env : SchemaEnv) (harray : IsArray (ObjectText fun _ => True) items tail)
    (hlen : items.length < 255) : Splits env items tail ↔ SplitCond env items := by
  have hpieces := pieces_of_isArray harray
  have hspans := hpieces.map_posLoop_eq_iff hlen
  have hcopies (hpos : (dpNodePosDecode (joined items tail) 255).map NodePos.span =
      objectSpans 0 items) :
      dpNodeParse env (joined items tail) (dpNodePosDecode (joined items tail) 255) ≠ .error .copy ↔
        (env.mallocBuf = true → FitBuffer env 0 items) := by
    rw [dpNodeParse]
    cases env.mallocBuf with
    | false =>
      rw [if_pos rfl]
      refine iff_of_true (fun heq => ?_) fun htrue => Bool.noConfusion htrue
      cases Except.error.inj heq
    | true =>
      rw [if_neg Bool.noConfusion, forall_prop_of_true rfl]
      exact nodeLoop_copies_iff env hpieces [] rfl hpos
  constructor
  · intro h
    obtain ⟨hdelimited, hends⟩ := hspans.mp h.spans
    exact ⟨hdelimited, hends, (hcopies h.spans).mp h.copies⟩
  · rintro ⟨hdelimited, hends, hfit⟩
    have hpos := hspans.mpr ⟨hdelimited, hends⟩
    exact ⟨hpos, (hcopies hpos).mpr hfit⟩

end Copies

/-! ### Two schemas of one object -/

/-- `{"id":"s"}`. -/
def idObject (s : Bytes) : Bytes :=
  0x7b :: (asciiBytes ['"', 'i', 'd', '"', ':', '"'] ++ s ++ [0x22] ++ [0x7d])

theorem isArray_idObject {S : Bytes → Prop} {s : Bytes} (hs : CharsText s) (hS : S s)
    (hname : S (asciiBytes ['i', 'd'])) :
    IsArray (ObjectText S) [([0x5b], idObject s)] [0x5d] := by
  have hblank : Blank [] := fun b hb => absurd hb List.not_mem_nil
  have hid : CharsText (asciiBytes ['i', 'd']) :=
    .plain (by decide) (.plain (by decide) .nil)
  have hmember := JsonText.lastMember hblank hid hname hblank hblank (JsonText.string hs hS) hblank
  refine ⟨⟨[], [], hblank, hblank, rfl⟩, ⟨_, rfl, Or.inr ?_⟩,
    fun q hq => absurd hq List.not_mem_nil, [], [], hblank, hblank, rfl⟩
  simpa [asciiBytes] using hmember

def idleEnv : SchemaEnv where
  parse _ := none
  mallocBuf := true
  mem _ := ⟨oprtOk, true, fun _ => true⟩

/-- A schema without a brace in a string. -/
theorem splits_idObject : Splits idleEnv [([0x5b], idObject [0x31])] [0x5d] := by
  have hone : CharsText [0x31] := .plain (by decide) .nil
  refine (splits_iff idleEnv (isArray_idObject hone trivial trivial) (by decide)).mpr ?_
  refine splitCond_of_level idleEnv (isArray_idObject hone ?_ ?_) (by decide) (by decide)
  · exact level_of_notMem (by decide) (by decide)
  · exact level_of_notMem (by decide) (by decide)

/-- A brace in a string ends the object too early. -/
theorem exists_not_splits :
    ∃ items tail, IsArray (ObjectText fun _ => True) items tail ∧ items.length < 255 ∧
      ∀ env, ¬Splits env items tail := by
  refine ⟨[([0x5b], idObject [0x7d])], [0x5d],
    isArray_idObject (.plain (by decide) .nil) trivial trivial, by decide, fun env h => ?_⟩
  exact absurd h.spans (by decide +kernel)

end TuyaOpen.Dp
