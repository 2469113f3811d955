import TuyaOpen.Basic.Json
import Mathlib.Algebra.BigOperators.Group.List.Basic

/-!
# The grammar of JSON texts

The texts of JSON as a grammar, at the level of bytes: which texts are values, members of an object
and items of an array. A text that is cut out of a longer one is found by its braces when no brace
stands in a string. The depth of a text is the number of its opening braces without those of its
closing ones, whether they stand in a string or not.

## Main results

* `exists_isArray`: every array can be cut in this way.
* `Level.append`, `Level.delimited`: how texts that return to their depth are put together.
* `JsonText.level`: a text returns to its depth when its strings do.
* `delimited_or`: a text that is not delimited comes back too early, or not at all.
* `zero_notMem_of_jsonText`: no text has a NUL.
-/

namespace TuyaOpen

/-! ### Texts -/

def Blank (t : Bytes) : Prop := ∀ b ∈ t, Json.isWs b = true

/-- The characters of a string between its quotes. -/
inductive CharsText : Bytes → Prop
  | nil : CharsText []
  | plain {b : UInt8} {t : Bytes} : Json.Plain true b → CharsText t → CharsText (b :: t)
  | escape {c : UInt8} {t : Bytes} : (Json.simpleEscape c).isSome = true → CharsText t →
      CharsText (0x5c :: c :: t)
  | unicode {d t : Bytes} : d.length = 4 → (∀ b ∈ d, (Json.hexValue b).isSome = true) →
      CharsText t → CharsText (0x5c :: 0x75 :: (d ++ t))

def DigitsText (t : Bytes) : Prop := t ≠ [] ∧ ∀ b ∈ t, Json.isDigit b = true

/-- A number: the sign, the integer part, the fraction and the exponent. -/
inductive NumberText : Bytes → Prop
  | mk {sign int frac exp : Bytes} : sign = [] ∨ sign = [0x2d] → DigitsText int →
      (int.head? = some 0x30 → int.length = 1) →
      (frac = [] ∨ ∃ t, DigitsText t ∧ frac = 0x2e :: t) →
      (exp = [] ∨ ∃ e s t, (e = 0x65 ∨ e = 0x45) ∧ (s = [] ∨ s = [0x2b] ∨ s = [0x2d]) ∧
        DigitsText t ∧ exp = e :: (s ++ t)) →
      NumberText (sign ++ (int ++ (frac ++ exp)))

inductive JsonPart
  | value
  | members
  | items

/-- The texts of JSON: values without white space around them, one or more members, and one or more
items. Of the texts of strings only those between quotes that satisfy `S` are taken. -/
inductive JsonText (S : Bytes → Prop) : JsonPart → Bytes → Prop
  | null : JsonText S .value (asciiBytes ['n', 'u', 'l', 'l'])
  | true : JsonText S .value (asciiBytes ['t', 'r', 'u', 'e'])
  | false : JsonText S .value (asciiBytes ['f', 'a', 'l', 's', 'e'])
  | number {t : Bytes} : NumberText t → JsonText S .value t
  | string {s : Bytes} : CharsText s → S s → JsonText S .value (0x22 :: (s ++ [0x22]))
  | emptyObject {w : Bytes} : Blank w → JsonText S .value (0x7b :: (w ++ [0x7d]))
  | object {t : Bytes} : JsonText S .members t → JsonText S .value (0x7b :: (t ++ [0x7d]))
  | emptyArray {w : Bytes} : Blank w → JsonText S .value (0x5b :: (w ++ [0x5d]))
  | array {t : Bytes} : JsonText S .items t → JsonText S .value (0x5b :: (t ++ [0x5d]))
  | lastMember {w₁ s w₂ w₃ v w₄ : Bytes} : Blank w₁ → CharsText s → S s → Blank w₂ → Blank w₃ →
      JsonText S .value v → Blank w₄ →
      JsonText S .members (w₁ ++ (0x22 :: (s ++ 0x22 :: (w₂ ++ 0x3a :: (w₃ ++ (v ++ w₄))))))
  | member {t u : Bytes} : JsonText S .members t → JsonText S .members u →
      JsonText S .members (t ++ 0x2c :: u)
  | lastItem {w₁ v w₂ : Bytes} : Blank w₁ → JsonText S .value v → Blank w₂ →
      JsonText S .items (w₁ ++ (v ++ w₂))
  | item {t u : Bytes} : JsonText S .items t → JsonText S .items u →
      JsonText S .items (t ++ 0x2c :: u)

/-! ### Arrays -/

/-- A text that has been cut into items, each with what stands in front of it, and what stands
behind the last one. -/
def joined (items : List (Bytes × Bytes)) (tail : Bytes) : Bytes :=
  (items.flatMap fun p => p.1 ++ p.2) ++ tail

/-- An array whose items satisfy `V`: an opening bracket stands in front of the first item, a comma
in front of each other one, and a closing bracket behind the last one. -/
def IsArray (V : Bytes → Prop) : List (Bytes × Bytes) → Bytes → Prop
  | [], tail => ∃ w₁ w₂ w₃, Blank w₁ ∧ Blank w₂ ∧ Blank w₃ ∧
      tail = w₁ ++ 0x5b :: (w₂ ++ 0x5d :: w₃)
  | p :: items, tail =>
    (∃ w₁ w₂, Blank w₁ ∧ Blank w₂ ∧ p.1 = w₁ ++ 0x5b :: w₂) ∧ V p.2 ∧
      (∀ q ∈ items, (∃ w₁ w₂, Blank w₁ ∧ Blank w₂ ∧ q.1 = w₁ ++ 0x2c :: w₂) ∧ V q.2) ∧
      ∃ w₁ w₂, Blank w₁ ∧ Blank w₂ ∧ tail = w₁ ++ 0x5d :: w₂

/-! ### Braces -/

def braceDelta (b : UInt8) : ℤ := if b = 0x7b then 1 else if b = 0x7d then -1 else 0

def depth (t : Bytes) : ℤ := (t.map braceDelta).sum

/-- A text that is never below the depth at which it starts, and ends at this depth. -/
structure Level (t : Bytes) : Prop where
  depth_take : ∀ n, 0 ≤ depth (t.take n)
  depth_eq : depth t = 0

/-- A text that comes back to the depth at which it starts with its last byte only. -/
structure Delimited (t : Bytes) : Prop where
  depth_take : ∀ n, 0 < n → n < t.length → 0 < depth (t.take n)
  depth_eq : depth t = 0

section Depth

variable {s t : Bytes}

@[simp] theorem depth_nil : depth [] = 0 := rfl

@[simp] theorem depth_cons (b : UInt8) (t : Bytes) : depth (b :: t) = braceDelta b + depth t := by
  rw [depth, List.map_cons, List.sum_cons, depth]

@[simp] theorem depth_append (s t : Bytes) : depth (s ++ t) = depth s + depth t := by
  rw [depth, List.map_append, List.sum_append, depth, depth]

theorem braceDelta_of_ne {b : UInt8} (hopen : b ≠ 0x7b) (hclose : b ≠ 0x7d) : braceDelta b = 0 := by
  rw [braceDelta, if_neg hopen, if_neg hclose]

theorem braceDelta_ge (b : UInt8) : -1 ≤ braceDelta b := by
  rw [braceDelta]
  split_ifs <;> decide

theorem depth_of_notMem (hopen : 0x7b ∉ t) (hclose : 0x7d ∉ t) : depth t = 0 := by
  induction t with
  | nil => rfl
  | cons b t ih =>
    rw [depth_cons, braceDelta_of_ne (List.ne_of_not_mem_cons hopen).symm
      (List.ne_of_not_mem_cons hclose).symm, ih (List.not_mem_of_not_mem_cons hopen)
      (List.not_mem_of_not_mem_cons hclose), add_zero]

theorem level_of_notMem (hopen : 0x7b ∉ t) (hclose : 0x7d ∉ t) : Level t where
  depth_take n := by
    rw [depth_of_notMem (fun h => hopen (List.mem_of_mem_take h))
      fun h => hclose (List.mem_of_mem_take h)]
  depth_eq := depth_of_notMem hopen hclose

theorem Level.append (hs : Level s) (ht : Level t) : Level (s ++ t) where
  depth_take n := by
    rw [List.take_append, depth_append]
    exact add_nonneg (hs.depth_take n) (ht.depth_take _)
  depth_eq := by rw [depth_append, hs.depth_eq, ht.depth_eq, add_zero]

theorem Level.cons {b : UInt8} (hopen : b ≠ 0x7b) (hclose : b ≠ 0x7d) (ht : Level t) :
    Level (b :: t) := by
  have hb : Level [b] := level_of_notMem (by simpa using hopen.symm) (by simpa using hclose.symm)
  exact hb.append ht

theorem Level.delimited (ht : Level t) : Delimited (0x7b :: (t ++ [0x7d])) where
  depth_take n hpos hlt := by
    obtain ⟨n, rfl⟩ := Nat.exists_eq_succ_of_ne_zero hpos.ne'
    rw [List.length_cons, List.length_append, List.length_singleton] at hlt
    rw [List.take_succ_cons, depth_cons, List.take_append_of_le_length (by omega)]
    have htake := ht.depth_take n
    have hopen : braceDelta 0x7b = 1 := rfl
    omega
  depth_eq := by
    rw [depth_cons, depth_append, ht.depth_eq]
    rfl

theorem Delimited.level (ht : Delimited t) : Level t where
  depth_take n := by
    rcases Nat.eq_zero_or_pos n with rfl | hpos
    · exact le_rfl
    · by_cases hlt : n < t.length
      · exact (ht.depth_take n hpos hlt).le
      · rw [List.take_of_length_le (not_lt.mp hlt), ht.depth_eq]
  depth_eq := ht.depth_eq

theorem depth_take_succ_ge (t : Bytes) (n : Nat) :
    depth (t.take n) - 1 ≤ depth (t.take (n + 1)) := by
  rw [List.take_add_one, depth_append]
  cases t[n]? with
  | none => simp
  | some b =>
    have hb := braceDelta_ge b
    rw [Option.toList_some, depth_cons, depth_nil]
    omega

theorem delimited_or (t : Bytes) :
    Delimited (0x7b :: t) ∨
      (∃ n, 0 < n ∧ n < (0x7b :: t : Bytes).length ∧ Delimited ((0x7b :: t : Bytes).take n)) ∨
      ∀ n ≤ t.length, 0 < 1 + depth (t.take n) := by
  have hsucc (n : Nat) : depth ((0x7b :: t : Bytes).take (n + 1)) = 1 + depth (t.take n) := by
    rw [List.take_succ_cons, depth_cons]
    rfl
  by_cases hback : ∃ n, n ≤ t.length ∧ 1 + depth (t.take n) ≤ 0
  · classical
    -- The first time that the depth comes back.
    have hfirst : ∀ m < Nat.find hback, 0 < 1 + depth (t.take m) := by
      intro m hm
      by_contra hle
      exact Nat.find_min hback hm ⟨hm.le.trans (Nat.find_spec hback).1, by omega⟩
    obtain ⟨hle, hdepth⟩ := Nat.find_spec hback
    generalize Nat.find hback = n at hfirst hle hdepth
    obtain ⟨n, rfl⟩ : ∃ m, n = m + 1 := by
      cases n with
      | zero => exact absurd hdepth (by simp)
      | succ m => exact ⟨m, rfl⟩
    have hstep := depth_take_succ_ge t n
    have hbefore := hfirst n (Nat.lt_succ_self n)
    have hdelimited : Delimited ((0x7b :: t : Bytes).take (n + 1 + 1)) :=
      { depth_take := fun m hpos hlt => by
          obtain ⟨m, rfl⟩ := Nat.exists_eq_succ_of_ne_zero hpos.ne'
          have hlt' := hlt.trans_le (List.length_take_le _ _)
          rw [List.take_take, Nat.min_eq_left hlt'.le, hsucc]
          exact hfirst m (Nat.lt_of_succ_lt_succ hlt')
        depth_eq := by
          rw [hsucc]
          omega }
    by_cases hall : n + 1 = t.length
    · left
      rwa [hall, List.take_of_length_le (by rw [List.length_cons])] at hdelimited
    · exact Or.inr (Or.inl ⟨n + 1 + 1, Nat.succ_pos _, by rw [List.length_cons]; omega, hdelimited⟩)
  · refine Or.inr (Or.inr fun n hn => ?_)
    by_contra hle
    exact hback ⟨n, hn, by omega⟩

theorem Delimited.exists_eq {t : Bytes} (h : Delimited (0x7b :: t)) :
    ∃ u, t = u ++ [0x7d] ∧ (∀ n ≤ u.length, 0 < 1 + depth (u.take n)) ∧ depth u = 0 := by
  have hopen : braceDelta 0x7b = 1 := rfl
  rcases List.eq_nil_or_concat t with rfl | ⟨u, b, rfl⟩
  · exact absurd h.depth_eq (by decide)
  · have htake : ∀ n ≤ u.length, 0 < 1 + depth (u.take n) := by
      intro n hn
      have hpos := h.depth_take (n + 1) (Nat.succ_pos n) (by simp; omega)
      rwa [List.take_succ_cons, depth_cons, List.concat_eq_append,
        List.take_append_of_le_length hn] at hpos
    have hall := htake u.length le_rfl
    have hdepth := h.depth_eq
    rw [List.take_length] at hall
    rw [List.concat_eq_append, depth_cons, depth_append, depth_cons, depth_nil] at hdepth
    have hb : braceDelta b < 0 := by omega
    have hclose : b = 0x7d := by
      by_contra hne
      rw [braceDelta, if_neg hne] at hb
      split_ifs at hb
      · exact absurd hb (by decide)
      · exact absurd hb (by decide)
    rw [hclose] at hdepth ⊢
    have hdelta : braceDelta 0x7d = -1 := rfl
    exact ⟨u, List.concat_eq_append, htake, by omega⟩

end Depth

/-! ### Bytes of the tokens -/

section Tokens

variable {t : Bytes}

def Neutral (b : UInt8) : Prop := b ≠ 0x7b ∧ b ≠ 0x7d ∧ b ≠ 0

theorem Blank.neutral (h : Blank t) : ∀ b ∈ t, Neutral b := by
  intro b hb
  have hws := of_decide_eq_true (h b hb)
  refine ⟨?_, ?_, ?_⟩ <;> rintro rfl <;> exact absurd hws (by decide)

theorem DigitsText.neutral (h : DigitsText t) : ∀ b ∈ t, Neutral b := by
  intro b hb
  have hdigit := of_decide_eq_true (h.2 b hb)
  refine ⟨?_, ?_, ?_⟩ <;> rintro rfl <;> exact absurd hdigit (by decide)

theorem NumberText.neutral (h : NumberText t) : ∀ b ∈ t, Neutral b := by
  obtain ⟨hsign, hint, -, hfrac, hexp⟩ := h
  intro b hb
  rcases List.mem_append.mp hb with hb | hb
  · rcases hsign with rfl | rfl
    · cases hb
    · rw [List.mem_singleton.mp hb]
      exact ⟨by decide, by decide, by decide⟩
  rcases List.mem_append.mp hb with hb | hb
  · exact hint.neutral b hb
  rcases List.mem_append.mp hb with hb | hb
  · rcases hfrac with rfl | ⟨t, ht, rfl⟩
    · cases hb
    · rcases List.mem_cons.mp hb with rfl | hb
      · exact ⟨by decide, by decide, by decide⟩
      · exact ht.neutral b hb
  · rcases hexp with rfl | ⟨e, s, t, he, hs, ht, rfl⟩
    · cases hb
    · rcases List.mem_cons.mp hb with rfl | hb
      · rcases he with rfl | rfl
        · exact ⟨by decide, by decide, by decide⟩
        · exact ⟨by decide, by decide, by decide⟩
      · rcases List.mem_append.mp hb with hb | hb
        · rcases hs with rfl | rfl | rfl
          · cases hb
          · rw [List.mem_singleton.mp hb]
            exact ⟨by decide, by decide, by decide⟩
          · rw [List.mem_singleton.mp hb]
            exact ⟨by decide, by decide, by decide⟩
        · exact ht.neutral b hb

theorem zero_notMem_of_charsText (h : CharsText t) : 0 ∉ t := by
  induction h with
  | nil => exact List.not_mem_nil
  | plain hb _ ih =>
    rintro (_ | ⟨_, hmem⟩)
    · exact absurd (hb.2.2 rfl) (by decide)
    · exact ih hmem
  | @escape c t hc _ ih =>
    intro hmem
    rcases List.mem_cons.mp hmem with hmem | hmem
    · cases hmem
    · rcases List.mem_cons.mp hmem with rfl | hmem
      · exact absurd hc (by decide)
      · exact ih hmem
  | @unicode d t _ hd _ ih =>
    intro hmem
    rcases List.mem_cons.mp hmem with hmem | hmem
    · cases hmem
    rcases List.mem_cons.mp hmem with hmem | hmem
    · cases hmem
    rcases List.mem_append.mp hmem with hmem | hmem
    · exact absurd (hd 0 hmem) (by decide)
    · exact ih hmem

theorem level_of_neutral (h : ∀ b ∈ t, Neutral b) : Level t :=
  level_of_notMem (fun hmem => (h _ hmem).1 rfl) fun hmem => (h _ hmem).2.1 rfl

theorem zero_notMem_of_neutral (h : ∀ b ∈ t, Neutral b) : 0 ∉ t := fun hmem => (h 0 hmem).2.2 rfl

end Tokens

/-! ### Texts of the grammar -/

section Grammar

variable {S : Bytes → Prop} {part : JsonPart} {t : Bytes}

theorem zero_notMem_of_jsonText (h : JsonText S part t) : 0 ∉ t := by
  induction h with
  | null => decide
  | true => decide
  | false => decide
  | number ht => exact zero_notMem_of_neutral ht.neutral
  | string hs _ => simp [zero_notMem_of_charsText hs]
  | emptyObject hw => simp [zero_notMem_of_neutral hw.neutral]
  | object _ ih => simp [ih]
  | emptyArray hw => simp [zero_notMem_of_neutral hw.neutral]
  | array _ ih => simp [ih]
  | lastMember hw₁ hs _ hw₂ hw₃ _ hw₄ ih =>
    simp [zero_notMem_of_neutral hw₁.neutral, zero_notMem_of_charsText hs,
      zero_notMem_of_neutral hw₂.neutral, zero_notMem_of_neutral hw₃.neutral, ih,
      zero_notMem_of_neutral hw₄.neutral]
  | member _ _ ih₁ ih₂ => simp [ih₁, ih₂]
  | lastItem hw₁ _ hw₂ ih =>
    simp [zero_notMem_of_neutral hw₁.neutral, ih, zero_notMem_of_neutral hw₂.neutral]
  | item _ _ ih₁ ih₂ => simp [ih₁, ih₂]

/-- **Texts and braces.** When the strings return to their depth (they do when no brace stands in
them), so does the text. -/
theorem JsonText.level (hS : ∀ s, S s → Level s) (h : JsonText S part t) : Level t := by
  induction h with
  | null => exact level_of_notMem (by decide) (by decide)
  | true => exact level_of_notMem (by decide) (by decide)
  | false => exact level_of_notMem (by decide) (by decide)
  | number ht => exact level_of_neutral ht.neutral
  | string _ hs =>
    exact ((hS _ hs).append (level_of_notMem (by decide) (by decide))).cons (by decide) (by decide)
  | emptyObject hw => exact (level_of_neutral hw.neutral).delimited.level
  | object _ ih => exact ih.delimited.level
  | emptyArray hw =>
    exact ((level_of_neutral hw.neutral).append (level_of_notMem (by decide) (by decide))).cons
      (by decide) (by decide)
  | array _ ih =>
    exact (ih.append (level_of_notMem (by decide) (by decide))).cons (by decide) (by decide)
  | lastMember hw₁ _ hs hw₂ hw₃ _ hw₄ ih =>
    have hvalue := (level_of_neutral hw₃.neutral).append (ih.append (level_of_neutral hw₄.neutral))
    have hcolon :=
      (level_of_neutral hw₂.neutral).append (hvalue.cons (b := 0x3a) (by decide) (by decide))
    have hname := (hS _ hs).append (hcolon.cons (b := 0x22) (by decide) (by decide))
    exact (level_of_neutral hw₁.neutral).append (hname.cons (by decide) (by decide))
  | member _ _ ih₁ ih₂ => exact ih₁.append (ih₂.cons (by decide) (by decide))
  | lastItem hw₁ _ hw₂ ih =>
    exact (level_of_neutral hw₁.neutral).append (ih.append (level_of_neutral hw₂.neutral))
  | item _ _ ih₁ ih₂ => exact ih₁.append (ih₂.cons (by decide) (by decide))

theorem exists_items (h : JsonText S .items t) :
    ∃ w v items u, Blank w ∧ JsonText S .value v ∧ Blank u ∧
      (∀ q ∈ items, (∃ w₁ w₂, Blank w₁ ∧ Blank w₂ ∧ q.1 = w₁ ++ 0x2c :: w₂) ∧
        JsonText S .value q.2) ∧
      t = w ++ (v ++ joined items u) := by
  generalize hpart : JsonPart.items = part at h
  induction h with
  | @lastItem w v u hw hv hu _ =>
    exact ⟨w, v, [], u, hw, hv, hu, fun q hq => absurd hq List.not_mem_nil, rfl⟩
  | item _ _ ih₁ ih₂ =>
    obtain ⟨w, v, items, u, hw, hv, hu, hitems, rfl⟩ := ih₁ hpart
    obtain ⟨w', v', items', u', hw', hv', hu', hitems', rfl⟩ := ih₂ hpart
    refine ⟨w, v, items ++ (u ++ 0x2c :: w', v') :: items', u', hw, hv, hu', ?_, ?_⟩
    · intro q hq
      rcases List.mem_append.mp hq with hq | hq
      · exact hitems q hq
      · rcases List.mem_cons.mp hq with rfl | hq
        · exact ⟨⟨u, w', hu, hw', rfl⟩, hv'⟩
        · exact hitems' q hq
    · simp only [joined, List.flatMap_append, List.flatMap_cons, List.append_assoc,
        List.cons_append]
  | _ => cases hpart

/-- **Every array can be cut into its items.** -/
theorem exists_isArray (h : JsonText S .items t) {w₁ w₂ : Bytes} (hw₁ : Blank w₁) (hw₂ : Blank w₂) :
    ∃ items tail, items ≠ [] ∧ IsArray (JsonText S .value) items tail ∧
      joined items tail = w₁ ++ 0x5b :: (t ++ 0x5d :: w₂) := by
  obtain ⟨w, v, items, u, hw, hv, hu, hitems, rfl⟩ := exists_items h
  refine ⟨(w₁ ++ 0x5b :: w, v) :: items, u ++ 0x5d :: w₂, List.cons_ne_nil _ _,
    ⟨⟨w₁, w, hw₁, hw, rfl⟩, hv, hitems, u, w₂, hu, hw₂, rfl⟩, ?_⟩
  simp only [joined, List.flatMap_cons, List.append_assoc, List.cons_append]

end Grammar

end TuyaOpen
