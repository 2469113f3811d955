import TuyaOpen.Utilities.WordHeap

/-!
# The layout of a heap on words of either size

A heap is laid out as a list of blocks, each with its size, with the number of bytes that was asked
for when it is in use, and with its tag. The list says what the memory holds. The tag of a free
block of two words is the last byte of its link, so the tag of a free block is not always the one
that was written.

## Main results

* `findBlock_spec`, `freePosition_spec`: the loops over the free list.
* `Laid.setLink`: the link to what follows a list is turned.
* `Laid.splitBlock`, `Laid.unlinkBlock`: what `mem_chunk_get` does to a free block.
* `Laid.linkBlock`, `Laid.mergeNext`: what `MEM_Deallocate` does to a block in use.
-/

namespace TuyaOpen.WordHeap

open Memory
open MemHeap (Heap memBlockMinSize fitFindDepth memBlockStatUse memBlockStatFree)

/-! ### The sizes -/

section Sizes

variable (c : Build)

def minBlock : Build → Nat
  | .words4 => 12
  | .words8 => 16

theorem sizes :
    memBlockHeadSize c = wordSize c ∧ memAlignNum c = wordSize c ∧
      memHeapMinSize c = 24 + wordSize c ∧ 256 ^ wordSize c = wordLimit c ∧
      2 * wordSize c ≤ minBlock c ∧ 4 ≤ wordSize c ∧ wordSize c ≤ 8 ∧ 0 < wordLimit c := by
  cases c <;> decide

variable {c} {n : Nat}

end Sizes

/-! ### Blocks -/

/-- A block of a heap with its size, with the number of bytes that was asked for when it is in use,
and with its tag. The requested bytes fit between the header and the tag. -/
structure Block (c : Build) where
  size : Nat
  used : Option Nat
  tag : UInt8
  le_size : minBlock c ≤ size
  used_le : ∀ n ∈ used, memBlockHeadSize c + n + 1 ≤ size
  tag_used : used ≠ none → tag = memBlockStatUse

variable {c : Build}

namespace Block

def free (size : Nat) (tag : UInt8) (h : minBlock c ≤ size) : Block c where
  size := size
  used := none
  tag := tag
  le_size := h
  used_le := fun _ h => by cases h
  tag_used := fun h => absurd rfl h

/-- A block for `n` bytes. -/
def inUse (size n : Nat) (h : minBlock c ≤ size) (hn : memBlockHeadSize c + n + 1 ≤ size) :
    Block c where
  size := size
  used := some n
  tag := memBlockStatUse
  le_size := h
  used_le := by
    rintro k hk
    cases hk
    exact hn
  tag_used := fun _ => rfl

/-- The free block that two neighbouring blocks become. The tag is that of the second one. -/
def merge (b d : Block c) : Block c :=
  free (b.size + d.size) d.tag (b.le_size.trans (Nat.le_add_right _ _))

/-- The block after it is given back and `next` is written as its link. If it has only two words,
the last byte of the link is its tag. -/
def released (b : Block c) (next : Nat) : Block c :=
  free b.size
    (if 2 * wordSize c < b.size then memBlockStatFree
      else UInt8.ofNat (next / 256 ^ (wordSize c - 1)))
    b.le_size

def Good (b : Block c) : Prop :=
  b.used = none → b.tag = memBlockStatFree ∧ 2 * wordSize c < b.size

variable {b d : Block c}

@[simp] theorem size_merge : (b.merge d).size = b.size + d.size := rfl

@[simp] theorem used_merge : (b.merge d).used = none := rfl

@[simp] theorem tag_merge : (b.merge d).tag = d.tag := rfl

@[simp] theorem size_released {next : Nat} : (b.released next).size = b.size := rfl

@[simp] theorem used_released {next : Nat} : (b.released next).used = none := rfl

theorem two_words_le (b : Block c) : 2 * wordSize c ≤ b.size := (sizes c).2.2.2.2.1.trans b.le_size

theorem good_of_used (h : b.used ≠ none) : b.Good := fun hfree => absurd hfree h

theorem good_released {next : Nat} (h : 2 * wordSize c < b.size) : (b.released next).Good :=
  fun _ => ⟨if_pos h, h⟩

theorem good_merge (h : d.used = none) (hd : d.Good) : (b.merge d).Good :=
  fun _ => ⟨(hd h).1, Nat.lt_of_lt_of_le (hd h).2 (Nat.le_add_left _ _)⟩

end Block

/-! ### Lists of blocks -/

def total : List (Block c) → Nat
  | [] => 0
  | b :: bs => b.size + total bs

/-- The address of the first free block of a list from `a` on, or `link`. -/
def firstFree : Nat → List (Block c) → Nat → Nat
  | _, [], link => link
  | a, b :: bs, link => if b.used = none then a else firstFree (a + b.size) bs link

/-- The address of the last free block of a list from `a` on, or `pre`. -/
def lastFree : Nat → List (Block c) → Nat → Nat
  | _, [], pre => pre
  | a, b :: bs, pre => lastFree (a + b.size) bs (if b.used = none then a else pre)

/-- The pointers in use of a list from `a` on, each with the number of bytes that was asked for. -/
def liveList : Nat → List (Block c) → List (Nat × Nat)
  | _, [] => []
  | a, b :: bs => (b.used.map (a + memBlockHeadSize c, ·)).toList ++ liveList (a + b.size) bs

def AllUsed (bs : List (Block c)) : Prop := ∀ b ∈ bs, b.used ≠ none

def Good (bs : List (Block c)) : Prop := ∀ b ∈ bs, b.Good

variable {m m' : Memory} {a link link' pre v : Nat} {b f t : Block c}
  {bs xs ys us ws : List (Block c)}

@[simp] theorem total_nil : total ([] : List (Block c)) = 0 := rfl

@[simp] theorem total_cons : total (b :: bs) = b.size + total bs := rfl

@[simp] theorem total_append : total (xs ++ ys) = total xs + total ys := by
  induction xs with
  | nil => simp
  | cons x xs ih => simp [ih, Nat.add_assoc]

theorem length_le_total : bs.length ≤ total bs := by
  induction bs with
  | nil => exact le_rfl
  | cons b bs ih =>
    have hb := b.two_words_le
    have hsizes := sizes c
    rw [List.length_cons, total_cons]
    omega

theorem firstFree_append :
    firstFree a (xs ++ ys) link = firstFree a xs (firstFree (a + total xs) ys link) := by
  induction xs generalizing a with
  | nil => rfl
  | cons x xs ih => simp only [List.cons_append, firstFree, ih, total_cons, Nat.add_assoc]

theorem firstFree_of_allUsed (h : AllUsed us) : firstFree a us link = link := by
  induction us generalizing a with
  | nil => rfl
  | cons u us ih =>
    obtain ⟨hu, hus⟩ := List.forall_mem_cons.mp h
    rw [firstFree, if_neg hu, ih hus]

theorem firstFree_cons_free (h : b.used = none) : firstFree a (b :: bs) link = a := if_pos h

theorem firstFree_cons_used (h : b.used ≠ none) :
    firstFree a (b :: bs) link = firstFree (a + b.size) bs link := if_neg h

theorem lastFree_append :
    lastFree a (xs ++ ys) pre = lastFree (a + total xs) ys (lastFree a xs pre) := by
  induction xs generalizing a pre with
  | nil => rfl
  | cons x xs ih => simp only [List.cons_append, lastFree, ih, total_cons, Nat.add_assoc]

theorem firstFree_bounds (a link : Nat) (bs : List (Block c)) :
    firstFree a bs link = link ∨ a ≤ firstFree a bs link ∧ firstFree a bs link < a + total bs := by
  induction bs generalizing a with
  | nil => exact .inl rfl
  | cons b bs ih =>
    have hb := b.two_words_le
    have hsizes := sizes c
    rw [firstFree, total_cons]
    split_ifs with hfree
    · exact .inr ⟨le_rfl, by omega⟩
    · rcases ih (a + b.size) with h | h
      · exact .inl h
      · exact .inr ⟨by omega, by omega⟩

theorem lastFree_cases (a pre : Nat) (xs : List (Block c)) :
    (AllUsed xs ∧ lastFree a xs pre = pre) ∨
      ∃ ws f us, xs = ws ++ f :: us ∧ f.used = none ∧ AllUsed us ∧
        lastFree a xs pre = a + total ws := by
  induction xs using List.reverseRecOn with
  | nil => exact .inl ⟨List.forall_mem_nil _, rfl⟩
  | append_singleton xs x ih =>
    rw [lastFree_append]
    by_cases hx : x.used = none
    · exact .inr ⟨xs, x, [], rfl, hx, List.forall_mem_nil _, if_pos hx⟩
    · rw [lastFree, lastFree, if_neg hx]
      rcases ih with ⟨hxs, heq⟩ | ⟨ws, f, us, rfl, hf, hus, heq⟩
      · exact .inl ⟨List.forall_mem_append.mpr ⟨hxs, List.forall_mem_singleton.mpr hx⟩, heq⟩
      · refine .inr ⟨ws, f, us ++ [x], by simp, hf, ?_, heq⟩
        exact List.forall_mem_append.mpr ⟨hus, List.forall_mem_singleton.mpr hx⟩

theorem liveList_append :
    liveList a (xs ++ ys) = liveList a xs ++ liveList (a + total xs) ys := by
  induction xs generalizing a with
  | nil => rfl
  | cons x xs ih => simp only [List.cons_append, liveList, ih, total_cons, Nat.add_assoc,
      List.append_assoc]

theorem liveList_cons_free (h : b.used = none) :
    liveList a (b :: bs) = liveList (a + b.size) bs := by
  rw [liveList, h]
  rfl

theorem liveList_cons_used {n : Nat} (h : b.used = some n) :
    liveList a (b :: bs) = (a + memBlockHeadSize c, n) :: liveList (a + b.size) bs := by
  rw [liveList, h]
  rfl

theorem exists_of_mem_liveList {p : Nat × Nat} (h : p ∈ liveList a bs) :
    ∃ xs b ys, bs = xs ++ b :: ys ∧ b.used = some p.2 ∧
      p.1 = a + total xs + memBlockHeadSize c := by
  induction bs generalizing a with
  | nil => cases h
  | cons b bs ih =>
    rcases List.mem_append.mp h with h | h
    · obtain ⟨n, hn, rfl⟩ := by simpa using h
      exact ⟨[], b, bs, rfl, hn, rfl⟩
    · obtain ⟨xs, d, ys, rfl, hd, hp⟩ := ih h
      exact ⟨b :: xs, d, ys, rfl, hd, by rw [hp, total_cons, Nat.add_assoc a]⟩

theorem bounds_of_mem_liveList {p : Nat × Nat} (h : p ∈ liveList a bs) :
    a + memBlockHeadSize c ≤ p.1 ∧ p.1 < a + total bs := by
  obtain ⟨xs, b, ys, rfl, -, hp⟩ := exists_of_mem_liveList h
  have hb := b.two_words_le
  have hsizes := sizes c
  rw [hp, total_append, total_cons]
  omega

theorem good_append : Good (xs ++ ys) ↔ Good xs ∧ Good ys := List.forall_mem_append

theorem good_cons : Good (b :: bs) ↔ b.Good ∧ Good bs := List.forall_mem_cons

/-! ### Blocks in memory -/

/-- The memory holds a block at an address; `next` is what a free block holds as the next one. -/
structure BlockAt (m : Memory) (a : Nat) (b : Block c) (next : Nat) : Prop where
  size : blockSize c m a = b.size
  tag : m (a + b.size - 1) = b.tag
  next : b.used = none → blockNext c m a = next

/-- The memory holds a list of blocks from an address on; `link` is the free block after them. -/
def Laid (m : Memory) : Nat → List (Block c) → Nat → Prop
  | _, [], _ => True
  | a, b :: bs, link =>
    BlockAt m a b (firstFree (a + b.size) bs link) ∧ Laid m (a + b.size) bs link

theorem BlockAt.congr {next : Nat} (h : BlockAt m a b next) (hsame : Same m m' a (a + b.size)) :
    BlockAt m' a b next := by
  have hb := b.two_words_le
  have hsizes := sizes c
  refine ⟨?_, ?_, fun hfree => ?_⟩
  · rw [← h.size]
    exact readLe_congr hsame le_rfl (by omega)
  · rw [← h.tag]
    exact hsame _ (by omega) (by omega)
  · rw [← h.next hfree]
    exact readLe_congr hsame (by omega) (by omega)

theorem BlockAt.of_used {next next' : Nat} (h : BlockAt m a b next) (hb : b.used ≠ none) :
    BlockAt m a b next' :=
  ⟨h.size, h.tag, fun hfree => absurd hfree hb⟩

theorem memDogAddr_eq {next : Nat} (h : BlockAt m a b next) :
    memDogAddr c m a = a + b.size - 1 := by
  rw [memDogAddr, h.size]

theorem laid_append :
    Laid m a (xs ++ ys) link ↔
      Laid m a xs (firstFree (a + total xs) ys link) ∧ Laid m (a + total xs) ys link := by
  induction xs generalizing a with
  | nil => simp [Laid]
  | cons x xs ih =>
    simp only [List.cons_append, Laid, ih, firstFree_append, total_cons, ← Nat.add_assoc, and_assoc]

theorem laid_append_cons :
    Laid m a (xs ++ b :: ys) link ↔
      Laid m a xs (firstFree (a + total xs) (b :: ys) link) ∧
        BlockAt m (a + total xs) b (firstFree (a + total xs + b.size) ys link) ∧
        Laid m (a + total xs + b.size) ys link := laid_append

theorem Laid.congr (h : Laid m a bs link) (hsame : Same m m' a (a + total bs)) :
    Laid m' a bs link := by
  induction bs generalizing a with
  | nil => trivial
  | cons b bs ih =>
    rw [total_cons] at hsame
    exact ⟨h.1.congr (hsame.mono le_rfl (by omega)), ih h.2 (hsame.mono (by omega) (by omega))⟩

theorem Laid.of_allUsed (h : Laid m a us link) (hus : AllUsed us) : Laid m a us link' := by
  induction us generalizing a with
  | nil => trivial
  | cons u us ih =>
    obtain ⟨hu, hus⟩ := List.forall_mem_cons.mp hus
    exact ⟨h.1.of_used hu, ih h.2 hus⟩

theorem Laid.middle (h : Laid m a (xs ++ b :: ys) link) :
    BlockAt m (a + total xs) b (firstFree (a + total xs + b.size) ys link) :=
  (laid_append_cons.mp h).2.1

/-! ### The loops over the free list -/

/-- A free block of a list from `a` on that is large enough, with the free block before it. -/
def Chosen (n a : Nat) (bs : List (Block c)) (pre : Nat) (r : Nat × Nat) : Prop :=
  ∃ xs f ys, bs = xs ++ f :: ys ∧ f.used = none ∧ n ≤ f.size ∧
    r = (lastFree a xs pre, a + total xs)

theorem Chosen.cons {n : Nat} {r : Nat × Nat}
    (h : Chosen n (a + b.size) bs (if b.used = none then a else pre) r) :
    Chosen n a (b :: bs) pre r := by
  obtain ⟨xs, f, ys, rfl, hf, hn, rfl⟩ := h
  refine ⟨b :: xs, f, ys, rfl, hf, hn, ?_⟩
  rw [lastFree, total_cons, Nat.add_assoc]

theorem Chosen.head {n : Nat} (hb : b.used = none) (hn : n ≤ b.size) :
    Chosen n a (b :: bs) pre (pre, a) :=
  ⟨[], b, bs, rfl, hb, hn, rfl⟩

theorem bestFit_spec (n findNum pre this preBak : Nat) {fuel : Nat} (h : Laid m a ws 0)
    (ha : a ≠ 0) (hfuel : ws.length < fuel) :
    ∃ r, bestFit c m n fuel findNum pre this preBak (firstFree a ws 0) = some r ∧
      (r = (pre, this) ∨ Chosen n a ws preBak r) := by
  induction ws generalizing a fuel findNum pre this preBak with
  | nil =>
    obtain ⟨fuel, rfl⟩ := Nat.exists_eq_add_of_lt hfuel
    exact ⟨(pre, this), if_pos rfl, .inl rfl⟩
  | cons b ws ih =>
    rw [List.length_cons] at hfuel
    obtain ⟨hblock, hrest⟩ := h
    obtain ⟨fuel, rfl⟩ := Nat.exists_eq_succ_of_ne_zero (Nat.ne_of_gt (Nat.zero_lt_of_lt hfuel))
    have hws : ws.length < fuel := Nat.lt_of_succ_lt_succ hfuel
    by_cases hb : b.used = none
    · rw [firstFree, if_pos hb, bestFit, if_neg ha, hblock.next hb, hblock.size]
      -- a later block is chosen behind this one, which is free
      have hlater {r : Nat × Nat} (hr : Chosen n (a + b.size) ws a r) :
          Chosen n a (b :: ws) preBak r := Chosen.cons (by rwa [if_pos hb])
      split_ifs with hfit hdepth hdepth
      · exact ⟨_, rfl, .inr (Chosen.head hb hfit.1)⟩
      · obtain ⟨r, hr, hcases⟩ := ih (findNum + 1) preBak a a hrest (by omega) hws
        refine ⟨r, hr, .inr ?_⟩
        rcases hcases with rfl | hcases
        · exact Chosen.head hb hfit.1
        · exact hlater hcases
      · exact ⟨_, rfl, .inl rfl⟩
      · obtain ⟨r, hr, hcases⟩ := ih findNum pre this a hrest (by omega) hws
        exact ⟨r, hr, hcases.imp_right hlater⟩
    · rw [firstFree, if_neg hb]
      obtain ⟨r, hr, hcases⟩ := ih findNum pre this preBak hrest (by omega)
        (Nat.lt_of_succ_lt hfuel)
      exact ⟨r, hr, hcases.imp_right fun hr => Chosen.cons (by rwa [if_neg hb])⟩

theorem findBlock_spec (n pre : Nat) {fuel : Nat} (h : Laid m a ws 0) (ha : a ≠ 0)
    (hfuel : ws.length < fuel) :
    ∃ r, findBlock c m n fuel pre (firstFree a ws 0) = some r ∧
      (r.2 = 0 ∨ Chosen n a ws pre r) := by
  induction ws generalizing a fuel pre with
  | nil =>
    obtain ⟨fuel, rfl⟩ := Nat.exists_eq_add_of_lt hfuel
    exact ⟨(pre, 0), if_pos rfl, .inl rfl⟩
  | cons b ws ih =>
    rw [List.length_cons] at hfuel
    obtain ⟨hblock, hrest⟩ := h
    obtain ⟨fuel, rfl⟩ := Nat.exists_eq_succ_of_ne_zero (Nat.ne_of_gt (Nat.zero_lt_of_lt hfuel))
    have hws : ws.length < fuel := Nat.lt_of_succ_lt_succ hfuel
    by_cases hb : b.used = none
    · rw [firstFree, if_pos hb, findBlock, if_neg ha, hblock.next hb, hblock.size]
      split_ifs with hfit
      · obtain ⟨r, hr, hcases⟩ := bestFit_spec n 0 pre a a hrest (by omega) hws
        refine ⟨r, hr, .inr ?_⟩
        rcases hcases with rfl | hcases
        · exact Chosen.head hb hfit
        · exact Chosen.cons (by rwa [if_pos hb])
      · obtain ⟨r, hr, hcases⟩ := ih a hrest (by omega) hws
        exact ⟨r, hr, hcases.imp_right fun hr => Chosen.cons (by rwa [if_pos hb])⟩
    · rw [firstFree, if_neg hb]
      obtain ⟨r, hr, hcases⟩ := ih pre hrest (by omega) (Nat.lt_of_succ_lt hfuel)
      exact ⟨r, hr, hcases.imp_right fun hr => Chosen.cons (by rwa [if_neg hb])⟩

theorem freePosition_spec (pre : Nat) {fuel freeBlock : Nat} (h : Laid m a xs link) (ha : a ≠ 0)
    (hblock : a + total xs = freeBlock) (hlink : link = 0 ∨ freeBlock ≤ link)
    (hfuel : xs.length < fuel) :
    freePosition c m freeBlock fuel pre (firstFree a xs link) =
      some (lastFree a xs pre, link) := by
  induction xs generalizing a fuel pre with
  | nil =>
    obtain ⟨fuel, rfl⟩ := Nat.exists_eq_add_of_lt hfuel
    exact if_neg (by rw [firstFree]; omega)
  | cons b xs ih =>
    have hsize := b.two_words_le
    have hsizes := sizes c
    rw [List.length_cons] at hfuel
    rw [total_cons] at hblock
    obtain ⟨hat, hrest⟩ := h
    obtain ⟨fuel, rfl⟩ := Nat.exists_eq_succ_of_ne_zero (Nat.ne_of_gt (Nat.zero_lt_of_lt hfuel))
    have hws : xs.length < fuel := Nat.lt_of_succ_lt_succ hfuel
    by_cases hb : b.used = none
    · rw [firstFree, if_pos hb, freePosition, if_pos ⟨ha, by omega⟩, hat.next hb,
        ih a hrest (by omega) (by omega) hws, lastFree, if_pos hb]
    · rw [firstFree, if_neg hb, ih pre hrest (by omega) (by omega) (Nat.lt_of_succ_lt hfuel),
        lastFree, if_neg hb]

/-! ### Links -/

theorem BlockAt.relink {next : Nat} (h : BlockAt m a f next) (hroom : 2 * wordSize c < f.size)
    (hv : v < wordLimit c) : BlockAt (setNext c m a v) a f v := by
  have hsizes := sizes c
  refine ⟨?_, ?_, fun _ => readLe_writeLe (by rw [hsizes.2.2.2.1]; exact hv)⟩
  · rw [← h.size]
    exact readLe_writeLe_of_disjoint (by omega)
  · rw [← h.tag]
    exact writeLe_apply_of_disjoint (by omega)

/-- **The link to what follows a list.** It is the link of the last free block, or the beginning of
the free list. -/
theorem Laid.setLink {heap : Heap} (h : Laid m a xs link) (ha : a ≠ 0) (hgood : Good xs)
    (hv : v < wordLimit c) (hheap : heap.freeList = firstFree a xs link) :
    ∃ m', setLink c m heap (lastFree a xs 0) v =
        (m', { heap with freeList := firstFree a xs v }) ∧
      SameOff m m' a (a + total xs) ∧ Laid m' a xs v := by
  rcases lastFree_cases a 0 xs with ⟨hxs, hlast⟩ | ⟨ws, f, us, rfl, hf, hus, hlast⟩
  · rw [hlast, firstFree_of_allUsed hxs]
    exact ⟨m, if_neg fun h => h rfl, SameOff.refl, h.of_allUsed hxs⟩
  · have hsizes := sizes c
    have hroom : 2 * wordSize c < f.size := (hgood f (by simp) hf).2
    obtain ⟨hws, hat, hlaid⟩ := laid_append_cons.mp h
    have hfirst (link : Nat) :
        firstFree a (ws ++ f :: us) link = firstFree a ws (a + total ws) := by
      rw [firstFree_append, firstFree, if_pos hf]
    have hoff : SameOff m (setNext c m (a + total ws) v) (a + total ws + wordSize c)
        (a + total ws + 2 * wordSize c) := SameOff.writeLe (by omega) (by omega)
    rw [hlast, hfirst, ← hfirst link, ← hheap]
    refine ⟨_, if_pos (by omega), hoff.mono (by omega) ?_, laid_append_cons.mpr ⟨?_, ?_, ?_⟩⟩
    · rw [total_append, total_cons]
      omega
    · rw [firstFree, if_pos hf] at hws ⊢
      exact hws.congr (hoff.same (.inl (by omega)))
    · rw [firstFree_of_allUsed hus]
      exact hat.relink hroom hv
    · exact (hlaid.of_allUsed hus).congr (hoff.same (.inr (by omega)))

/-! ### The writes of `mem_chunk_get` -/

/-- Neighbouring blocks are replaced by others that fill the same range and begin with the same
free block, and the memory changes in this range only. -/
theorem Laid.replace {mid mid' : List (Block c)} (h : Laid m a (xs ++ (mid ++ ys)) link)
    (hoff : SameOff m m' (a + total xs) (a + total xs + total mid))
    (htotal : total mid' = total mid)
    (hfirst : firstFree (a + total xs) (mid' ++ ys) link =
      firstFree (a + total xs) (mid ++ ys) link)
    (hmid : Laid m' (a + total xs) mid' (firstFree (a + total xs + total mid) ys link)) :
    Laid m' a (xs ++ (mid' ++ ys)) link := by
  obtain ⟨hxs, hrest⟩ := laid_append.mp h
  obtain ⟨-, hys⟩ := laid_append.mp hrest
  refine laid_append.mpr ⟨?_, laid_append.mpr ⟨?_, ?_⟩⟩
  · rw [hfirst]
    exact hxs.congr (hoff.same (.inl le_rfl))
  · rw [htotal]
    exact hmid
  · rw [htotal]
    exact hys.congr (hoff.same (.inr le_rfl))

theorem BlockAt.splitBlock {front new : Block c} (h : BlockAt m a f link) (hf : f.used = none)
    (hlt : f.size < wordLimit c) (hsum : front.size + new.size = f.size)
    (hfree : front.used = none) (hgood : front.Good) (hused : new.used ≠ none) :
    (splitBlock c m a new.size).1 = a + front.size ∧
      SameOff m (splitBlock c m a new.size).2 a (a + f.size) ∧
      Laid (splitBlock c m a new.size).2 a [front, new] link := by
  have hsizes := sizes c
  have hlimit : 256 ^ wordSize c = wordLimit c := hsizes.2.2.2.1
  obtain ⟨htag, hroom⟩ := hgood hfree
  have hle := new.two_words_le
  -- the memory after each of the four writes
  set m₁ := setSize c m a front.size with hm₁
  set m₂ := m₁.writeByte (a + front.size - 1) memBlockStatFree with hm₂
  set m₃ := setSize c m₂ (a + front.size) new.size with hm₃
  set m₄ := m₃.writeByte (a + front.size + new.size - 1) memBlockStatUse with hm₄
  have hsize₁ : blockSize c m₁ a = front.size := readLe_writeLe (by omega)
  have hsize₂ : blockSize c m₂ a = front.size := by
    rw [← hsize₁]
    exact readLe_writeByte_of_disjoint (by omega)
  have hsize₃ : blockSize c m₃ (a + front.size) = new.size := readLe_writeLe (by omega)
  have heq : WordHeap.splitBlock c m a new.size = (a + front.size, m₄) := by
    have hfront : f.size - new.size = front.size := by omega
    simp only [WordHeap.splitBlock, h.size, hfront, memDogAddr, ← hm₁, hsize₁, ← hm₂, hsize₂,
      ← hm₃, hsize₃, ← hm₄]
  rw [heq]
  dsimp only
  refine ⟨rfl, ?_, ⟨⟨?_, ?_, fun _ => ?_⟩, ⟨?_, ?_, fun hnone => absurd hnone hused⟩, trivial⟩⟩
  · have h₁ : SameOff m m₁ a (a + f.size) := SameOff.writeLe le_rfl (by omega)
    have h₂ : SameOff m₁ m₂ a (a + f.size) := SameOff.writeByte (by omega) (by omega)
    have h₃ : SameOff m₂ m₃ a (a + f.size) := SameOff.writeLe (by omega) (by omega)
    have h₄ : SameOff m₃ m₄ a (a + f.size) := SameOff.writeByte (by omega) (by omega)
    exact ((h₁.trans h₂).trans h₃).trans h₄
  · rw [blockSize, readLe_writeByte_of_disjoint (by omega), hm₃, setSize,
      readLe_writeLe_of_disjoint (by omega)]
    exact hsize₂
  · rw [htag, hm₄, writeByte_apply_of_ne (by omega), hm₃, setSize,
      writeLe_apply_of_disjoint (by omega)]
    exact writeByte_apply _
  · rw [firstFree_cons_used hused, firstFree, ← h.next hf]
    unfold blockNext
    rw [readLe_writeByte_of_disjoint (by omega), hm₃, setSize,
      readLe_writeLe_of_disjoint (by omega), readLe_writeByte_of_disjoint (by omega), hm₁, setSize,
      readLe_writeLe_of_disjoint (by omega)]
  · rw [blockSize, readLe_writeByte_of_disjoint (by omega)]
    exact hsize₃
  · rw [new.tag_used hused]
    exact writeByte_apply _

theorem BlockAt.writeTag {next : Nat} {t' : Block c} {v : UInt8} (h : BlockAt m a t next)
    (hsize : t'.size = t.size) (hused : t'.used ≠ none) (hv : v = t'.tag) :
    BlockAt (m.writeByte (a + t.size - 1) v) a t' next := by
  have hle := t.two_words_le
  have hsizes := sizes c
  refine ⟨?_, ?_, fun hnone => absurd hnone hused⟩
  · rw [hsize]
    exact (readLe_writeByte_of_disjoint (by omega)).trans h.size
  · rw [hsize, ← hv]
    exact writeByte_apply _

theorem Laid.unlinkBlock {heap : Heap} {new : Block c} (h : Laid m a (xs ++ f :: ys) link)
    (ha : a ≠ 0) (hgood : Good xs) (hf : f.used = none) (hsize : new.size = f.size)
    (hused : new.used ≠ none) (hheap : heap.freeList = firstFree a (xs ++ f :: ys) link)
    (hlt : firstFree (a + total xs + f.size) ys link < wordLimit c) :
    ∃ m', unlinkBlock c m heap (lastFree a xs 0) (a + total xs) =
        (m', { heap with freeList := firstFree a (xs ++ new :: ys) link }) ∧
      Laid m' a (xs ++ new :: ys) link := by
  have hle := f.two_words_le
  have hsizes := sizes c
  obtain ⟨hxs, hat, hys⟩ := laid_append_cons.mp h
  rw [firstFree_append] at hheap
  obtain ⟨m₁, heq, hoff, hxs₁⟩ := hxs.setLink ha hgood hlt hheap
  have hat₁ := hat.congr (hoff.same (.inr le_rfl))
  have hlast : SameOff m₁ (m₁.writeByte (a + total xs + f.size - 1) memBlockStatUse)
      (a + total xs) (a + total xs + f.size) := SameOff.writeByte (by omega) (by omega)
  refine ⟨m₁.writeByte (a + total xs + f.size - 1) memBlockStatUse, ?_,
    laid_append_cons.mpr ⟨?_, ?_, ?_⟩⟩
  · rw [WordHeap.unlinkBlock, hat.next hf, heq, memDogAddr_eq hat₁, firstFree_append,
      firstFree_cons_used hused, hsize]
  · rw [firstFree_cons_used hused, hsize]
    exact hxs₁.congr (hlast.same (.inl le_rfl))
  · rw [hsize]
    exact hat₁.writeTag hsize hused (new.tag_used hused).symm
  · rw [hsize]
    exact hys.congr ((hoff.same (.inr (by omega))).trans (hlast.same (.inr le_rfl)))

/-! ### The writes of `MEM_Deallocate` -/

theorem BlockAt.release {next link : Nat} (h : BlockAt m a b link) (hnext : next < wordLimit c) :
    BlockAt (setNext c (m.writeByte (a + b.size - 1) memBlockStatFree) a next) a (b.released next)
      next := by
  have hle := b.two_words_le
  have hsizes := sizes c
  refine ⟨?_, ?_, fun _ => readLe_writeLe (by omega)⟩
  · refine (readLe_writeLe_of_disjoint (by omega)).trans ?_
    exact (readLe_writeByte_of_disjoint (by omega)).trans h.size
  · rw [Block.size_released, setNext]
    by_cases hroom : 2 * wordSize c < b.size
    · rw [writeLe_apply_of_disjoint (by omega), Block.released, Block.free, if_pos hroom]
      exact writeByte_apply _
    · have hdog : a + b.size - 1 = a + memBlockHeadSize c + wordSize c - 1 := by omega
      rw [hdog, writeLe_last (by omega), Block.released, Block.free, if_neg hroom]

theorem Laid.release {block next : Nat} (h : Laid m a (xs ++ b :: ys) link) (hb : b.used ≠ none)
    (hblock : a + total xs = block) (hnext : firstFree (block + b.size) ys link = next)
    (hlt : next < wordLimit c)
    (hm : m.writeByte (block + b.size - 1) memBlockStatFree = m') :
    Laid m' a xs next ∧ Laid (setNext c m' block next) a xs next ∧
      BlockAt (setNext c m' block next) block (b.released next) next ∧
      Laid (setNext c m' block next) (block + b.size) ys link := by
  subst hblock hm hnext
  have hle := b.two_words_le
  have hsizes := sizes c
  obtain ⟨hxs, hat, hys⟩ := laid_append_cons.mp h
  rw [firstFree_cons_used hb] at hxs
  have htag : SameOff m (m.writeByte (a + total xs + b.size - 1) memBlockStatFree) (a + total xs)
      (a + total xs + b.size) := SameOff.writeByte (by omega) (by omega)
  have hoff := htag.trans (SameOff.writeLe (n := wordSize c)
    (v := firstFree (a + total xs + b.size) ys link) (a := a + total xs + memBlockHeadSize c)
    (by omega) (by omega))
  exact ⟨hxs.congr (htag.same (.inl le_rfl)), hxs.congr (hoff.same (.inl le_rfl)),
    hat.release hlt, hys.congr (hoff.same (.inr le_rfl))⟩

theorem BlockAt.merge {d : Block c} {next link : Nat} (hf : BlockAt m a f next)
    (hfree : f.used = none) (hd : BlockAt m (a + f.size) d link)
    (hlt : f.size + d.size < wordLimit c) :
    BlockAt (setSize c m a (f.size + d.size)) a (f.merge d) next := by
  have hle := f.two_words_le
  have hle' := d.two_words_le
  have hsizes := sizes c
  refine ⟨readLe_writeLe (by omega), ?_, fun _ => ?_⟩
  · rw [Block.size_merge, Block.tag_merge, ← hd.tag, ← Nat.add_assoc]
    exact writeLe_apply_of_disjoint (by omega)
  · rw [← hf.next hfree]
    exact readLe_writeLe_of_disjoint (by omega)

/-- A block is on the free list, between the list `xs` from `a` on and the list `ys`: it is a free
block, or a part of the one that was before it. The result has the free block, the memory and the
heap. -/
def Linked (a : Nat) (xs : List (Block c)) (b : Block c) (ys : List (Block c)) (link : Nat)
    (heap : Heap) (r : Nat × Memory × Heap) : Prop :=
  ∃ ws g m', r = (a + total ws, m', { heap with freeList := firstFree a (ws ++ g :: ys) link }) ∧
    Laid m' a (ws ++ g :: ys) link ∧ Good ws ∧ g.used = none ∧ g.tag = b.tag ∧ b.size ≤ g.size ∧
    total ws + g.size = total xs + b.size ∧ liveList a ws = liveList a xs

section Link

variable {heap : Heap} {next block : Nat}

theorem Laid.linked_apart (hxs : Laid m a xs next) (hb : BlockAt m block b next)
    (hys : Laid m (block + b.size) ys link) (ha : a ≠ 0) (hgood : Good xs) (hfree : b.used = none)
    (hblock : a + total xs = block) (hnext : firstFree (block + b.size) ys link = next)
    (hlt : block < wordLimit c) (hheap : heap.freeList = firstFree a xs next) :
    Linked a xs b ys link heap (block, WordHeap.setLink c m heap (lastFree a xs 0) block) := by
  subst hblock hnext
  obtain ⟨m', heq, hoff, hxs'⟩ := hxs.setLink ha hgood hlt hheap
  refine ⟨xs, b, m', ?_, laid_append_cons.mpr ⟨?_, ?_, ?_⟩, hgood, hfree, rfl, le_rfl, rfl, rfl⟩
  · rw [heq, firstFree_append, firstFree_cons_free hfree]
  · rwa [firstFree_cons_free hfree]
  · exact hb.congr (hoff.same (.inr le_rfl))
  · exact hys.congr (hoff.same (.inr (by omega)))

theorem Laid.linked_adjacent (hws : Laid m a ws (a + total ws))
    (hat : BlockAt m (a + total ws) f next) (hb : BlockAt m block b next)
    (hys : Laid m (block + b.size) ys link) (hgood : Good ws) (hf : f.used = none)
    (hblock : a + total ws + f.size = block)
    (hnext : firstFree (block + b.size) ys link = next) (hlt : block + b.size < wordLimit c)
    (hheap : heap.freeList = firstFree a ws (a + total ws)) :
    Linked a (ws ++ [f]) b ys link heap
      (a + total ws, setSize c m (a + total ws) (f.size + b.size), heap) := by
  subst hblock hnext
  have hfsize := f.two_words_le
  have hsizes := sizes c
  have hoff : SameOff m (setSize c m (a + total ws) (f.size + b.size)) (a + total ws)
      (a + total ws + f.size) := SameOff.writeLe le_rfl (by omega)
  have hmerge := hat.merge hf hb (by omega)
  have hfirst : heap.freeList = firstFree a (ws ++ f.merge b :: ys) link := by
    rw [hheap, firstFree_append, firstFree_cons_free (Block.used_merge)]
  rw [Nat.add_assoc] at hys hmerge
  refine ⟨ws, f.merge b, _, ?_, laid_append_cons.mpr ⟨?_, hmerge, ?_⟩, hgood, rfl, rfl,
    Nat.le_add_left _ _, ?_, ?_⟩
  · rw [← hfirst]
  · exact hws.congr (hoff.same (.inl le_rfl))
  · exact hys.congr (hoff.same (.inr (by omega)))
  · rw [Block.size_merge, total_append, total_cons, total_nil]
    omega
  · rw [liveList_append, liveList_cons_free hf, liveList, List.append_nil]

/-- **The block that was given back is put on the free list**, or it is added to the free block
right before it. -/
theorem Laid.linkBlock (hxs : Laid (setNext c m block next) a xs next)
    (hb : BlockAt (setNext c m block next) block b next)
    (hys : Laid (setNext c m block next) (block + b.size) ys link) (ha : a ≠ 0) (hgood : Good xs)
    (hfree : b.used = none) (hblock : a + total xs = block)
    (hnext : firstFree (block + b.size) ys link = next) (hlt : block + b.size < wordLimit c)
    (hheap : heap.freeList = firstFree a xs next) :
    Linked a xs b ys link heap (linkBlock c m heap (lastFree a xs 0) next block) := by
  have hbsize := b.two_words_le
  have happart := hxs.linked_apart hb hys ha hgood hfree hblock hnext (by omega) hheap
  rw [WordHeap.linkBlock]
  rcases lastFree_cases a 0 xs with ⟨-, hlast⟩ | ⟨ws, f, us, rfl, hf, hus, hlast⟩
  · rwa [if_neg fun h => h.1 hlast]
  · obtain ⟨hws, hat, hlaid⟩ := laid_append_cons.mp hxs
    rw [total_append, total_cons, ← Nat.add_assoc, ← Nat.add_assoc] at hblock
    by_cases hadjacent : us = []
    · subst hadjacent
      rw [firstFree_cons_free hf] at hws
      rw [firstFree_append, firstFree_cons_free hf] at hheap
      rw [hlast, if_pos ⟨by omega, by rw [hat.size, ← hblock, total_nil]; omega⟩, hat.size, hb.size]
      exact hws.linked_adjacent hat hb hys (good_append.mp hgood).1 hf hblock hnext hlt hheap
    · have hpos : us.length ≤ total us := length_le_total
      have hne : us.length ≠ 0 := fun h => hadjacent (List.eq_nil_of_length_eq_zero h)
      rwa [if_neg]
      rw [hlast, hat.size]
      omega

/-- **The next free block is added** if it begins where the block ends. The tag is then that of the
next one. -/
theorem Laid.mergeNext {g : Block c} (h : Laid m a (ws ++ g :: ys) link) (hg : g.used = none)
    (ha : a ≠ 0) (hlt : a + total (ws ++ g :: ys) < wordLimit c) (hlink : link = 0)
    (hnext : firstFree (a + total ws + g.size) ys link = next) :
    (∃ d zs, ys = d :: zs ∧ d.used = none ∧
      Laid (mergeNext c m (a + total ws) next) a (ws ++ g.merge d :: zs) link) ∨
      (∀ d ∈ ys.head?, d.used ≠ none) ∧ mergeNext c m (a + total ws) next = m := by
  obtain ⟨hws, hat, hys⟩ := laid_append_cons.mp h
  have hgsize := g.two_words_le
  have hsizes := sizes c
  have hapos := Nat.pos_of_ne_zero ha
  rw [WordHeap.mergeNext, hat.size]
  cases ys with
  | nil =>
    refine .inr ⟨by simp, if_neg fun hmerge => hmerge.1 ?_⟩
    rw [← hnext, firstFree, hlink]
  | cons d zs =>
    by_cases hd : d.used = none
    · have hdsize := d.two_words_le
      obtain ⟨hatd, -⟩ := hys
      rw [firstFree_cons_free hd] at hnext
      subst hnext
      rw [if_pos ⟨by omega, rfl⟩, hatd.size]
      refine .inl ⟨d, zs, rfl, hd, ?_⟩
      rw [total_append, total_cons, total_cons] at hlt
      have hmerge := hat.merge hg hatd (by omega)
      set m₁ := setSize c m (a + total ws) (g.size + d.size) with hm₁
      have hoff : SameOff m m₁ (a + total ws) (a + total ws + g.size) :=
        SameOff.writeLe le_rfl (by omega)
      have hnext₁ := (hatd.congr (hoff.same (.inr le_rfl))).next hd
      have hbounds := firstFree_bounds (a + total ws + g.size + d.size) link zs
      have hroom : 2 * wordSize c < (g.merge d).size := by
        rw [Block.size_merge]
        omega
      have hpair : Laid m a (ws ++ ([g, d] ++ zs)) link := h
      dsimp only
      rw [hnext₁]
      change Laid _ a (ws ++ ([g.merge d] ++ zs)) link
      refine hpair.replace ?_ ?_ ?_ ⟨?_, trivial⟩
      · rw [total_cons, total_cons, total_nil]
        exact (hoff.mono le_rfl (by omega)).trans (SameOff.writeLe (by omega) (by omega))
      · rw [total_cons, Block.size_merge, total_cons, total_cons, Nat.add_assoc]
      · rw [List.cons_append, List.cons_append, firstFree_cons_free hg,
          firstFree_cons_free Block.used_merge]
      · rw [firstFree, total_cons, total_cons, total_nil, Nat.add_zero, ← Nat.add_assoc]
        exact hmerge.relink hroom (by omega)
    · refine .inr ⟨by simpa using hd, if_neg fun hmerge => ?_⟩
      have hdsize := d.two_words_le
      rw [firstFree_cons_used hd] at hnext
      have hbounds := firstFree_bounds (a + total ws + g.size + d.size) link zs
      omega

end Link

end TuyaOpen.WordHeap
