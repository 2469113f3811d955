import TuyaOpen.Utilities.MemHeap
import Mathlib.Data.List.Chain
import Mathlib.Tactic.Ring

/-!
# The layout of a memory heap

A heap is laid out as a list of blocks, each free or in use for a number of bytes. The list says
what the memory holds: the size at the beginning of every block, the tag at its end and, in a free
block, the address of the next free one. The operations on the memory replace a few neighbouring
blocks of the list by others, and leave the rest of the memory alone.

## Main results

* `Laid.replace`: neighbouring blocks are replaced.
* `laid_splitBlock`, `laid_unlinkBlock`: what `mem_chunk_get` does to a free block.
* `laid_linkBlock`, `laid_mergeNext`: what `MEM_Deallocate` does to a block in use.
* `findBlock_spec`, `freePosition_spec`: the loops over the free list.
-/

namespace TuyaOpen.MemHeap

open Memory

/-! ### Blocks -/

/-- A block of a heap with its size, and with the number of bytes that was asked for when it is in
use. The requested bytes fit between the header and the tag. -/
@[ext] structure Block where
  size : Nat
  used : Option Nat
  le_size : 12 ≤ size
  dvd_size : 4 ∣ size
  used_le : ∀ n ∈ used, memBlockHeadSize + n + 1 ≤ size

namespace Block

def tag (b : Block) : UInt8 := if b.used = none then memBlockStatFree else memBlockStatUse

def free (size : Nat) (h : 12 ≤ size) (h' : 4 ∣ size) : Block where
  size := size
  used := none
  le_size := h
  dvd_size := h'
  used_le := fun _ h => by cases h

/-- The block for `n` bytes. -/
def inUse (b : Block) (n : Nat) (h : memBlockHeadSize + n + 1 ≤ b.size) : Block where
  size := b.size
  used := some n
  le_size := b.le_size
  dvd_size := b.dvd_size
  used_le := by
    rintro k hk
    cases hk
    exact h

def released (b : Block) : Block := free b.size b.le_size b.dvd_size

def merge (b c : Block) : Block :=
  free (b.size + c.size) (b.le_size.trans (Nat.le_add_right _ _))
    (Nat.dvd_add b.dvd_size c.dvd_size)

variable {b c : Block} {n : Nat} {h : memBlockHeadSize + n + 1 ≤ b.size}

@[simp] theorem size_free {h : 12 ≤ n} {h' : 4 ∣ n} : (free n h h').size = n := rfl

@[simp] theorem used_free {h : 12 ≤ n} {h' : 4 ∣ n} : (free n h h').used = none := rfl

@[simp] theorem size_inUse : (b.inUse n h).size = b.size := rfl

@[simp] theorem used_inUse : (b.inUse n h).used = some n := rfl

@[simp] theorem size_released : b.released.size = b.size := rfl

@[simp] theorem used_released : b.released.used = none := rfl

@[simp] theorem size_merge : (b.merge c).size = b.size + c.size := rfl

@[simp] theorem used_merge : (b.merge c).used = none := rfl

theorem tag_of_free (h : b.used = none) : b.tag = memBlockStatFree := if_pos h

theorem tag_of_used (h : b.used ≠ none) : b.tag = memBlockStatUse := if_neg h

end Block

/-! ### Lists of blocks -/

def total : List Block → Nat
  | [] => 0
  | b :: bs => b.size + total bs

def freeTotal : List Block → Nat
  | [] => 0
  | b :: bs => (if b.used = none then b.size else 0) + freeTotal bs

/-- The address of the first free block of a list from `a` on, or `link`. -/
def firstFree : Nat → List Block → Nat → Nat
  | _, [], link => link
  | a, b :: bs, link => if b.used = none then a else firstFree (a + b.size) bs link

/-- The address of the last free block of a list from `a` on, or `pre`. -/
def lastFree : Nat → List Block → Nat → Nat
  | _, [], pre => pre
  | a, b :: bs, pre => lastFree (a + b.size) bs (if b.used = none then a else pre)

def liveAt : Nat → List Block → Nat → Option Nat
  | _, [], _ => none
  | a, b :: bs, ptr => if ptr = a + memBlockHeadSize then b.used else liveAt (a + b.size) bs ptr

def AllUsed (bs : List Block) : Prop := ∀ b ∈ bs, b.used ≠ none

variable {m m' : Memory} {a link link' pre ptr : Nat} {b f t : Block}
  {bs xs ys zs us ws mid mid' : List Block}

@[simp] theorem total_nil : total [] = 0 := rfl

@[simp] theorem total_cons : total (b :: bs) = b.size + total bs := rfl

@[simp] theorem total_append : total (xs ++ ys) = total xs + total ys := by
  induction xs with
  | nil => simp
  | cons x xs ih => simp [ih, Nat.add_assoc]

theorem total_append_cons : a + total (ws ++ f :: us) = a + total ws + f.size + total us := by
  rw [total_append, total_cons]
  omega

@[simp] theorem freeTotal_append : freeTotal (xs ++ ys) = freeTotal xs + freeTotal ys := by
  induction xs with
  | nil => simp [freeTotal]
  | cons x xs ih => simp [freeTotal, ih, Nat.add_assoc]

theorem freeTotal_le_total : freeTotal bs ≤ total bs := by
  induction bs with
  | nil => exact le_rfl
  | cons b bs ih =>
    rw [freeTotal, total]
    split_ifs <;> omega

theorem length_le_total : bs.length ≤ total bs := by
  induction bs with
  | nil => exact le_rfl
  | cons b bs ih =>
    have := b.le_size
    rw [List.length_cons, total]
    omega

theorem dvd_total : 4 ∣ total bs := by
  induction bs with
  | nil => exact Nat.dvd_zero 4
  | cons b bs ih => exact Nat.dvd_add b.dvd_size ih

theorem eq_nil_of_total_eq_zero (h : total bs = 0) : bs = [] := by
  rw [← List.length_eq_zero_iff]
  have : bs.length ≤ total bs := length_le_total
  omega

theorem firstFree_append :
    firstFree a (xs ++ ys) link = firstFree a xs (firstFree (a + total xs) ys link) := by
  induction xs generalizing a with
  | nil => rfl
  | cons x xs ih =>
    simp only [List.cons_append, firstFree, ih, total_cons, Nat.add_assoc]

theorem firstFree_of_allUsed (h : AllUsed us) : firstFree a us link = link := by
  induction us generalizing a with
  | nil => rfl
  | cons u us ih =>
    obtain ⟨hu, hus⟩ := List.forall_mem_cons.1 h
    rw [firstFree, if_neg hu, ih hus]

theorem lastFree_append :
    lastFree a (xs ++ ys) pre = lastFree (a + total xs) ys (lastFree a xs pre) := by
  induction xs generalizing a pre with
  | nil => rfl
  | cons x xs ih =>
    simp only [List.cons_append, lastFree, ih, total_cons, Nat.add_assoc]

theorem firstFree_bounds :
    firstFree a bs 0 = 0 ∨ a ≤ firstFree a bs 0 ∧ firstFree a bs 0 < a + total bs := by
  induction bs generalizing a with
  | nil => exact Or.inl rfl
  | cons b bs ih =>
    have hb := b.le_size
    rw [firstFree, total_cons]
    split_ifs with hfree
    · exact Or.inr ⟨le_rfl, by omega⟩
    · rcases @ih (a + b.size) with h | h
      · exact Or.inl h
      · exact Or.inr ⟨by omega, by omega⟩

theorem exists_cons_of_firstFree_eq (ha : a ≠ 0) (h : firstFree a bs 0 = a) :
    ∃ f ys, bs = f :: ys ∧ f.used = none := by
  cases bs with
  | nil => exact absurd h.symm ha
  | cons b bs =>
    refine ⟨b, bs, rfl, by_contra fun hb => ?_⟩
    have hle := b.le_size
    have hbounds : _ ∨ _ := @firstFree_bounds (a + b.size) bs
    rw [firstFree, if_neg hb] at h
    omega

theorem lastFree_cases :
    (AllUsed xs ∧ lastFree a xs pre = pre) ∨
      ∃ ws f us, xs = ws ++ f :: us ∧ f.used = none ∧ AllUsed us ∧
        lastFree a xs pre = a + total ws := by
  induction xs using List.reverseRecOn with
  | nil => exact Or.inl ⟨List.forall_mem_nil _, rfl⟩
  | append_singleton xs x ih =>
    rw [lastFree_append]
    by_cases hx : x.used = none
    · exact Or.inr ⟨xs, x, [], rfl, hx, List.forall_mem_nil _, if_pos hx⟩
    · rw [lastFree, lastFree, if_neg hx]
      rcases ih with ⟨hxs, heq⟩ | ⟨ws, f, us, rfl, hf, hus, heq⟩
      · exact Or.inl ⟨List.forall_mem_append.2 ⟨hxs, List.forall_mem_singleton.2 hx⟩, heq⟩
      · refine Or.inr ⟨ws, f, us ++ [x], by simp, hf, ?_, heq⟩
        exact List.forall_mem_append.2 ⟨hus, List.forall_mem_singleton.2 hx⟩

/-! ### Pointers in use -/

theorem liveAt_of_lt (h : ptr < a + memBlockHeadSize) : liveAt a bs ptr = none := by
  induction bs generalizing a with
  | nil => rfl
  | cons b bs ih =>
    rw [liveAt, if_neg (by omega), ih (by omega)]

theorem liveAt_append :
    liveAt a (xs ++ ys) ptr =
      if ptr < a + total xs then liveAt a xs ptr else liveAt (a + total xs) ys ptr := by
  induction xs generalizing a with
  | nil =>
    rw [List.nil_append, total_nil, Nat.add_zero]
    split_ifs with h
    · rw [liveAt, liveAt_of_lt (by omega)]
    · rfl
  | cons x xs ih =>
    have hx := x.le_size
    rw [List.cons_append, liveAt, liveAt, ih, total_cons]
    by_cases hptr : ptr = a + memBlockHeadSize
    · rw [if_pos hptr, if_pos hptr, if_pos]
      rw [hptr, memBlockHeadSize]
      omega
    · rw [if_neg hptr, if_neg hptr, ← Nat.add_assoc]

theorem liveAt_middle (h : ptr = a + total xs + memBlockHeadSize) :
    liveAt a (xs ++ b :: ys) ptr = b.used := by
  rw [liveAt_append, if_neg (by omega), liveAt, if_pos h]

theorem exists_of_liveAt {n : Nat} (h : liveAt a bs ptr = some n) :
    ∃ xs b ys, bs = xs ++ b :: ys ∧ b.used = some n ∧ ptr = a + total xs + memBlockHeadSize := by
  induction bs generalizing a with
  | nil => cases h
  | cons b bs ih =>
    rw [liveAt] at h
    split_ifs at h with hptr
    · exact ⟨[], b, bs, rfl, h, hptr⟩
    · obtain ⟨xs, c, ys, rfl, hc, heq⟩ := ih h
      exact ⟨b :: xs, c, ys, rfl, hc, by rw [heq, total_cons, Nat.add_assoc a]⟩

theorem liveAt_of_allFree {fs : List Block} (h : ∀ b ∈ fs, b.used = none) :
    liveAt a fs ptr = none := by
  induction fs generalizing a with
  | nil => rfl
  | cons b fs ih =>
    obtain ⟨hb, hfs⟩ := List.forall_mem_cons.1 h
    rw [liveAt, hb, ih hfs, ite_self]

theorem freeTotal_of_allFree {fs : List Block} (h : ∀ b ∈ fs, b.used = none) :
    freeTotal fs = total fs := by
  induction fs with
  | nil => rfl
  | cons b fs ih =>
    obtain ⟨hb, hfs⟩ := List.forall_mem_cons.1 h
    rw [freeTotal, total, if_pos hb, ih hfs]

theorem liveAt_cut {fs : List Block} (hf : f.used = none) (hfs : ∀ b ∈ fs, b.used = none)
    (hsum : total fs + b.size = f.size) (hptr : ptr ≠ a + total (xs ++ fs) + memBlockHeadSize) :
    liveAt a (xs ++ fs ++ b :: ys) ptr = liveAt a (xs ++ f :: ys) ptr := by
  rw [total_append, ← Nat.add_assoc] at hptr
  have hend : a + total xs + total fs + b.size = a + total xs + f.size := by omega
  simp only [List.append_assoc, liveAt_append, liveAt, hf, liveAt_of_allFree hfs, if_neg hptr, hend]
  split_ifs with hxs hin hhead
  · rfl
  · rfl
  · exact (liveAt_of_lt (by omega)).symm
  · exact liveAt_of_lt (by rw [‹ptr = _›]; omega)
  · rfl

theorem liveAt_of_free (hf : f.used = none) (hle : a + total xs ≤ ptr)
    (hlt : ptr < a + total xs + f.size) : liveAt a (xs ++ f :: ys) ptr = none := by
  rw [liveAt_append, if_neg (by omega), liveAt, hf, liveAt_of_lt (by omega), ite_self]

theorem liveAt_release (hptr : ptr ≠ a + total xs + memBlockHeadSize) :
    liveAt a (xs ++ b.released :: ys) ptr = liveAt a (xs ++ b :: ys) ptr := by
  simp only [liveAt_append, liveAt, if_neg hptr, Block.size_released]

/-! ### Neighbouring free blocks -/

def Separated (bs : List Block) : Prop := bs.IsChain fun b c => b.used = none → c.used ≠ none

def HeadUsed (bs : List Block) : Prop := ∀ b ∈ bs.head?, b.used ≠ none

def LastUsed (bs : List Block) : Prop := ∀ b ∈ bs.getLast?, b.used ≠ none

theorem separated_append_used (hb : b.used ≠ none) :
    Separated (xs ++ b :: ys) ↔ Separated xs ∧ Separated ys := by
  rw [Separated, List.isChain_append, List.isChain_cons]
  constructor
  · rintro ⟨hxs, ⟨-, hys⟩, -⟩
    exact ⟨hxs, hys⟩
  · rintro ⟨hxs, hys⟩
    refine ⟨hxs, ⟨fun y _ h => absurd h hb, hys⟩, fun x _ y hy _ => ?_⟩
    cases hy
    exact hb

theorem separated_append_free (hb : b.used = none) :
    Separated (xs ++ b :: ys) ↔ Separated xs ∧ Separated ys ∧ LastUsed xs ∧ HeadUsed ys := by
  rw [Separated, List.isChain_append, List.isChain_cons]
  constructor
  · rintro ⟨hxs, ⟨hhead, hys⟩, hlast⟩
    exact ⟨hxs, hys, fun x hx h => hlast x hx b rfl h hb, fun y hy => hhead y hy hb⟩
  · rintro ⟨hxs, hys, hlast, hhead⟩
    exact ⟨hxs, ⟨fun y hy _ => hhead y hy, hys⟩, fun x hx y _ h => absurd h (hlast x hx)⟩

theorem lastUsed_of_allUsed (h : AllUsed xs) : LastUsed xs :=
  fun b hb => h b (List.mem_of_mem_getLast? hb)

theorem lastUsed_append (h : AllUsed us) (hne : us ≠ []) : LastUsed (xs ++ us) := by
  intro b hb
  rw [List.getLast?_append_of_ne_nil _ hne] at hb
  exact h b (List.mem_of_mem_getLast? hb)

/-! ### Blocks in memory -/

/-- The memory holds a block at an address; `next` is what a free block holds as the next one. -/
structure BlockAt (m : Memory) (a : Nat) (b : Block) (next : Nat) : Prop where
  size : blockSize m a = b.size
  tag : m (a + b.size - 1) = b.tag
  next : b.used = none → blockNext m a = next

/-- The memory holds a list of blocks from an address on; `link` is the free block after them. -/
def Laid (m : Memory) : Nat → List Block → Nat → Prop
  | _, [], _ => True
  | a, b :: bs, link => BlockAt m a b (firstFree (a + b.size) bs link) ∧ Laid m (a + b.size) bs link

theorem BlockAt.congr {next : Nat} (h : BlockAt m a b next) (hsame : Same m m' a (a + b.size)) :
    BlockAt m' a b next := by
  have hb := b.le_size
  refine ⟨?_, ?_, fun hfree => ?_⟩
  · rw [← h.size]
    exact readWord_congr hsame le_rfl (by omega)
  · rw [← h.tag]
    exact hsame _ (by omega) (by omega)
  · rw [← h.next hfree]
    exact readWord_congr hsame (by rw [memBlockHeadSize]; omega) (by rw [memBlockHeadSize]; omega)

theorem BlockAt.of_used {next next' : Nat} (h : BlockAt m a b next) (hb : b.used ≠ none) :
    BlockAt m a b next' :=
  ⟨h.size, h.tag, fun hfree => absurd hfree hb⟩

theorem memDogAddr_eq {next : Nat} (h : BlockAt m a b next) :
    memDogAddr m a = a + b.size - 1 := by
  rw [memDogAddr, h.size]

theorem laid_append :
    Laid m a (xs ++ ys) link ↔
      Laid m a xs (firstFree (a + total xs) ys link) ∧ Laid m (a + total xs) ys link := by
  induction xs generalizing a with
  | nil => simp [Laid]
  | cons x xs ih =>
    simp only [List.cons_append, Laid, ih, firstFree_append, total_cons, ← Nat.add_assoc, and_assoc]

theorem laid_singleton : Laid m a [b] link ↔ BlockAt m a b link := by
  simp [Laid, firstFree]

theorem Laid.congr (h : Laid m a bs link) (hsame : Same m m' a (a + total bs)) :
    Laid m' a bs link := by
  induction bs generalizing a with
  | nil => trivial
  | cons b bs ih =>
    rw [total_cons] at hsame
    exact ⟨h.1.congr (hsame.mono le_rfl (by omega)), ih h.2 (hsame.mono (by omega) (by omega))⟩

theorem Laid.of_allUsed (h : Laid m a us link) (hus : AllUsed us) : Laid m a us link' := by
  induction us generalizing a with
  | nil => trivial
  | cons u us ih =>
    obtain ⟨hu, hus⟩ := List.forall_mem_cons.1 hus
    exact ⟨h.1.of_used hu, ih h.2 hus⟩

theorem Laid.middle (h : Laid m a (xs ++ b :: ys) link) :
    BlockAt m (a + total xs) b (firstFree (a + total xs + b.size) ys link) :=
  (laid_append.1 h).2.1

theorem Laid.blockSize_congr {n : Nat} (h : Laid m a bs link) (h' : Laid m' a bs link')
    (hlive : liveAt a bs ptr = some n) :
    blockSize m' (ptr - memBlockHeadSize) = blockSize m (ptr - memBlockHeadSize) := by
  obtain ⟨xs, b, ys, rfl, -, rfl⟩ := exists_of_liveAt hlive
  rw [Nat.add_sub_cancel, h.middle.size, h'.middle.size]

theorem Laid.blockSize_cut {n : Nat} {fs : List Block} (h : Laid m a (xs ++ f :: ys) 0)
    (h' : Laid m' a (xs ++ fs ++ b :: ys) 0) (hf : f.used = none)
    (hsum : total fs + b.size = f.size) (hlive : liveAt a (xs ++ f :: ys) ptr = some n) :
    blockSize m' (ptr - memBlockHeadSize) = blockSize m (ptr - memBlockHeadSize) := by
  rw [List.append_assoc] at h'
  rw [liveAt_append] at hlive
  split_ifs at hlive with hlt
  · exact (laid_append.1 h).1.blockSize_congr (laid_append.1 h').1 hlive
  · rw [liveAt, hf] at hlive
    split_ifs at hlive
    have hrest := (laid_append.1 (laid_append.1 h').2).2.2
    rw [Nat.add_assoc _ (total fs), hsum] at hrest
    exact (laid_append.1 h).2.2.blockSize_congr hrest hlive

/-- Neighbouring blocks are replaced by others that fill the same range and begin with the same
free block, and the memory changes in this range only. -/
theorem Laid.replace (h : Laid m a (xs ++ (mid ++ ys)) link)
    (hoff : SameOff m m' (a + total xs) (a + total xs + total mid))
    (htotal : total mid' = total mid)
    (hfirst : firstFree (a + total xs) (mid' ++ ys) link =
      firstFree (a + total xs) (mid ++ ys) link)
    (hmid : Laid m' (a + total xs) mid' (firstFree (a + total xs + total mid) ys link)) :
    Laid m' a (xs ++ (mid' ++ ys)) link := by
  obtain ⟨hxs, hrest⟩ := laid_append.1 h
  obtain ⟨-, hys⟩ := laid_append.1 hrest
  refine laid_append.2 ⟨?_, laid_append.2 ⟨?_, ?_⟩⟩
  · rw [hfirst]
    exact hxs.congr (hoff.same (Or.inl le_rfl))
  · rw [htotal]
    exact hmid
  · rw [htotal]
    exact hys.congr (hoff.same (Or.inr le_rfl))

/-! ### The loops over the free list -/

/-- A free block of a list from `a` on that is large enough, with the free block before it. -/
def Chosen (n a : Nat) (bs : List Block) (pre : Nat) (r : Nat × Nat) : Prop :=
  ∃ xs f ys, bs = xs ++ f :: ys ∧ f.used = none ∧ n ≤ f.size ∧
    r = (lastFree a xs pre, a + total xs)

theorem Chosen.cons {n : Nat} {r : Nat × Nat}
    (h : Chosen n (a + b.size) bs (if b.used = none then a else pre) r) :
    Chosen n a (b :: bs) pre r := by
  obtain ⟨xs, f, ys, rfl, hf, hn, rfl⟩ := h
  refine ⟨b :: xs, f, ys, rfl, hf, hn, ?_⟩
  rw [lastFree, total_cons, Nat.add_assoc]

theorem Chosen.head {n : Nat} (hb : b.used = none) (hn : n ≤ b.size) :
    Chosen n a (b :: bs) pre (pre, a) :=
  ⟨[], b, bs, rfl, hb, hn, rfl⟩

theorem bestFit_spec (n findNum pre this preBak : Nat) {fuel : Nat} (h : Laid m a ws 0)
    (ha : a ≠ 0) (hfuel : ws.length < fuel) :
    ∃ r, bestFit m n fuel findNum pre this preBak (firstFree a ws 0) = some r ∧
      (r = (pre, this) ∨ Chosen n a ws preBak r) := by
  induction ws generalizing a fuel findNum pre this preBak with
  | nil =>
    obtain ⟨fuel, rfl⟩ := Nat.exists_eq_add_of_lt hfuel
    exact ⟨(pre, this), if_pos rfl, Or.inl rfl⟩
  | cons b ws ih =>
    rw [List.length_cons] at hfuel
    obtain ⟨hblock, hrest⟩ := h
    by_cases hb : b.used = none
    · obtain ⟨fuel, rfl⟩ := Nat.exists_eq_succ_of_ne_zero (Nat.ne_of_gt (Nat.zero_lt_of_lt hfuel))
      have hws : ws.length < fuel := by omega
      rw [firstFree, if_pos hb, bestFit, if_neg ha, hblock.next hb, hblock.size]
      -- a later block is chosen behind this one, which is free
      have hlater {r : Nat × Nat} (hr : Chosen n (a + b.size) ws a r) :
          Chosen n a (b :: ws) preBak r := Chosen.cons (by rwa [if_pos hb])
      split_ifs with hfit hdepth hdepth
      · exact ⟨_, rfl, Or.inr (Chosen.head hb hfit.1)⟩
      · obtain ⟨r, hr, hcases⟩ := ih (findNum + 1) preBak a a hrest (by omega) hws
        refine ⟨r, hr, Or.inr ?_⟩
        rcases hcases with rfl | hcases
        · exact Chosen.head hb hfit.1
        · exact hlater hcases
      · exact ⟨_, rfl, Or.inl rfl⟩
      · obtain ⟨r, hr, hcases⟩ := ih findNum pre this a hrest (by omega) hws
        exact ⟨r, hr, hcases.imp_right hlater⟩
    · rw [firstFree, if_neg hb]
      have hws : ws.length < fuel := by omega
      obtain ⟨r, hr, hcases⟩ := ih findNum pre this preBak hrest (by omega) hws
      exact ⟨r, hr, hcases.imp_right fun hr => Chosen.cons (by rwa [if_neg hb])⟩

theorem findBlock_spec (n pre : Nat) {fuel : Nat} (h : Laid m a ws 0) (ha : a ≠ 0)
    (hfuel : ws.length < fuel) :
    ∃ r, findBlock m n fuel pre (firstFree a ws 0) = some r ∧ (r.2 = 0 ∨ Chosen n a ws pre r) := by
  induction ws generalizing a fuel pre with
  | nil =>
    obtain ⟨fuel, rfl⟩ := Nat.exists_eq_add_of_lt hfuel
    exact ⟨(pre, 0), if_pos rfl, Or.inl rfl⟩
  | cons b ws ih =>
    rw [List.length_cons] at hfuel
    obtain ⟨hblock, hrest⟩ := h
    by_cases hb : b.used = none
    · obtain ⟨fuel, rfl⟩ := Nat.exists_eq_succ_of_ne_zero (Nat.ne_of_gt (Nat.zero_lt_of_lt hfuel))
      have hws : ws.length < fuel := by omega
      rw [firstFree, if_pos hb, findBlock, if_neg ha, hblock.next hb, hblock.size]
      split_ifs with hfit
      · obtain ⟨r, hr, hcases⟩ := bestFit_spec n 0 pre a a hrest (by omega) hws
        refine ⟨r, hr, Or.inr ?_⟩
        rcases hcases with rfl | hcases
        · exact Chosen.head hb hfit
        · exact Chosen.cons (by rwa [if_pos hb])
      · obtain ⟨r, hr, hcases⟩ := ih a hrest (by omega) hws
        exact ⟨r, hr, hcases.imp_right fun hr => Chosen.cons (by rwa [if_pos hb])⟩
    · rw [firstFree, if_neg hb]
      have hws : ws.length < fuel := by omega
      obtain ⟨r, hr, hcases⟩ := ih pre hrest (by omega) hws
      exact ⟨r, hr, hcases.imp_right fun hr => Chosen.cons (by rwa [if_neg hb])⟩

theorem findBlock_ne_zero {n : Nat} (pre : Nat) {fuel : Nat} (h : Laid m a ws 0) (ha : a ≠ 0)
    (hfuel : ws.length < fuel) (hex : ∃ f ∈ ws, f.used = none ∧ n ≤ f.size) :
    ∃ r, findBlock m n fuel pre (firstFree a ws 0) = some r ∧ r.2 ≠ 0 := by
  induction ws generalizing a fuel pre with
  | nil => simp at hex
  | cons b ws ih =>
    rw [List.length_cons] at hfuel
    obtain ⟨hblock, hrest⟩ := h
    by_cases hfit : b.used = none ∧ n ≤ b.size
    · obtain ⟨hb, hle⟩ := hfit
      obtain ⟨fuel, rfl⟩ := Nat.exists_eq_succ_of_ne_zero (Nat.ne_of_gt (Nat.zero_lt_of_lt hfuel))
      rw [firstFree, if_pos hb, findBlock, if_neg ha, hblock.next hb, hblock.size, if_pos hle]
      have hlength : ws.length < fuel := by omega
      obtain ⟨r, hr, hcases⟩ := bestFit_spec n 0 pre a a hrest (by omega) hlength
      refine ⟨r, hr, ?_⟩
      rcases hcases with rfl | ⟨xs, f, ys, -, -, -, rfl⟩
      · exact ha
      · exact Nat.ne_of_gt (by omega)
    · have hws : ∃ f ∈ ws, f.used = none ∧ n ≤ f.size := by
        obtain ⟨f, hf, hfits⟩ := hex
        rcases List.mem_cons.1 hf with rfl | hf
        · exact absurd hfits hfit
        · exact ⟨f, hf, hfits⟩
      by_cases hb : b.used = none
      · obtain ⟨fuel, rfl⟩ := Nat.exists_eq_succ_of_ne_zero (Nat.ne_of_gt (Nat.zero_lt_of_lt hfuel))
        rw [firstFree, if_pos hb, findBlock, if_neg ha, hblock.next hb, hblock.size,
          if_neg fun hle => hfit ⟨hb, hle⟩]
        have hlength : ws.length < fuel := by omega
        exact ih a hrest (by omega) hlength hws
      · rw [firstFree, if_neg hb]
        have hlength : ws.length < fuel := by omega
        exact ih pre hrest (by omega) hlength hws

theorem freePosition_spec {fuel freeBlock : Nat} (h : Laid m a xs link) (ha : a ≠ 0)
    (hblock : a + total xs = freeBlock) (hlink : link = 0 ∨ freeBlock ≤ link)
    (hfuel : xs.length < fuel) :
    freePosition m freeBlock fuel pre (firstFree a xs link) = some (lastFree a xs pre, link) := by
  induction xs generalizing a fuel pre with
  | nil =>
    obtain ⟨fuel, rfl⟩ := Nat.exists_eq_add_of_lt hfuel
    exact if_neg (by rw [firstFree]; omega)
  | cons b xs ih =>
    have hsize := b.le_size
    rw [List.length_cons] at hfuel
    rw [total_cons] at hblock
    obtain ⟨hat, hrest⟩ := h
    by_cases hb : b.used = none
    · obtain ⟨fuel, rfl⟩ := Nat.exists_eq_succ_of_ne_zero (Nat.ne_of_gt (Nat.zero_lt_of_lt hfuel))
      rw [firstFree, if_pos hb, freePosition, if_pos ⟨ha, by omega⟩, hat.next hb,
        ih hrest (by omega) (by omega) (by omega), lastFree, if_pos hb]
    · rw [firstFree, if_neg hb, ih hrest (by omega) (by omega) (by omega), lastFree, if_neg hb]

/-! ### The writes of `mem_chunk_get` -/

theorem laid_splitBlock {n : Nat} {front new : Block} (h : BlockAt m a b link)
    (hb : b.used = none) (hlt : b.size < 4294967296) (hn : n + memHeapMinSize ≤ b.size)
    (hfront : front.size = b.size - n) (hfree : front.used = none) (hnew : new.size = n)
    (hused : new.used ≠ none) :
    (splitBlock m a n).1 = a + front.size ∧
      SameOff m (splitBlock m a n).2 a (a + b.size) ∧
      Laid (splitBlock m a n).2 a [front, new] link := by
  subst hnew
  have hmin : memHeapMinSize = 28 := rfl
  have hle := front.le_size
  have hle' := new.le_size
  have hsum : a + b.size = a + front.size + new.size := by omega
  -- the memory after each of the four writes
  set m₁ := m.writeWord a front.size with hm₁
  set m₂ := m₁.writeByte (a + front.size - 1) memBlockStatFree with hm₂
  set m₃ := m₂.writeWord (a + front.size) new.size with hm₃
  set m₄ := m₃.writeByte (a + front.size + new.size - 1) memBlockStatUse with hm₄
  have hsize₁ : blockSize m₁ a = front.size := readWord_writeWord (by omega)
  have hsize₂ : blockSize m₂ a = front.size := by
    rw [← hsize₁]
    exact readWord_writeByte_of_disjoint (by omega)
  have hsize₃ : blockSize m₃ (a + front.size) = new.size := readWord_writeWord (by omega)
  have heq : splitBlock m a new.size = (a + front.size, m₄) := by
    simp only [splitBlock, h.size, ← hfront, memDogAddr, ← hm₁, hsize₁, ← hm₂, hsize₂, ← hm₃,
      hsize₃, ← hm₄]
  rw [heq]
  dsimp only
  refine ⟨rfl, ?_, ⟨⟨?_, ?_, fun _ => ?_⟩, ⟨?_, ?_, fun hnone => absurd hnone hused⟩, trivial⟩⟩
  · have h₁ : SameOff m m₁ a (a + b.size) := SameOff.writeWord le_rfl (by omega)
    have h₂ : SameOff m₁ m₂ a (a + b.size) := SameOff.writeByte (by omega) (by omega)
    have h₃ : SameOff m₂ m₃ a (a + b.size) := SameOff.writeWord (by omega) (by omega)
    have h₄ : SameOff m₃ m₄ a (a + b.size) := SameOff.writeByte (by omega) (by omega)
    exact ((h₁.trans h₂).trans h₃).trans h₄
  · rw [blockSize, readWord_writeByte_of_disjoint (by omega),
      readWord_writeWord_of_disjoint (by omega)]
    exact hsize₂
  · rw [Block.tag_of_free hfree, hm₄, writeByte_apply_of_ne (by omega), hm₃,
      writeWord_apply_of_disjoint (by omega)]
    exact writeByte_apply _
  · rw [firstFree, if_neg hused, firstFree, ← h.next hb, blockNext, blockNext, memBlockHeadSize,
      readWord_writeByte_of_disjoint (by omega), readWord_writeWord_of_disjoint (by omega),
      readWord_writeByte_of_disjoint (by omega), readWord_writeWord_of_disjoint (by omega)]
  · rw [blockSize, readWord_writeByte_of_disjoint (by omega)]
    exact hsize₃
  · rw [Block.tag_of_used hused]
    exact writeByte_apply _

theorem Laid.relink (h : Laid m a (f :: us) link') (hus : AllUsed us)
    (hhead : Same m m' a (a + memBlockHeadSize))
    (hbody : Same m m' (a + 8) (a + f.size + total us))
    (hnext : blockNext m' a = firstFree (a + f.size + total us) [t] link)
    (ht : BlockAt m' (a + f.size + total us) t link) :
    Laid m' a (f :: (us ++ [t])) link := by
  have hle := f.le_size
  obtain ⟨hat, hlaid⟩ := h
  refine ⟨⟨?_, ?_, fun _ => ?_⟩, laid_append.2 ⟨?_, laid_singleton.2 ht⟩⟩
  · rw [← hat.size]
    exact readWord_congr hhead le_rfl le_rfl
  · rw [← hat.tag]
    exact hbody _ (by omega) (by omega)
  · rw [hnext, firstFree_append, firstFree_of_allUsed hus]
  · exact (hlaid.of_allUsed hus).congr (hbody.mono (by omega) le_rfl)

theorem BlockAt.writeTag {next : Nat} {t' : Block} {v : UInt8} (h : BlockAt m a t next)
    (ht : t.used = none) (hsize : t'.size = t.size) (hv : v = t'.tag) :
    BlockAt (m.writeByte (a + t.size - 1) v) a t' next := by
  have hle := t.le_size
  refine ⟨?_, ?_, fun _ => ?_⟩
  · rw [hsize]
    exact (readWord_writeByte_of_disjoint (by omega)).trans h.size
  · rw [hsize, ← hv]
    exact writeByte_apply _
  · rw [← h.next ht, blockNext, blockNext, memBlockHeadSize,
      readWord_writeByte_of_disjoint (by omega)]

theorem laid_unlinkBlock (heap : Heap) {t' : Block} (h : Laid m a (f :: us ++ [t]) link)
    (ha : a ≠ 0) (hus : AllUsed us) (ht : t.used = none) (hsize : t'.size = t.size)
    (hused : t'.used ≠ none) (hlink : link < 4294967296) :
    ∃ m', unlinkBlock m heap a (a + f.size + total us) = (m', heap) ∧
      SameOff m m' a (a + f.size + total us + t.size) ∧ Laid m' a (f :: (us ++ [t'])) link := by
  have hle := f.le_size
  have hle' := t.le_size
  obtain ⟨hlaid, hlast⟩ := laid_append.1 h
  have hat : BlockAt m (a + f.size + total us) t link := by
    rw [total_cons, ← Nat.add_assoc] at hlast
    exact laid_singleton.1 hlast
  set this := a + f.size + total us with hthis
  set m₁ := m.writeWord (a + memBlockHeadSize) link with hm₁
  have hat₁ : BlockAt m₁ this t link := by
    refine hat.congr (Same.writeWord (Or.inr ?_))
    rw [memBlockHeadSize]
    omega
  have heq : unlinkBlock m heap a this =
      (m₁.writeByte (this + t.size - 1) memBlockStatUse, heap) := by
    rw [unlinkBlock, hat.next ht, if_pos ha]
    dsimp only
    rw [← hm₁, memDogAddr_eq hat₁]
  refine ⟨_, heq, ?_, hlaid.relink hus ?_ ?_ ?_ ?_⟩
  · have h₁ : SameOff m m₁ a (this + t.size) := by
      refine SameOff.writeWord (Nat.le_add_right _ _) ?_
      rw [memBlockHeadSize]
      omega
    exact h₁.trans (SameOff.writeByte (by omega) (by omega))
  · exact (Same.writeWord (Or.inl le_rfl)).trans (Same.writeByte (by rw [memBlockHeadSize]; omega))
  · exact (Same.writeWord (by rw [memBlockHeadSize]; omega)).trans (Same.writeByte (by omega))
  · rw [firstFree, if_neg hused, firstFree, blockNext,
      readWord_writeByte_of_disjoint (by rw [memBlockHeadSize]; omega)]
    exact readWord_writeWord hlink
  · exact hat₁.writeTag ht hsize (Block.tag_of_used hused).symm

theorem laid_unlinkBlock_zero (heap : Heap) {t' : Block} (h : BlockAt m a t link)
    (ht : t.used = none) (hsize : t'.size = t.size) (hused : t'.used ≠ none) :
    ∃ m', unlinkBlock m heap 0 a = (m', { heap with freeList := link }) ∧
      SameOff m m' a (a + t.size) ∧ BlockAt m' a t' link := by
  have hle := t.le_size
  have heq : unlinkBlock m heap 0 a =
      (m.writeByte (a + t.size - 1) memBlockStatUse, { heap with freeList := link }) := by
    rw [unlinkBlock, if_neg (fun h => h rfl), h.next ht, memDogAddr_eq h]
  exact ⟨_, heq, SameOff.writeByte (by omega) (by omega),
    h.writeTag ht hsize (Block.tag_of_used hused).symm⟩

/-! ### The writes of `MEM_Deallocate` -/

theorem laid_linkBlock_zero (heap : Heap) {next : Nat} (hsize : blockSize m a = b.size)
    (htag : m (a + b.size - 1) = memBlockStatFree) (hnext : next < 4294967296) :
    ∃ m', linkBlock m heap 0 next a = (a, m', { heap with freeList := a }) ∧
      SameOff m m' a (a + b.size) ∧ BlockAt m' a b.released next := by
  have hle := b.le_size
  refine ⟨m.writeWord (a + memBlockHeadSize) next, rfl, ?_, ?_, ?_,
    fun _ => readWord_writeWord hnext⟩
  · exact SameOff.writeWord (Nat.le_add_right _ _) (by rw [memBlockHeadSize]; omega)
  · refine Eq.trans ?_ hsize
    exact readWord_writeWord_of_disjoint (by rw [memBlockHeadSize]; omega)
  · refine Eq.trans ?_ htag
    exact writeWord_apply_of_disjoint (by rw [memBlockHeadSize, Block.size_released]; omega)

theorem laid_linkBlock (heap : Heap) {next : Nat} (h : Laid m a (f :: us) link') (ha : a ≠ 0)
    (hus : AllUsed us) (hne : us ≠ [])
    (hsize : blockSize m (a + f.size + total us) = b.size)
    (htag : m (a + f.size + total us + b.size - 1) = memBlockStatFree)
    (hnext : next < 4294967296) (hlt : a + f.size + total us < 4294967296) :
    ∃ m', linkBlock m heap a next (a + f.size + total us) = (a + f.size + total us, m', heap) ∧
      SameOff m m' a (a + f.size + total us + b.size) ∧
      Laid m' a (f :: (us ++ [b.released])) next := by
  have hle := f.le_size
  have hle' := b.le_size
  have hpos : total us ≠ 0 := fun h => hne (eq_nil_of_total_eq_zero h)
  have hhead : memBlockHeadSize = 4 := rfl
  set this := a + f.size + total us with hthis
  set m₁ := m.writeWord (this + memBlockHeadSize) next with hm₁
  set m₂ := m₁.writeWord (a + memBlockHeadSize) this with hm₂
  have hsize₁ : blockSize m₁ a = f.size := by
    refine Eq.trans ?_ h.1.size
    exact readWord_writeWord_of_disjoint (by omega)
  have heq : linkBlock m heap a next this = (this, m₂, heap) := by
    rw [linkBlock, if_neg ha, ← hm₁, hsize₁, if_neg (by omega)]
  refine ⟨m₂, heq, ?_, h.relink hus ?_ ?_ ?_ ⟨?_, ?_, fun _ => ?_⟩⟩
  · have h₁ : SameOff m m₁ a (this + b.size) := SameOff.writeWord (by omega) (by omega)
    exact h₁.trans (SameOff.writeWord (by omega) (by omega))
  · exact (Same.writeWord (by omega)).trans (Same.writeWord (by omega))
  · exact (Same.writeWord (by omega)).trans (Same.writeWord (by omega))
  · exact readWord_writeWord hlt
  · refine Eq.trans ?_ hsize
    exact (readWord_writeWord_of_disjoint (by omega)).trans
      (readWord_writeWord_of_disjoint (by omega))
  · refine Eq.trans ?_ htag
    rw [Block.size_released, ← hthis]
    exact (writeWord_apply_of_disjoint (by omega)).trans (writeWord_apply_of_disjoint (by omega))
  · rw [blockNext, readWord_writeWord_of_disjoint (by omega)]
    exact readWord_writeWord hnext

theorem laid_linkBlock_merge (heap : Heap) {next : Nat} (h : BlockAt m a f next) (ha : a ≠ 0)
    (hf : f.used = none) (hsize : blockSize m (a + f.size) = b.size)
    (htag : m (a + f.size + b.size - 1) = memBlockStatFree)
    (hlt : f.size + b.size < 4294967296) :
    ∃ m', linkBlock m heap a next (a + f.size) = (a, m', heap) ∧
      SameOff m m' a (a + f.size + b.size) ∧ BlockAt m' a (f.merge b) next := by
  have hle := f.le_size
  have hle' := b.le_size
  have hhead : memBlockHeadSize = 4 := rfl
  set m₁ := m.writeWord (a + f.size + memBlockHeadSize) next with hm₁
  set m₂ := m₁.writeWord a (f.size + b.size) with hm₂
  have hsize₁ : blockSize m₁ a = f.size := by
    refine Eq.trans ?_ h.size
    exact readWord_writeWord_of_disjoint (by omega)
  have hsize₂ : blockSize m₁ (a + f.size) = b.size := by
    refine Eq.trans ?_ hsize
    exact readWord_writeWord_of_disjoint (by omega)
  have heq : linkBlock m heap a next (a + f.size) = (a, m₂, heap) := by
    rw [linkBlock, if_neg ha, ← hm₁, hsize₁, if_pos rfl, hsize₂]
  refine ⟨m₂, heq, ?_, ⟨readWord_writeWord hlt, ?_, fun _ => ?_⟩⟩
  · have h₁ : SameOff m m₁ a (a + f.size + b.size) := SameOff.writeWord (by omega) (by omega)
    exact h₁.trans (SameOff.writeWord (by omega) (by omega))
  · refine Eq.trans ?_ htag
    rw [Block.size_merge, ← Nat.add_assoc]
    exact (writeWord_apply_of_disjoint (by omega)).trans (writeWord_apply_of_disjoint (by omega))
  · rw [← h.next hf, blockNext, readWord_writeWord_of_disjoint (by omega)]
    exact readWord_writeWord_of_disjoint (by omega)

theorem laid_mergeNext (h : BlockAt m a f (a + f.size)) (hb : BlockAt m (a + f.size) b link)
    (hused : b.used = none) (hlt : a + f.size + b.size < 4294967296) (hlink : link < 4294967296) :
    ∃ m', mergeNext m a (a + f.size) = m' ∧ SameOff m m' a (a + f.size + b.size) ∧
      BlockAt m' a (f.merge b) link := by
  have hle := f.le_size
  have hle' := b.le_size
  have hhead : memBlockHeadSize = 4 := rfl
  set m₁ := m.writeWord a (f.size + b.size) with hm₁
  set m₂ := m₁.writeWord (a + memBlockHeadSize) link with hm₂
  have hnext₁ : blockNext m₁ (a + f.size) = link := by
    rw [← hb.next hused]
    exact readWord_writeWord_of_disjoint (by omega)
  have heq : mergeNext m a (a + f.size) = m₂ := by
    rw [mergeNext, h.size, hb.size, if_pos ⟨by omega, rfl⟩]
    dsimp only
    rw [← hm₁, hnext₁]
  refine ⟨m₂, heq, ?_, ⟨?_, ?_, fun _ => readWord_writeWord hlink⟩⟩
  · have h₁ : SameOff m m₁ a (a + f.size + b.size) := SameOff.writeWord (by omega) (by omega)
    exact h₁.trans (SameOff.writeWord (by omega) (by omega))
  · rw [blockSize, readWord_writeWord_of_disjoint (by omega)]
    exact readWord_writeWord (by omega)
  · rw [Block.tag_of_free Block.used_merge, ← Block.tag_of_free hused, ← hb.tag, Block.size_merge,
      ← Nat.add_assoc]
    exact (writeWord_apply_of_disjoint (by omega)).trans (writeWord_apply_of_disjoint (by omega))

/-! ### Blocks taken and given back -/

theorem Laid.splitBlock {n : Nat} (front new : Block) (h : Laid m a (xs ++ f :: ys) 0)
    (hf : f.used = none) (hlt : f.size < 4294967296) (hn : n + memHeapMinSize ≤ f.size)
    (hfront : front.size = f.size - n) (hfree : front.used = none) (hnew : new.size = n)
    (hused : new.used ≠ none) :
    (splitBlock m (a + total xs) n).1 = a + total xs + front.size ∧
      SameOff m (splitBlock m (a + total xs) n).2 (a + total xs) (a + total xs + f.size) ∧
      Laid (splitBlock m (a + total xs) n).2 a (xs ++ ([front, new] ++ ys)) 0 := by
  obtain ⟨haddr, hoff, hlaid⟩ := laid_splitBlock h.middle hf hlt hn hfront hfree hnew hused
  have hsum : total [front, new] = total [f] := by
    simp only [total_cons, total_nil]
    omega
  have hone : total [f] = f.size := Nat.add_zero _
  have hfirst : firstFree (a + total xs) ([front, new] ++ ys) 0 =
      firstFree (a + total xs) ([f] ++ ys) 0 := by
    simp [firstFree, hfree, hf]
  have hmid : Laid m a (xs ++ ([f] ++ ys)) 0 := h
  refine ⟨haddr, hoff, hmid.replace ?_ hsum hfirst ?_⟩
  · rwa [hone]
  · rwa [hone]

theorem Laid.replace_behind {t' : Block} (h : Laid m a (ws ++ f :: us ++ t :: ys) 0)
    (hf : f.used = none) (hsize : t'.size = t.size)
    (hoff : SameOff m m' (a + total ws) (a + total (ws ++ f :: us) + t.size))
    (hlaid : Laid m' (a + total ws) (f :: (us ++ [t']))
      (firstFree (a + total (ws ++ f :: us) + t.size) ys 0)) :
    Laid m' a (ws ++ f :: us ++ t' :: ys) 0 := by
  have hmid : Laid m a (ws ++ ((f :: (us ++ [t])) ++ ys)) 0 := by
    simpa only [List.append_assoc, List.cons_append, List.nil_append] using h
  have hend : a + total ws + total (f :: (us ++ [t])) = a + total (ws ++ f :: us) + t.size := by
    simp only [total_append, total_cons, total_nil]
    omega
  have hnew : Laid m' a (ws ++ ((f :: (us ++ [t'])) ++ ys)) 0 := by
    refine hmid.replace ?_ ?_ ?_ ?_
    · rwa [hend]
    · simp only [total_append, total_cons, total_nil, hsize]
    · simp only [List.cons_append, firstFree, hf, if_true]
    · rwa [hend]
  simpa only [List.append_assoc, List.cons_append, List.nil_append] using hnew

theorem Laid.unlinkBlock {heap : Heap} (t' : Block) (h : Laid m a (xs ++ t :: ys) 0) (ha : a ≠ 0)
    (ht : t.used = none) (hsize : t'.size = t.size) (hused : t'.used ≠ none)
    (hlt : a + total (xs ++ t :: ys) < 4294967296)
    (hheap : heap.freeList = firstFree a (xs ++ t :: ys) 0) :
    ∃ m', unlinkBlock m heap (lastFree a xs 0) (a + total xs) =
        (m', { heap with freeList := firstFree a (xs ++ t' :: ys) 0 }) ∧
      SameOff m m' a (a + total xs + t.size) ∧ Laid m' a (xs ++ t' :: ys) 0 := by
  rw [total_append, total_cons] at hlt
  have hlink : firstFree (a + total xs + t.size) ys 0 < 4294967296 := by
    have hbounds : _ ∨ _ := @firstFree_bounds (a + total xs + t.size) ys
    omega
  rcases @lastFree_cases a 0 xs with ⟨hxs, hlast⟩ | ⟨ws, f, us, rfl, hf, hus, hlast⟩
  · obtain ⟨m', heq, hoff, hat⟩ := laid_unlinkBlock_zero heap h.middle ht hsize hused
    have hfirst : firstFree a (xs ++ t' :: ys) 0 = firstFree (a + total xs + t.size) ys 0 := by
      rw [firstFree_append, firstFree_of_allUsed hxs, firstFree, if_neg hused, hsize]
    refine ⟨m', ?_, hoff.mono (by omega) le_rfl, laid_append.2 ⟨?_, ?_, ?_⟩⟩
    · rw [hlast, heq, hfirst]
    · exact ((laid_append.1 h).1.of_allUsed hxs).congr (hoff.same (Or.inl le_rfl))
    · rwa [hsize]
    · rw [hsize]
      exact (laid_append.1 h).2.2.congr (hoff.same (Or.inr le_rfl))
  · have hthis : a + total ws + f.size + total us = a + total (ws ++ f :: us) := by
      rw [total_append, total_cons]
      omega
    have hrest : Laid m (a + total ws) (f :: us ++ t :: ys) 0 := by
      rw [List.append_assoc] at h
      exact (laid_append.1 h).2
    obtain ⟨hlaid, hat⟩ := laid_append.1 hrest
    have hblocks : Laid m (a + total ws) (f :: us ++ [t])
        (firstFree (a + total (ws ++ f :: us) + t.size) ys 0) := by
      refine laid_append.2 ⟨?_, ?_⟩
      · rw [firstFree, if_pos ht] at hlaid ⊢
        exact hlaid
      · rw [total_cons, ← Nat.add_assoc, hthis] at hat ⊢
        exact laid_singleton.2 hat.1
    obtain ⟨m', heq, hoff, hnew⟩ :=
      laid_unlinkBlock heap hblocks (by omega) hus ht hsize hused hlink
    rw [hthis] at heq hoff
    have hfirst : firstFree a (ws ++ f :: us ++ t' :: ys) 0 =
        firstFree a (ws ++ f :: us ++ t :: ys) 0 := by
      simp [firstFree_append, firstFree, hf]
    refine ⟨m', ?_, hoff.mono (by omega) le_rfl, h.replace_behind hf hsize hoff hnew⟩
    rw [hlast, heq, hfirst, ← hheap]

/-- Two lists have the same bytes, the same free bytes and the same pointers in use. -/
structure SameContents (a : Nat) (bs bs' : List Block) : Prop where
  total_eq : total bs' = total bs
  freeTotal_eq : freeTotal bs' = freeTotal bs
  liveAt_eq : ∀ ptr, liveAt a bs' ptr = liveAt a bs ptr

theorem SameContents.refl : SameContents a bs bs := ⟨rfl, rfl, fun _ => rfl⟩

theorem SameContents.trans {bs' bs'' : List Block} (h : SameContents a bs bs')
    (h' : SameContents a bs' bs'') : SameContents a bs bs'' :=
  ⟨h'.total_eq.trans h.total_eq, h'.freeTotal_eq.trans h.freeTotal_eq,
    fun ptr => (h'.liveAt_eq ptr).trans (h.liveAt_eq ptr)⟩

theorem sameContents_merge (hf : f.used = none) (hb : b.used = none) :
    SameContents a (xs ++ f :: b :: ys) (xs ++ f.merge b :: ys) := by
  have hle := b.le_size
  refine ⟨?_, ?_, fun ptr => ?_⟩
  · simp only [total_append, total_cons, Block.size_merge, Nat.add_assoc]
  · simp only [freeTotal_append, freeTotal, Block.used_merge, hf, hb, if_true, Block.size_merge,
      Nat.add_assoc]
  · simp only [liveAt_append, liveAt, Block.used_merge, hf, hb, Block.size_merge, ← Nat.add_assoc]
    split_ifs with hxs hptr hptr'
    · rfl
    · rfl
    · exact liveAt_of_lt (by omega)
    · rfl

theorem Laid.replace_pair (h : Laid m a (xs ++ f :: b :: ys) 0) (hf : f.used = none)
    (hoff : SameOff m m' (a + total xs) (a + total xs + f.size + b.size))
    (hat : BlockAt m' (a + total xs) (f.merge b)
      (firstFree (a + total xs + f.size + b.size) ys 0)) :
    Laid m' a (xs ++ f.merge b :: ys) 0 := by
  have hmid : Laid m a (xs ++ ([f, b] ++ ys)) 0 := h
  have hend : a + total xs + total [f, b] = a + total xs + f.size + b.size := by
    simp only [total_cons, total_nil]
    omega
  have hnew : Laid m' a (xs ++ ([f.merge b] ++ ys)) 0 := by
    refine hmid.replace ?_ ?_ ?_ ?_
    · rwa [hend]
    · simp only [total_cons, total_nil, Block.size_merge, Nat.add_assoc]
    · simp only [List.cons_append, firstFree, hf, Block.used_merge, if_true]
    · rw [hend]
      exact laid_singleton.2 hat
  exact hnew

/-- What `linkBlock` gives for the block `t` between `xs` and `ys`: the free block `g` behind `xs₁`,
which may still touch a free block after it. -/
structure Linked (m : Memory) (a : Nat) (xs : List Block) (t : Block) (ys : List Block)
    (heap : Heap) (r : Nat × Memory × Heap) (xs₁ : List Block) (g : Block) : Prop where
  addr : r.1 = a + total xs₁
  heap_eq : r.2.2 = { heap with freeList := firstFree a (xs₁ ++ g :: ys) 0 }
  sameOff : SameOff m r.2.1 a (a + total xs + t.size)
  laid : Laid r.2.1 a (xs₁ ++ g :: ys) 0
  free : g.used = none
  separated : Separated xs₁
  lastUsed : LastUsed xs₁
  contents : SameContents a (xs ++ t.released :: ys) (xs₁ ++ g :: ys)

section Link

variable {heap : Heap} {m₀ : Memory}
  (hsize₀ : blockSize m₀ (a + total xs) = t.size)
  (htag₀ : m₀ (a + total xs + t.size - 1) = memBlockStatFree)
  (hoff₀ : SameOff m m₀ (a + total xs) (a + total xs + t.size))

include hsize₀ htag₀ hoff₀

theorem linked_zero (h : Laid m a (xs ++ t :: ys) 0) (hused : AllUsed xs) (hxs : Separated xs)
    (hlink : firstFree (a + total xs + t.size) ys 0 < 4294967296) :
    Linked m a xs t ys heap
      (linkBlock m₀ heap 0 (firstFree (a + total xs + t.size) ys 0) (a + total xs))
      xs t.released := by
  obtain ⟨m₁, heq, hoff, hat⟩ := laid_linkBlock_zero heap hsize₀ htag₀ hlink
  have hoff₁ := hoff₀.trans hoff
  have hfirst : firstFree a (xs ++ t.released :: ys) 0 = a + total xs := by
    rw [firstFree_append, firstFree_of_allUsed hused]
    exact if_pos rfl
  rw [heq]
  refine ⟨rfl, by rw [hfirst], hoff₁.mono (by omega) le_rfl, laid_append.2 ⟨?_, hat, ?_⟩, rfl, hxs,
    lastUsed_of_allUsed hused, SameContents.refl⟩
  · exact ((laid_append.1 h).1.of_allUsed hused).congr (hoff₁.same (Or.inl le_rfl))
  · exact (laid_append.1 h).2.2.congr (hoff₁.same (Or.inr le_rfl))

theorem linked_behind (h : Laid m a (xs ++ t :: ys) 0) (ha : a ≠ 0) (hsplit : xs = ws ++ f :: us)
    (hf : f.used = none) (hus : AllUsed us) (hne : us ≠ []) (hxs : Separated xs)
    (hlink : firstFree (a + total xs + t.size) ys 0 < 4294967296)
    (hlt : a + total xs < 4294967296) (hheap : heap.freeList = firstFree a (xs ++ t :: ys) 0) :
    Linked m a xs t ys heap
      (linkBlock m₀ heap (a + total ws) (firstFree (a + total xs + t.size) ys 0) (a + total xs))
      xs t.released := by
  subst hsplit
  have hthis : a + total (ws ++ f :: us) = a + total ws + f.size + total us := total_append_cons
  have hrest : Laid m (a + total ws) (f :: us ++ t :: ys) 0 := by
    rw [List.append_assoc] at h
    exact (laid_append.1 h).2
  have hbefore : Same m m₀ (a + total ws) (a + total ws + total (f :: us)) := by
    refine hoff₀.same (Or.inl ?_)
    rw [hthis, total_cons]
    omega
  have hlaid₀ := (laid_append.1 hrest).1.congr hbefore
  have hnew := laid_linkBlock heap hlaid₀ (by omega) hus hne (hthis ▸ hsize₀) (hthis ▸ htag₀) hlink
    (hthis ▸ hlt)
  rw [← hthis] at hnew
  obtain ⟨m₁, heq, hoff, hlaid⟩ := hnew
  have hoff₁ : SameOff m m₁ (a + total ws) (a + total (ws ++ f :: us) + t.size) :=
    (hoff₀.mono (by omega) le_rfl).trans hoff
  have hfirst : firstFree a (ws ++ f :: us ++ t.released :: ys) 0 =
      firstFree a (ws ++ f :: us ++ t :: ys) 0 := by
    simp [firstFree_append, firstFree, hf]
  rw [heq]
  refine ⟨rfl, by rw [hfirst, ← hheap], hoff₁.mono (by omega) le_rfl,
    h.replace_behind hf rfl hoff₁ hlaid, rfl, hxs, ?_, SameContents.refl⟩
  rw [List.append_cons]
  exact lastUsed_append hus hne

theorem linked_merge (h : Laid m a (xs ++ t :: ys) 0) (ha : a ≠ 0) (ht : t.used ≠ none)
    (hsplit : xs = ws ++ [f]) (hf : f.used = none) (hxs : Separated xs)
    (hlt : a + total xs + t.size < 4294967296)
    (hheap : heap.freeList = firstFree a (xs ++ t :: ys) 0) :
    Linked m a xs t ys heap
      (linkBlock m₀ heap (a + total ws) (firstFree (a + total xs + t.size) ys 0) (a + total xs))
      ws (f.merge t) := by
  subst hsplit
  have hthis : a + total (ws ++ [f]) = a + total ws + f.size := total_append_cons
  have hmid : Laid m a (ws ++ f :: (t :: ys)) 0 := by
    rwa [List.append_assoc] at h
  have hat : BlockAt m₀ (a + total ws) f (firstFree (a + total ws + f.size + t.size) ys 0) := by
    have hat := hmid.middle
    rw [firstFree, if_neg ht] at hat
    exact hat.congr (hoff₀.same (Or.inl hthis.ge))
  have hnew := laid_linkBlock_merge heap hat (by omega) hf (hthis ▸ hsize₀) (hthis ▸ htag₀)
    (by omega)
  rw [← hthis] at hnew
  obtain ⟨m₁, heq, hoff, hat₁⟩ := hnew
  have hoff₁ : SameOff m m₁ (a + total ws) (a + total (ws ++ [f]) + t.size) :=
    (hoff₀.mono (by omega) le_rfl).trans hoff
  have hfirst : firstFree a (ws ++ f.merge t :: ys) 0 = firstFree a (ws ++ [f] ++ t :: ys) 0 := by
    simp [firstFree_append, firstFree, hf]
  obtain ⟨hws, -, hlast, -⟩ := (separated_append_free hf).1 hxs
  rw [heq]
  refine ⟨rfl, by rw [hfirst, ← hheap], hoff₁.mono (by omega) le_rfl, ?_, rfl, hws, hlast, ?_⟩
  · rw [hthis] at hoff₁ hat₁
    exact Laid.replace_pair hmid hf hoff₁ hat₁
  · rw [List.append_assoc]
    exact sameContents_merge hf Block.used_released

end Link

theorem Laid.linkBlock (heap : Heap) {m₀ : Memory} (h : Laid m a (xs ++ t :: ys) 0) (ha : a ≠ 0)
    (ht : t.used ≠ none) (hxs : Separated xs) (hlt : a + total (xs ++ t :: ys) < 4294967296)
    (hheap : heap.freeList = firstFree a (xs ++ t :: ys) 0)
    (hm₀ : m₀ = m.writeByte (a + total xs + t.size - 1) memBlockStatFree) :
    ∃ xs₁ g, Linked m a xs t ys heap
      (linkBlock m₀ heap (lastFree a xs 0) (firstFree (a + total xs + t.size) ys 0) (a + total xs))
      xs₁ g := by
  have hle := t.le_size
  rw [total_append_cons] at hlt
  have hlink : firstFree (a + total xs + t.size) ys 0 < 4294967296 := by
    have hbounds : _ ∨ _ := @firstFree_bounds (a + total xs + t.size) ys
    omega
  have hoff₀ : SameOff m m₀ (a + total xs) (a + total xs + t.size) := by
    rw [hm₀]
    exact SameOff.writeByte (by omega) (by omega)
  have hsize₀ : blockSize m₀ (a + total xs) = t.size := by
    rw [hm₀]
    exact (readWord_writeByte_of_disjoint (by omega)).trans h.middle.size
  have htag₀ : m₀ (a + total xs + t.size - 1) = memBlockStatFree := by
    rw [hm₀]
    exact writeByte_apply _
  rcases @lastFree_cases a 0 xs with ⟨hused, hlast⟩ | ⟨ws, f, us, hsplit, hf, hus, hlast⟩
  · rw [hlast]
    exact ⟨xs, t.released, linked_zero hsize₀ htag₀ hoff₀ h hused hxs hlink⟩
  · rw [hlast]
    by_cases hne : us = []
    · subst hne
      exact ⟨ws, f.merge t,
        linked_merge hsize₀ htag₀ hoff₀ h ha ht hsplit hf hxs (by omega) hheap⟩
    · exact ⟨xs, t.released, linked_behind hsize₀ htag₀ hoff₀ h ha hsplit hf hus hne hxs hlink
        (by omega) hheap⟩

/-- A free block takes in the free block that touches it, if there is one, and then no two
neighbouring blocks are free. -/
theorem Laid.mergeNext (h : Laid m a (xs ++ f :: ys) 0) (hf : f.used = none)
    (hlt : a + total (xs ++ f :: ys) < 4294967296) (hxs : Separated xs) (hlast : LastUsed xs)
    (hys : Separated ys) :
    ∃ bs, Laid (mergeNext m (a + total xs) (firstFree (a + total xs + f.size) ys 0)) a bs 0 ∧
      SameOff m (mergeNext m (a + total xs) (firstFree (a + total xs + f.size) ys 0)) a
        (a + total (xs ++ f :: ys)) ∧
      Separated bs ∧ firstFree a bs 0 = firstFree a (xs ++ f :: ys) 0 ∧
      SameContents a (xs ++ f :: ys) bs := by
  have hat := h.middle
  have hle := f.le_size
  rw [total_append_cons] at hlt
  by_cases hhead : firstFree (a + total xs + f.size) ys 0 = a + total xs + f.size
  · obtain ⟨g, zs, rfl, hg⟩ := exists_cons_of_firstFree_eq (by omega) hhead
    rw [hhead] at hat ⊢
    have hgat : BlockAt m (a + total xs + f.size) g
        (firstFree (a + total xs + f.size + g.size) zs 0) := (laid_append.1 h).2.2.1
    rw [total_cons] at hlt
    have hbounds : _ ∨ _ := @firstFree_bounds (a + total xs + f.size + g.size) zs
    obtain ⟨m', heq, hoff, hnew⟩ := laid_mergeNext hat hgat hg (by omega) (by omega)
    have hcons : Separated ([] ++ g :: zs) := hys
    obtain ⟨-, hzs, -, hused⟩ := (separated_append_free hg).1 hcons
    rw [heq]
    refine ⟨xs ++ f.merge g :: zs, h.replace_pair hf hoff hnew, hoff.mono (by omega) ?_,
      (separated_append_free rfl).2 ⟨hxs, hzs, hlast, hused⟩, ?_, sameContents_merge hf hg⟩
    · rw [total_append_cons, total_cons]
      omega
    · simp [firstFree_append, firstFree, hf]
  · have heq : MemHeap.mergeNext m (a + total xs) (firstFree (a + total xs + f.size) ys 0) = m := by
      rw [MemHeap.mergeNext, hat.size, if_neg (fun hmerge => hhead hmerge.2.symm)]
    have hused : HeadUsed ys := by
      intro b hb hfree
      cases ys with
      | nil => cases hb
      | cons y ys =>
        cases hb
        exact hhead (if_pos hfree)
    rw [heq]
    exact ⟨_, h, SameOff.refl, (separated_append_free hf).2 ⟨hxs, hys, hlast, hused⟩, rfl,
      SameContents.refl⟩

/-! ### The bytes of blocks in use -/

theorem total_cases (h : xs ++ f :: ys = ws ++ t :: us) :
    total xs + f.size ≤ total ws ∨ total ws + t.size ≤ total xs ∨ xs = ws ∧ f = t := by
  rcases List.append_eq_append_iff.1 h with ⟨mid, rfl, hmid⟩ | ⟨mid, rfl, hmid⟩
  · cases mid with
    | nil =>
      obtain ⟨rfl, -⟩ := List.cons.inj hmid
      exact .inr (.inr ⟨by rw [List.append_nil], rfl⟩)
    | cons c mid =>
      obtain ⟨rfl, -⟩ := List.cons.inj hmid
      rw [total_append, total_cons]
      exact .inl (by omega)
  · cases mid with
    | nil =>
      obtain ⟨rfl, -⟩ := List.cons.inj hmid
      exact .inr (.inr ⟨by rw [List.append_nil], rfl⟩)
    | cons c mid =>
      obtain ⟨rfl, -⟩ := List.cons.inj hmid
      rw [total_append, total_cons]
      exact .inr (.inl (by omega))

/-- The bytes of the blocks in use stay, except those of the block at an address. -/
def Keeps (m m' : Memory) (a : Nat) (bs : List Block) (off : Nat) : Prop :=
  ∀ ws t us, bs = ws ++ t :: us → t.used ≠ none → a + total ws ≠ off →
    Same m m' (a + total ws) (a + total ws + t.size)

theorem Keeps.trans {off : Nat} {m'' : Memory} (h : Keeps m m' a bs off)
    (h' : Keeps m' m'' a bs off) : Keeps m m'' a bs off :=
  fun ws t us heq ht hoff => (h ws t us heq ht hoff).trans (h' ws t us heq ht hoff)

theorem Keeps.of_sameOff {off : Nat}
    (hoff : SameOff m m' (a + total xs) (a + total xs + f.size))
    (hf : f.used = none ∨ a + total xs = off) : Keeps m m' a (xs ++ f :: ys) off := by
  intro ws t us heq ht hne
  refine hoff.same ?_
  rcases total_cases heq with hle | hle | ⟨rfl, rfl⟩
  · exact .inr (by omega)
  · exact .inl (by omega)
  · rcases hf with hf | hf
    · exact absurd hf ht
    · exact absurd hf hne

theorem Keeps.of_lastFree {off : Nat} (h : lastFree a xs 0 ≠ 0)
    (hoff : SameOff m m' (lastFree a xs 0) (lastFree a xs 0 + 8)) :
    Keeps m m' a (xs ++ t :: ys) off := by
  rcases @lastFree_cases a 0 xs with ⟨-, hlast⟩ | ⟨ws, f, us, rfl, hf, -, hlast⟩
  · exact absurd hlast h
  · have hle := f.le_size
    rw [hlast] at hoff
    rw [List.append_assoc, List.cons_append]
    exact Keeps.of_sameOff (hoff.mono le_rfl (by omega)) (.inl hf)

theorem Laid.keeps_unlinkBlock {heap : Heap} (h : Laid m a (xs ++ t :: ys) 0)
    (ht : t.used = none) (off : Nat) :
    Keeps m (MemHeap.unlinkBlock m heap (lastFree a xs 0) (a + total xs)).1 a (xs ++ t :: ys)
      off := by
  have hat := h.middle
  have hle := t.le_size
  have htag {m₁ : Memory} (hsize : blockSize m₁ (a + total xs) = t.size) :
      Keeps m₁ (m₁.writeByte (memDogAddr m₁ (a + total xs)) memBlockStatUse) a (xs ++ t :: ys)
        off := by
    rw [memDogAddr, hsize]
    exact Keeps.of_sameOff (SameOff.writeByte (by omega) (by omega)) (.inl ht)
  rw [MemHeap.unlinkBlock]
  split_ifs with hpre
  · refine Keeps.trans ?_ (htag ?_)
    · exact Keeps.of_lastFree hpre (SameOff.writeWord (by simp [memBlockHeadSize])
        (by simp [memBlockHeadSize]))
    · rw [← hat.size]
      refine readWord_writeWord_of_disjoint ?_
      rcases @lastFree_cases a 0 xs with ⟨-, hlast⟩ | ⟨ws, f, us, rfl, -, -, hlast⟩
      · exact absurd hlast hpre
      · have hle' := f.le_size
        rw [hlast, total_append, total_cons, memBlockHeadSize]
        omega
  · exact htag hat.size

theorem Keeps.of_words {block : Nat}
    (hblock : block = a + total xs ∨ lastFree a xs 0 ≠ 0 ∧ block = lastFree a xs 0)
    (hoff : SameOff m m' block (block + 8)) : Keeps m m' a (xs ++ t :: ys) (a + total xs) := by
  have hle := t.le_size
  rcases hblock with rfl | ⟨hne, rfl⟩
  · exact Keeps.of_sameOff (hoff.mono le_rfl (by omega)) (.inr rfl)
  · exact Keeps.of_lastFree hne hoff

theorem keeps_linkBlock (m : Memory) (heap : Heap) (next : Nat) :
    Keeps m (linkBlock m heap (lastFree a xs 0) next (a + total xs)).2.1 a (xs ++ t :: ys)
        (a + total xs) ∧
      ((linkBlock m heap (lastFree a xs 0) next (a + total xs)).1 = a + total xs ∨
        lastFree a xs 0 ≠ 0 ∧
          (linkBlock m heap (lastFree a xs 0) next (a + total xs)).1 = lastFree a xs 0) := by
  have hhead : memBlockHeadSize = 4 := rfl
  have hlink : Keeps m (m.writeWord (a + total xs + memBlockHeadSize) next) a (xs ++ t :: ys)
      (a + total xs) :=
    Keeps.of_words (.inl rfl) (SameOff.writeWord (by omega) (by omega))
  rw [linkBlock]
  split_ifs with hpre hmerge
  · exact ⟨hlink, .inl rfl⟩
  · exact ⟨hlink.trans (Keeps.of_words (.inr ⟨hpre, rfl⟩)
      (SameOff.writeWord le_rfl (by omega))), .inr ⟨hpre, rfl⟩⟩
  · exact ⟨hlink.trans (Keeps.of_words (.inr ⟨hpre, rfl⟩)
      (SameOff.writeWord (by omega) (by omega))), .inl rfl⟩

theorem keeps_mergeNext {block : Nat} (next : Nat)
    (hblock : block = a + total xs ∨ lastFree a xs 0 ≠ 0 ∧ block = lastFree a xs 0) :
    Keeps m (mergeNext m block next) a (xs ++ t :: ys) (a + total xs) := by
  have hhead : memBlockHeadSize = 4 := rfl
  refine Keeps.of_words hblock ?_
  rw [mergeNext]
  split_ifs
  · exact (SameOff.writeWord le_rfl (by omega)).trans (SameOff.writeWord (by omega) (by omega))
  · exact SameOff.refl

end TuyaOpen.MemHeap
