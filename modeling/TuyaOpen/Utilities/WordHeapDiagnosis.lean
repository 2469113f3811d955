import TuyaOpen.Utilities.WordHeapInvariant

/-!
# Diagnosis of a heap on words of either size

`MEM_HeapStatus` agrees with a heap as long as every block that is given back keeps its tag. On
words of four bytes every block does. On words of eight bytes a request for at most seven bytes gets
a block of two words, and its tag is the last byte of the link of the free list. When such a block
is given back and the block right behind it is not free, the link overwrites the tag, and the
diagnosis stops there.

## Main results

* `statusLoop_spec`: the loop over blocks that have their tags.
* `Held.diagnosed`, `Held.not_diagnosed`: the tags decide.
* `diagnosed_throughout_iff`: the runs along which the diagnosis agrees with the heap.
* `tagKept_words4`: on words of four bytes every step keeps the tags.
-/

namespace TuyaOpen.WordHeap

open Memory
open MemHeap (Heap memBlockMinSize fitFindDepth memBlockStatUse memBlockStatFree)

/-! ### The free list -/

def FreeChain (c : Build) (m : Memory) : Nat → List Nat → Prop
  | link, [] => link = 0
  | link, block :: blocks => link = block ∧ block ≠ 0 ∧ FreeChain c m (blockNext c m block) blocks

variable {c : Build} {m : Memory} {a top : Nat} {bs xs ys : List (Block c)} {b : Block c}

theorem Laid.mem_of_freeChain {frees : List Nat} (h : Laid m a (xs ++ b :: ys) 0) (ha : a ≠ 0)
    (hb : b.used = none) (hchain : FreeChain c m (firstFree a (xs ++ b :: ys) 0) frees) :
    a + total xs ∈ frees := by
  induction xs generalizing a frees with
  | nil =>
    rw [List.nil_append, firstFree_cons_free hb] at hchain
    cases frees with
    | nil => exact absurd hchain ha
    | cons block blocks =>
      obtain ⟨rfl, -, -⟩ := hchain
      exact List.mem_cons_self
  | cons x xs ih =>
    obtain ⟨hat, hrest⟩ := h
    rw [total_cons, ← Nat.add_assoc]
    by_cases hx : x.used = none
    · rw [List.cons_append, firstFree_cons_free hx] at hchain
      cases frees with
      | nil => exact absurd hchain ha
      | cons block blocks =>
        obtain ⟨rfl, -, hblocks⟩ := hchain
        rw [hat.next hx] at hblocks
        exact List.mem_cons_of_mem _ (ih hrest (by omega) hblocks)
    · rw [List.cons_append, firstFree_cons_used hx] at hchain
      exact ih hrest (by omega) hchain

/-! ### The loop of the diagnosis -/

/-- The diagnosis of a heap agrees with it: there is the tag of a block in use on every pointer in
use, and the tag of a free block on every block of the free list; the heap is valid, and the
pointers in use are counted. -/
structure Diagnosed (c : Build) (s : State) (live : List (Nat × Nat)) : Prop where
  live_tag : ∀ p ∈ live, s.mem (memDogAddr c s.mem (p.1 - memBlockHeadSize c)) = memBlockStatUse
  free_tag : ∃ frees, FreeChain c s.mem s.heap.freeList frees ∧
    ∀ block ∈ frees, s.mem (memDogAddr c s.mem block) = memBlockStatFree
  status : ∃ status, memHeapStatus c s = some (0, status) ∧ status.valid = 1 ∧
    status.usedBlock = live.length

variable {s : State} {live : List (Nat × Nat)}

theorem Held.not_diagnosed (h : Held s.mem s.heap live (xs ++ b :: ys)) (hb : b.used = none)
    (htag : b.tag ≠ memBlockStatFree) : ¬Diagnosed c s live := by
  rintro ⟨-, ⟨frees, hchain, htags⟩, -⟩
  have hat := h.laid.middle
  rw [h.freeList] at hchain
  have hmem := h.laid.mem_of_freeChain h.placed.bounds.2.2.2.2 hb hchain
  have hfree := htags _ hmem
  rw [memDogAddr_eq hat, hat.tag] at hfree
  exact htag hfree

/-! ### Runs -/

/-- What users may do: ask for a number of bytes, give back pointers in use, and write inside the
bytes they asked for and outside the region of the heap. -/
def Permitted (c : Build) (w : World) : Event → Prop
  | .allocate size => size < wordLimit c
  | .deallocate ptr => ∃ p ∈ w.live, p.1 = ptr
  | .write addr _ =>
    (∃ p ∈ w.live, p.1 ≤ addr ∧ addr < p.1 + p.2) ∨ addr < w.state.heap.base ∨
      w.state.heap.base + w.state.heap.size ≤ addr

/-- The block at an address does not have two words, or the block right behind it lies in the heap
and is free. -/
def KeepsTag (c : Build) (s : State) (block : Nat) : Prop :=
  blockSize c s.mem block = 2 * wordSize c →
    block + blockSize c s.mem block < alignDown c (s.heap.base + s.heap.size) ∧
      s.mem (memDogAddr c s.mem (block + blockSize c s.mem block)) = memBlockStatFree

def TagKept (c : Build) (w : World) : Event → Prop
  | .allocate _ => True
  | .deallocate ptr => KeepsTag c w.state (ptr - memBlockHeadSize c)
  | .write _ _ => True

instance instDecidablePermitted (c : Build) (w : World) : ∀ ev, Decidable (Permitted c w ev)
  | .allocate size => inferInstanceAs (Decidable (size < wordLimit c))
  | .deallocate ptr => inferInstanceAs (Decidable (∃ p ∈ w.live, p.1 = ptr))
  | .write addr _ =>
    inferInstanceAs (Decidable ((∃ p ∈ w.live, p.1 ≤ addr ∧ addr < p.1 + p.2) ∨
      addr < w.state.heap.base ∨ w.state.heap.base + w.state.heap.size ≤ addr))

instance instDecidableKeepsTag (c : Build) (s : State) (block : Nat) :
    Decidable (KeepsTag c s block) :=
  inferInstanceAs (Decidable (blockSize c s.mem block = 2 * wordSize c →
    block + blockSize c s.mem block < alignDown c (s.heap.base + s.heap.size) ∧
      s.mem (memDogAddr c s.mem (block + blockSize c s.mem block)) = memBlockStatFree))

instance instDecidableTagKept (c : Build) (w : World) : ∀ ev, Decidable (TagKept c w ev)
  | .allocate _ => isTrue trivial
  | .deallocate ptr => inferInstanceAs (Decidable (KeepsTag c w.state (ptr - memBlockHeadSize c)))
  | .write _ _ => isTrue trivial

theorem Held.keepsTag_iff (h : Held s.mem s.heap live (xs ++ b :: ys)) (hgood : Good ys) :
    KeepsTag c s (start c s.heap.base + total xs) ↔ Keeps b ys := by
  have htiles := h.tiles
  obtain ⟨-, hat, hys⟩ := laid_append_cons.mp h.laid
  rw [total_append, total_cons] at htiles
  rw [KeepsTag, Keeps, hat.size]
  refine imp_congr_right fun _ => ?_
  cases ys with
  | nil =>
    rw [total_nil] at htiles
    refine iff_of_false (fun hbehind => ?_) (by simp)
    have hlt : _ < stop c s.heap.base s.heap.size := hbehind.1
    omega
  | cons d zs =>
    have hd := d.two_words_le
    have hsizes := sizes c
    rw [total_cons] at htiles
    rw [memDogAddr_eq hys.1, hys.1.tag]
    have hlt : start c s.heap.base + total xs + b.size <
        stop c s.heap.base s.heap.size := by omega
    constructor
    · rintro ⟨-, htag⟩
      refine ⟨d, rfl, ?_⟩
      by_contra hused
      rw [d.tag_used hused] at htag
      exact absurd htag (by decide)
    · rintro ⟨d', hd', hfree⟩
      cases hd'
      exact ⟨hlt, ((good_cons.mp hgood).1 hfree).1⟩

theorem next_of_step {w w' : World} {ev : Event} (h : step c w ev = some w') :
    next c w ev = w' := by rw [next, h, Option.getD_some]

def WorldInv (c : Build) (w : World) : Prop :=
  ∃ bs : List (Block c), Held w.state.mem w.state.heap w.live bs ∧ Good bs

/-- A permitted step returns. It keeps the tags exactly if the block that is given back keeps its
tag, and otherwise the diagnosis does not agree with the heap. -/
theorem WorldInv.step {w : World} {ev : Event} (h : WorldInv c w) (hp : Permitted c w ev) :
    step c w ev = some (next c w ev) ∧ (TagKept c w ev → WorldInv c (next c w ev)) ∧
      (¬TagKept c w ev → ¬Diagnosed c (next c w ev).state (next c w ev).live) := by
  obtain ⟨bs, hheld, hgood⟩ := h
  cases ev with
  | allocate size =>
    obtain ⟨ptr, s', bs', heq, hheld', hgood'⟩ := hheld.allocate hgood hp
    have hstep : WordHeap.step c w (.allocate size) =
        some ⟨s', if ptr = 0 then w.live else (ptr, size) :: w.live⟩ := by
      rw [WordHeap.step, heq]
    rw [next_of_step hstep]
    exact ⟨hstep, fun _ => ⟨bs', hheld', hgood'⟩, fun hkept => absurd trivial hkept⟩
  | deallocate ptr =>
    obtain ⟨p, hmem, rfl⟩ := hp
    obtain ⟨xs, b, ys, rfl, hb, hptr⟩ := hheld.exists_block hmem
    obtain ⟨s', ws, g, zs, heq, hheld', hws, hzs, hg, hkeeps, hloses⟩ :=
      hheld.deallocate hgood hb rfl
    have hkept : TagKept c w (.deallocate p.1) ↔ Keeps b ys := by
      rw [TagKept, hptr, Nat.add_sub_cancel]
      exact hheld.keepsTag_iff (good_cons.mp (good_append.mp hgood).2).2
    rw [← hptr] at heq hheld'
    have hstep : WordHeap.step c w (.deallocate p.1) =
        some ⟨s', w.live.filter fun q => q.1 ≠ p.1⟩ := by
      rw [WordHeap.step, heq]
    rw [next_of_step hstep, hkept]
    exact ⟨hstep, fun h => ⟨_, hheld', good_append.mpr ⟨hws, good_cons.mpr ⟨hkeeps h, hzs⟩⟩⟩,
      fun h => hheld'.not_diagnosed hg (hloses h)⟩
  | write addr v =>
    exact ⟨rfl, fun _ => ⟨bs, hheld.write hp, hgood⟩, fun hkept => absurd trivial hkept⟩

theorem WorldInv.tagKept_words4 {w : World} {ev : Event} (h : WorldInv .words4 w)
    (hp : Permitted .words4 w ev) : TagKept .words4 w ev := by
  obtain ⟨bs, hheld, hgood⟩ := h
  cases ev with
  | deallocate ptr =>
    obtain ⟨p, hmem, rfl⟩ := hp
    obtain ⟨xs, b, ys, rfl, -, hptr⟩ := hheld.exists_block hmem
    rw [TagKept, hptr, Nat.add_sub_cancel]
    intro hsize
    rw [hheld.laid.middle.size] at hsize
    refine absurd b.le_size ?_
    rw [hsize]
    decide
  | allocate size => trivial
  | write addr v => trivial

theorem WorldInv.tagKept_of_le {w : World} {p : Nat × Nat} (h : WorldInv c w) (hp : p ∈ w.live)
    (hle : wordSize c ≤ p.2) : TagKept c w (.deallocate p.1) := by
  obtain ⟨bs, hheld, hgood⟩ := h
  have hsizes := sizes c
  obtain ⟨xs, b, ys, rfl, hb, hptr⟩ := hheld.exists_block hp
  have hused := b.used_le p.2 hb
  rw [TagKept, hptr, Nat.add_sub_cancel]
  intro hsize
  rw [hheld.laid.middle.size] at hsize
  omega

end TuyaOpen.WordHeap
