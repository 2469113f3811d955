import TuyaOpen.Utilities.MemHeapLayout

/-!
# The operations of the memory heap keep its layout

A heap in use has a layout: the memory of its region holds a list of blocks, and the blocks in use
are the pointers that were handed out. The operations on the heap keep this when only pointers in
use are given back, and they leave the bytes of the other blocks in use alone. The loops over the
free list return.

## Main results

* `memAllocate_spec`, `memDeallocate_spec`: the operations on a heap.
* `memAllocate_eq_zero_iff`: when an allocation fails.
* `memAllocate_keeps`, `memDeallocate_keeps`: the bytes that stay.
* `memHeapInit_eq`: a new heap.
-/

namespace TuyaOpen.MemHeap

open Memory

/-! ### Regions -/

def Heap.start (heap : Heap) : Nat := alignUp heap.base

def Heap.stop (heap : Heap) : Nat := alignDown (heap.base + heap.size)

/-- The region of a heap is an object of the address space, and it has room for a block. -/
structure Heap.Placed (heap : Heap) : Prop where
  base_ne : heap.base ≠ 0
  room : (heap.base + 3) / 4 * 4 + memHeapMinSize ≤ (heap.base + heap.size) / 4 * 4
  end_lt : heap.base + heap.size < 4294967296

variable {m m' : Memory} {heap : Heap} {live : Nat → Option Nat} {bs : List Block}

theorem alignUp_eq {x : Nat} (h : x + 3 < 4294967296) : alignUp x = (x + 3) / 4 * 4 := by
  rw [alignUp, memAlignNum, u32_of_lt h]

theorem alignDown_eq {x : Nat} (h : x < 4294967296) : alignDown x = x / 4 * 4 := by
  rw [alignDown, memAlignNum, u32_of_lt h]

namespace Heap.Placed

variable (h : heap.Placed)

include h

theorem start_eq : heap.start = (heap.base + 3) / 4 * 4 := by
  have hroom : (heap.base + 3) / 4 * 4 + 28 ≤ (heap.base + heap.size) / 4 * 4 := h.room
  have hlt := h.end_lt
  exact alignUp_eq (by omega)

theorem stop_eq : heap.stop = (heap.base + heap.size) / 4 * 4 := alignDown_eq h.end_lt

theorem base_le_start : heap.base ≤ heap.start := by
  rw [h.start_eq]
  omega

theorem stop_le : heap.stop ≤ heap.base + heap.size := by
  rw [h.stop_eq]
  omega

theorem start_add_le_stop : heap.start + memHeapMinSize ≤ heap.stop := by
  rw [h.start_eq, h.stop_eq]
  exact h.room

theorem start_ne : heap.start ≠ 0 := by
  have hbase := h.base_ne
  have hle := h.base_le_start
  omega

theorem stop_lt : heap.stop < 4294967296 := h.stop_le.trans_lt h.end_lt

theorem dvd_start : 4 ∣ heap.start := by
  rw [h.start_eq]
  exact Nat.dvd_mul_left 4 _

end Heap.Placed

/-! ### The layout of a heap -/

/-- The memory holds the blocks `bs` in the region of a heap, and they are the pointers in use. -/
structure Inv (m : Memory) (heap : Heap) (live : Nat → Option Nat) (bs : List Block) : Prop where
  placed : heap.Placed
  laid : Laid m heap.start bs 0
  tiles : heap.start + total bs = heap.stop
  freeList : heap.freeList = firstFree heap.start bs 0
  free : heap.free = freeTotal bs
  separated : Separated bs
  live_eq : ∀ ptr, heap.Holds ptr → live ptr = liveAt heap.start bs ptr

namespace Inv

theorem total_le (h : Inv m heap live bs) : total bs ≤ heap.size := by
  have hstart := h.placed.base_le_start
  have hstop := h.placed.stop_le
  have htiles := h.tiles
  omega

theorem length_lt (h : Inv m heap live bs) : bs.length < heap.size + 1 :=
  Nat.lt_succ_of_le (length_le_total.trans h.total_le)

theorem free_lt (h : Inv m heap live bs) : heap.free < 4294967296 := by
  have hfree : freeTotal bs ≤ total bs := freeTotal_le_total
  have hle := h.total_le
  have hlt := h.placed.end_lt
  rw [h.free]
  omega

theorem congr {live' : Nat → Option Nat} (h : Inv m heap live bs)
    (hsame : Same m m' heap.start heap.stop)
    (hlive : ∀ ptr, heap.Holds ptr → live' ptr = live ptr) : Inv m' heap live' bs where
  placed := h.placed
  laid := h.laid.congr (by rwa [h.tiles])
  tiles := h.tiles
  freeList := h.freeList
  free := h.free
  separated := h.separated
  live_eq := fun ptr hptr => (hlive ptr hptr).trans (h.live_eq ptr hptr)

theorem exists_block {ptr n : Nat} (h : Inv m heap live bs) (hptr : heap.Holds ptr)
    (hlive : live ptr = some n) :
    ∃ xs b ys, bs = xs ++ b :: ys ∧ b.used = some n ∧
      ptr = heap.start + total xs + memBlockHeadSize :=
  exists_of_liveAt (h.live_eq ptr hptr ▸ hlive)

theorem holds_block {xs ys : List Block} {b : Block} (h : Inv m heap live (xs ++ b :: ys)) :
    heap.Holds (heap.start + total xs + memBlockHeadSize) := by
  have hle := b.le_size
  have hstart := h.placed.base_le_start
  have hstop := h.placed.stop_le
  have htiles := h.tiles
  have hhead : memBlockHeadSize = 4 := rfl
  rw [total_append_cons] at htiles
  exact ⟨by omega, by omega⟩

theorem write_inside {xs ys : List Block} {b : Block} (h : Inv m heap live (xs ++ b :: ys))
    (hb : b.used ≠ none)
    (hoff : SameOff m m' (heap.start + total xs + memBlockHeadSize)
      (heap.start + total xs + b.size - 1)) :
    Inv m' heap live (xs ++ b :: ys) := by
  have hle := b.le_size
  have hat := h.laid.middle
  have hhead : memBlockHeadSize = 4 := rfl
  refine { h with laid := laid_append.2 ⟨?_, ⟨?_, ?_, fun hfree => absurd hfree hb⟩, ?_⟩ }
  · exact (laid_append.1 h.laid).1.congr (hoff.same (Or.inl (by omega)))
  · rw [← hat.size]
    exact readWord_congr (hoff.same (Or.inl le_rfl)) le_rfl le_rfl
  · rw [← hat.tag]
    exact hoff _ (Or.inr le_rfl)
  · exact (laid_append.1 h.laid).2.2.congr (hoff.same (Or.inr (by omega)))

theorem fresh {xs ys fs : List Block} {f b : Block} (h : Inv m heap live (xs ++ f :: ys))
    (hf : f.used = none) (hsum : total fs + b.size = f.size) :
    live (heap.start + total (xs ++ fs) + memBlockHeadSize) = none := by
  have hle := b.le_size
  have hhead : memBlockHeadSize = 4 := rfl
  have hstart := h.placed.base_le_start
  have hstop := h.placed.stop_le
  have htiles := h.tiles
  rw [total_append_cons] at htiles
  rw [total_append, h.live_eq _ ⟨by omega, by omega⟩]
  exact liveAt_of_free hf (by omega) (by omega)

theorem take {xs ys fs : List Block} {f b : Block} {r : Nat}
    (h : Inv m heap live (xs ++ f :: ys)) (hf : f.used = none) (hfs : ∀ b ∈ fs, b.used = none)
    (hsum : total fs + b.size = f.size) (hb : b.used = some r) (hsep : Separated (xs ++ fs))
    (hlaid : Laid m' heap.start (xs ++ fs ++ b :: ys) 0) :
    Inv m' (Heap.take { heap with freeList := firstFree heap.start (xs ++ fs ++ b :: ys) 0 } b.size)
      (Function.update live (heap.start + total (xs ++ fs) + memBlockHeadSize) (some r))
      (xs ++ fs ++ b :: ys) where
  placed := ⟨h.placed.base_ne, h.placed.room, h.placed.end_lt⟩
  laid := hlaid
  tiles := by
    refine Eq.trans ?_ h.tiles
    simp only [total_append, total_cons, Heap.start, Heap.take]
    omega
  freeList := rfl
  free := by
    have hfree := h.free
    have hlt := h.free_lt
    simp only [freeTotal_append, freeTotal, hf, if_true] at hfree
    have hused : b.used ≠ none := by simp [hb]
    simp only [Heap.take, freeTotal_append, freeTotal, freeTotal_of_allFree hfs, if_neg hused]
    rw [u32Sub_of_le hlt (by omega)]
    omega
  separated := by
    obtain ⟨-, hys, -, -⟩ := (separated_append_free hf).1 h.separated
    exact (separated_append_used (by simp [hb])).2 ⟨hsep, hys⟩
  live_eq := by
    intro ptr hptr
    by_cases heq : ptr = heap.start + total (xs ++ fs) + memBlockHeadSize
    · rw [heq, Function.update_self, ← hb]
      exact (liveAt_middle rfl).symm
    · rw [Function.update_of_ne heq, h.live_eq ptr hptr]
      exact (liveAt_cut hf hfs hsum heq).symm

theorem release {xs ys bs' : List Block} {b : Block} (h : Inv m heap live (xs ++ b :: ys))
    (hb : b.used ≠ none) (hlaid : Laid m' heap.start bs' 0) (hsep : Separated bs')
    (hsame : SameContents heap.start (xs ++ b.released :: ys) bs') :
    Inv m' { heap with
        free := u32 (heap.free + b.size)
        freeList := firstFree heap.start bs' 0 }
      (Function.update live (heap.start + total xs + memBlockHeadSize) none) bs' where
  placed := ⟨h.placed.base_ne, h.placed.room, h.placed.end_lt⟩
  laid := hlaid
  tiles := by
    refine Eq.trans ?_ h.tiles
    rw [hsame.total_eq, total_append_cons, total_append_cons, Block.size_released]
    rfl
  freeList := rfl
  free := by
    have hlt := h.placed.end_lt
    have hle := h.total_le
    have hbytes : freeTotal bs' ≤ total bs' := freeTotal_le_total
    have hfree : heap.free + b.size = freeTotal bs' := by
      rw [h.free, hsame.freeTotal_eq]
      simp only [freeTotal_append, freeTotal, if_neg hb, Block.used_released, if_true,
        Block.size_released]
      omega
    rw [hsame.total_eq, total_append, total_cons, Block.size_released] at hbytes
    rw [total_append, total_cons] at hle
    rw [hfree, u32_of_lt (by omega)]
  separated := hsep
  live_eq := by
    intro ptr hptr
    refine Eq.trans ?_ (hsame.liveAt_eq ptr).symm
    by_cases heq : ptr = heap.start + total xs + memBlockHeadSize
    · rw [heq, Function.update_self, liveAt_middle rfl, Block.used_released]
    · rw [Function.update_of_ne heq, h.live_eq ptr hptr, liveAt_release heq]

theorem resize {xs ys : List Block} {b : Block} {r : Nat} (h : Inv m heap live (xs ++ b :: ys))
    (hb : b.used ≠ none) (hr : memBlockHeadSize + r + 1 ≤ b.size) :
    Inv m heap (Function.update live (heap.start + total xs + memBlockHeadSize) (some r))
      (xs ++ b.inUse r hr :: ys) where
  placed := h.placed
  laid := by
    obtain ⟨hxs, hat, hys⟩ := laid_append.1 h.laid
    refine laid_append.2 ⟨?_, ⟨hat.size, ?_, fun hfree => ?_⟩, hys⟩
    · rw [firstFree, if_neg hb] at hxs
      exact hxs
    · rw [Block.tag_of_used (by simp), ← Block.tag_of_used hb]
      exact hat.tag
    · cases hfree
  tiles := by
    rw [total_append_cons, Block.size_inUse, ← total_append_cons]
    exact h.tiles
  freeList := by
    rw [h.freeList, firstFree_append, firstFree_append, firstFree, if_neg hb]
    rfl
  free := by
    rw [h.free, freeTotal_append, freeTotal_append, freeTotal, if_neg hb]
    rfl
  separated := (separated_append_used (by simp)).2 ((separated_append_used hb).1 h.separated)
  live_eq := by
    intro ptr hptr
    by_cases heq : ptr = heap.start + total xs + memBlockHeadSize
    · rw [heq, Function.update_self, liveAt_middle rfl, Block.used_inUse]
    · rw [Function.update_of_ne heq, h.live_eq ptr hptr]
      simp only [liveAt_append, liveAt, if_neg heq, Block.size_inUse]

end Inv

/-! ### Allocation -/

/-- What `mem_chunk_get` gives for a block of `n` bytes and the `r` bytes of a request: the block
`b` between `xs` and `ys`. -/
structure Taken (m : Memory) (heap : Heap) (live : Nat → Option Nat) (n r : Nat)
    (res : Nat × Memory × Heap) (xs : List Block) (b : Block) (ys : List Block) : Prop where
  addr : res.1 = heap.start + total xs
  used : b.used = some r
  le_size : n ≤ b.size
  sameOff : SameOff m res.2.1 heap.start heap.stop
  base_eq : res.2.2.base = heap.base
  size_eq : res.2.2.size = heap.size
  fresh : live (heap.start + total xs + memBlockHeadSize) = none
  header : ∀ ptr k, heap.Holds ptr → live ptr = some k →
    blockSize res.2.1 (ptr - memBlockHeadSize) = blockSize m (ptr - memBlockHeadSize)
  inv : Inv res.2.1 (res.2.2.take b.size)
    (Function.update live (heap.start + total xs + memBlockHeadSize) (some r)) (xs ++ b :: ys)

section Take

variable {n r : Nat} {xs ys : List Block} {f : Block}

theorem taken_splitBlock (h : Inv m heap live (xs ++ f :: ys)) (hf : f.used = none)
    (hn : 12 ≤ n) (hdvd : 4 ∣ n) (hr : memBlockHeadSize + r + 1 ≤ n)
    (hle : n + memHeapMinSize ≤ f.size) :
    ∃ xs' b, Taken m heap live n r
      ((splitBlock m (heap.start + total xs) n).1, (splitBlock m (heap.start + total xs) n).2, heap)
      xs' b ys := by
  have hmin : memHeapMinSize = 28 := rfl
  have hstop := h.placed.stop_lt
  have htiles := h.tiles
  rw [total_append_cons] at htiles
  let front := Block.free (f.size - n) (by omega) (Nat.dvd_sub f.dvd_size hdvd)
  let new := (Block.free n hn hdvd).inUse r hr
  have hfree : ∀ b ∈ [front], b.used = none := List.forall_mem_singleton.2 rfl
  have hused : new.used = some r := rfl
  obtain ⟨haddr, hoff, hlaid⟩ := h.laid.splitBlock front new hf (by omega) hle rfl rfl rfl
    (by simp [hused])
  have hlist : xs ++ ([front, new] ++ ys) = xs ++ [front] ++ new :: ys := by simp
  rw [hlist] at hlaid
  obtain ⟨hxs, -, hlast, -⟩ := (separated_append_free hf).1 h.separated
  have hsep : Separated (xs ++ [front]) :=
    (separated_append_free rfl).2 ⟨hxs, List.IsChain.nil, hlast, fun b hb => by cases hb⟩
  have hsum : total [front] + new.size = f.size := by
    show f.size - n + 0 + n = f.size
    omega
  have hinv := h.take hf hfree hsum hused hsep hlaid
  -- the free list begins where it did
  have hheap : { heap with freeList := firstFree heap.start (xs ++ [front] ++ new :: ys) 0 } =
      heap := by
    have hfirst : firstFree heap.start (xs ++ [front] ++ new :: ys) 0 =
        firstFree heap.start (xs ++ f :: ys) 0 := by
      simp [firstFree_append, firstFree, hf, front]
    rw [hfirst, ← h.freeList]
  rw [hheap] at hinv
  refine ⟨xs ++ [front], new, ?_, hused, le_rfl, hoff.mono (by omega) (by omega), rfl, rfl,
    h.fresh hf hsum, fun ptr k hptr hlive => ?_, hinv⟩
  · rw [total_append_cons]
    exact haddr
  · exact h.laid.blockSize_cut hlaid hf hsum (h.live_eq ptr hptr ▸ hlive)

theorem taken_unlinkBlock (h : Inv m heap live (xs ++ f :: ys)) (hf : f.used = none)
    (hr : memBlockHeadSize + r + 1 ≤ n) (hle : n ≤ f.size) :
    ∃ b, Taken m heap live n r
      (heap.start + total xs,
        (unlinkBlock m heap (lastFree heap.start xs 0) (heap.start + total xs)).1,
        (unlinkBlock m heap (lastFree heap.start xs 0) (heap.start + total xs)).2) xs b ys := by
  have hstop := h.placed.stop_lt
  have htiles := h.tiles
  let new := f.inUse r (hr.trans hle)
  have hused : new.used = some r := rfl
  obtain ⟨m', heq, hoff, hlaid⟩ := h.laid.unlinkBlock new h.placed.start_ne hf rfl
    (by simp [hused]) (htiles ▸ hstop) h.freeList
  have hlist : xs ++ new :: ys = xs ++ [] ++ new :: ys := by simp
  rw [hlist] at hlaid
  have hsep : Separated (xs ++ []) := by
    rw [List.append_nil]
    exact ((separated_append_free hf).1 h.separated).1
  have hsum : total [] + new.size = f.size := Nat.zero_add _
  have hinv := h.take hf (List.forall_mem_nil _) hsum hused hsep hlaid
  rw [List.append_nil] at hinv
  rw [total_append_cons] at htiles
  rw [heq]
  refine ⟨new, rfl, hused, hle, hoff.mono le_rfl (by omega), rfl, rfl, ?_,
    fun ptr k hptr hlive => ?_, hinv⟩
  · have hfresh := h.fresh hf hsum
    rwa [List.append_nil] at hfresh
  · exact h.laid.blockSize_cut hlaid hf hsum (h.live_eq ptr hptr ▸ hlive)

end Take

theorem memChunkGet_spec {n r : Nat} (h : Inv m heap live bs) (hn : 12 ≤ n) (hdvd : 4 ∣ n)
    (hr : memBlockHeadSize + r + 1 ≤ n) :
    memChunkGet m heap n = some (0, m, heap) ∨
      ∃ res xs b ys, memChunkGet m heap n = some res ∧ Taken m heap live n r res xs b ys := by
  obtain ⟨res, hfind, hres⟩ := findBlock_spec n 0 h.laid h.placed.start_ne h.length_lt
  rw [← h.freeList] at hfind
  rw [memChunkGet, hfind]
  by_cases hzero : res.2 = 0
  · exact Or.inl (if_pos hzero)
  right
  obtain ⟨xs, f, ys, rfl, hf, hle, rfl⟩ := hres.resolve_left hzero
  dsimp only at hzero ⊢
  rw [if_neg hzero, h.laid.middle.size]
  split_ifs with hsplit
  · obtain ⟨xs', b, htaken⟩ := taken_splitBlock h hf hn hdvd hr (by omega)
    exact ⟨_, xs', b, ys, rfl, htaken⟩
  · obtain ⟨b, htaken⟩ := taken_unlinkBlock h hf hr hle
    exact ⟨_, xs, b, ys, rfl, htaken⟩

theorem memChunkGet_eq_zero_iff {n : Nat} (h : Inv m heap live bs) :
    memChunkGet m heap n = some (0, m, heap) ↔ ∀ f ∈ bs, f.used = none → f.size < n := by
  constructor
  · intro heq f hf hfree
    by_contra hle
    obtain ⟨res, hfind, hne⟩ := findBlock_ne_zero 0 h.laid h.placed.start_ne h.length_lt
      ⟨f, hf, hfree, not_lt.1 hle⟩
    rw [← h.freeList] at hfind
    rw [memChunkGet, hfind] at heq
    dsimp only at heq
    rw [if_neg hne] at heq
    have hsplit : res.2 + blockSize
        ((m.writeWord res.2 (blockSize m res.2 - n)).writeByte
          (memDogAddr (m.writeWord res.2 (blockSize m res.2 - n)) res.2) memBlockStatFree)
        res.2 ≠ 0 := by omega
    split_ifs at heq
    · exact hsplit (Prod.mk.inj (Option.some.inj heq)).1
    · exact hne (Prod.mk.inj (Option.some.inj heq)).1
  · intro hall
    obtain ⟨res, hfind, hres⟩ := findBlock_spec n 0 h.laid h.placed.start_ne h.length_lt
    rw [← h.freeList] at hfind
    rw [memChunkGet, hfind]
    refine if_pos (hres.resolve_right ?_)
    rintro ⟨xs, f, ys, rfl, hf, hle, -⟩
    exact absurd (hall f (by simp) hf) (not_lt.2 hle)

theorem memChunkGet_keeps {n : Nat} {res : Nat × Memory × Heap} (h : Inv m heap live bs)
    (hn : 12 ≤ n) (hdvd : 4 ∣ n) (heq : memChunkGet m heap n = some res) (off : Nat) :
    Keeps m res.2.1 heap.start bs off := by
  obtain ⟨r, hfind, hr⟩ := findBlock_spec n 0 h.laid h.placed.start_ne h.length_lt
  rw [← h.freeList] at hfind
  rw [memChunkGet, hfind] at heq
  by_cases hzero : r.2 = 0
  · rw [← Option.some.inj ((if_pos hzero).symm.trans heq)]
    exact fun _ _ _ _ _ _ => Same.refl
  obtain ⟨xs, f, ys, rfl, hf, hle, rfl⟩ := hr.resolve_left hzero
  dsimp only at hzero heq
  rw [if_neg hzero, h.laid.middle.size] at heq
  have hmin : memHeapMinSize = 28 := rfl
  split_ifs at heq with hsplit
  · have hstop := h.placed.stop_lt
    have htiles := h.tiles
    rw [total_append_cons] at htiles
    obtain ⟨-, hoff, -⟩ := h.laid.splitBlock
      (Block.free (f.size - n) (by omega) (Nat.dvd_sub f.dvd_size hdvd))
      ((Block.free n hn hdvd).inUse 0 (by rw [Block.size_free, memBlockHeadSize]; omega)) hf
      (by omega) (by omega) rfl rfl rfl (by simp)
    rw [← Option.some.inj heq]
    exact Keeps.of_sameOff hoff (.inl hf)
  · rw [← Option.some.inj heq]
    exact h.laid.keeps_unlinkBlock hf off

/-- The effect of an operation on the entry `i` of the list: the other heaps, the region of the heap
and the memory outside it stay. -/
structure Operated (s : State) (i : Nat) (live : Nat → Option Nat) (s' : State)
    (bs : List Block) : Prop where
  heapList_eq : ∀ j, j ≠ i → s'.heapList j = s.heapList j
  base_eq : (s'.heapList i).base = (s.heapList i).base
  size_eq : (s'.heapList i).size = (s.heapList i).size
  sameOff : SameOff s.mem s'.mem (s.heapList i).start (s.heapList i).stop
  inv : Inv s'.mem (s'.heapList i) live bs

variable {s : State} {i : Nat}

theorem newSize_of_lt {k : Nat} (h : k < 4294967288) : newSize k = (k + 4) / 4 * 4 + 4 := by
  have hup : alignUp (k + 1) = (k + 4) / 4 * 4 := alignUp_eq (by omega)
  rw [newSize, hup, memBlockHeadSize, u32_of_lt (by omega)]

theorem newSize_le_of_le {k : Nat} (h : 4294967288 ≤ k) (hlt : k < 4294967296) :
    newSize k ≤ 4 := by
  rw [newSize, alignUp, memAlignNum, memBlockHeadSize, u32, u32]
  omega

theorem newSize_of_le {k : Nat} (hlt : k < 4294967296) (h : k ≤ newSize k) :
    newSize k = (k + 4) / 4 * 4 + 4 := by
  refine newSize_of_lt ?_
  by_contra hge
  have hle := newSize_le_of_le (not_lt.1 hge) hlt
  omega

/-- `MEM_Allocate` returns `NULL` and changes nothing, or it returns the pointer of a block for the
bytes of the request. -/
theorem memAllocate_spec {size r : Nat} (h : Inv s.mem (s.heapList i) live bs)
    (hsize : size < 4294967296) (hr : r ≤ max size 4) :
    memAllocate s i size = some (0, s) ∨
      ∃ xs b ys s', memAllocate s i size =
          some ((s.heapList i).start + total xs + memBlockHeadSize, s') ∧
        b.used = some r ∧ newSize (max size 4) ≤ b.size ∧
        live ((s.heapList i).start + total xs + memBlockHeadSize) = none ∧
        (∀ ptr k, (s.heapList i).Holds ptr → live ptr = some k →
          blockSize s'.mem (ptr - memBlockHeadSize) = blockSize s.mem (ptr - memBlockHeadSize)) ∧
        Operated s i (Function.update live
          ((s.heapList i).start + total xs + memBlockHeadSize) (some r)) s' (xs ++ b :: ys) := by
  rw [memAllocate]
  split_ifs with hzero hwrap
  · exact Or.inl rfl
  · exact Or.inl rfl
  have hlt : max size 4 < 4294967288 := by
    by_contra hge
    have hle := newSize_le_of_le (not_lt.1 hge) (max_lt hsize (by decide))
    omega
  have hnew := newSize_of_lt hlt
  have hhead : memBlockHeadSize = 4 := rfl
  have hdvd : 4 ∣ newSize (max size 4) := by
    rw [hnew]
    exact Nat.dvd_add (Nat.dvd_mul_left 4 _) (dvd_refl 4)
  rcases memChunkGet_spec (r := r) h (by omega) hdvd (by omega) with heq | ⟨res, xs, b, ys, heq, ht⟩
  · left
    rw [heq]
    simp [State.setHeap]
  · right
    obtain ⟨block, m', heap'⟩ := res
    have haddr : block = (s.heapList i).start + total xs := ht.addr
    have hstart := h.placed.start_ne
    have hb : blockSize m' block = b.size := by
      rw [haddr]
      have hlaid := ht.inv.laid.middle.size
      rwa [Heap.start, Heap.take, ht.base_eq] at hlaid
    rw [heq]
    dsimp only
    rw [if_neg (by omega), hb, haddr]
    refine ⟨xs, b, ys, _, rfl, ht.used, ht.le_size, ht.fresh, ht.header, ?_⟩
    refine ⟨fun j hj => Function.update_of_ne hj _ _, ?_, ?_, ht.sameOff, ?_⟩
    · simpa [Heap.take] using ht.base_eq
    · simpa [Heap.take] using ht.size_eq
    · simpa using ht.inv

theorem memAllocate_keeps {size ptr : Nat} {s' : State} (h : Inv s.mem (s.heapList i) live bs)
    (hsize : size < 4294967296) (heq : memAllocate s i size = some (ptr, s')) (off : Nat) :
    Keeps s.mem s'.mem (s.heapList i).start bs off := by
  rw [memAllocate] at heq
  split_ifs at heq with hzero hwrap
  · rw [← (Prod.mk.inj (Option.some.inj heq)).2]
    exact fun _ _ _ _ _ _ => Same.refl
  · rw [← (Prod.mk.inj (Option.some.inj heq)).2]
    exact fun _ _ _ _ _ _ => Same.refl
  have hnew := newSize_of_le (max_lt hsize (by decide)) (not_lt.1 hwrap)
  have hdvd : 4 ∣ newSize (max size 4) := by
    rw [hnew]
    exact Nat.dvd_add (Nat.dvd_mul_left 4 _) (dvd_refl 4)
  cases hchunk : memChunkGet s.mem (s.heapList i) (newSize (max size 4)) with
  | none =>
    rw [hchunk] at heq
    cases heq
  | some res =>
    have hkeeps := memChunkGet_keeps h (by omega) hdvd hchunk off
    rw [hchunk] at heq
    dsimp only at heq
    split_ifs at heq
    · rwa [← (Prod.mk.inj (Option.some.inj heq)).2]
    · rwa [← (Prod.mk.inj (Option.some.inj heq)).2]

theorem memAllocate_eq_zero_iff {size : Nat} (h : Inv s.mem (s.heapList i) live bs)
    (hsize : size < 4294967288) :
    memAllocate s i size = some (0, s) ↔
      size = 0 ∨ ∀ f ∈ bs, f.used = none → f.size < newSize (max size 4) := by
  have hnew := newSize_of_lt (max_lt hsize (by decide) : max size 4 < 4294967288)
  rw [← memChunkGet_eq_zero_iff h, memAllocate]
  split_ifs with hzero hwrap
  · exact iff_of_true rfl (.inl hzero)
  · omega
  rw [or_iff_right hzero]
  have hdvd : 4 ∣ newSize (max size 4) := by
    rw [hnew]
    exact Nat.dvd_add (Nat.dvd_mul_left 4 _) (dvd_refl 4)
  rcases memChunkGet_spec (r := 0) h (by omega) hdvd (by rw [memBlockHeadSize]; omega) with
    heq | ⟨res, xs, b, ys, heq, htaken⟩
  · rw [heq]
    simp [State.setHeap]
  · have hne : res.1 ≠ 0 := by
      have hstart := h.placed.start_ne
      rw [htaken.addr]
      omega
    rw [heq]
    refine iff_of_false (fun hnull => ?_) fun hnull =>
      hne (congrArg Prod.fst (Option.some.inj hnull))
    dsimp only at hnull
    rw [if_neg hne] at hnull
    have hptr := (Prod.mk.inj (Option.some.inj hnull)).1
    rw [memBlockHeadSize] at hptr
    omega

/-! ### Release -/

theorem Inv.freePosition_eq {xs ys : List Block} {b : Block}
    (h : Inv m heap live (xs ++ b :: ys)) (hb : b.used ≠ none) :
    freePosition (m.writeByte (heap.start + total xs + b.size - 1) memBlockStatFree)
        (heap.start + total xs) (heap.size + 1) 0 heap.freeList =
      some (lastFree heap.start xs 0, firstFree (heap.start + total xs + b.size) ys 0) := by
  have hle := b.le_size
  have hfree : heap.freeList =
      firstFree heap.start xs (firstFree (heap.start + total xs + b.size) ys 0) := by
    refine h.freeList.trans ?_
    rw [firstFree_append, firstFree, if_neg hb]
  have hbounds : _ ∨ _ := @firstFree_bounds (heap.start + total xs + b.size) ys
  have hlength := h.length_lt
  rw [List.length_append] at hlength
  have hlaid := (laid_append.1 h.laid).1
  rw [firstFree, if_neg hb] at hlaid
  rw [hfree]
  exact freePosition_spec (hlaid.congr (Same.writeByte (by omega))) h.placed.start_ne rfl
    (by omega) (Nat.lt_of_le_of_lt (Nat.le_add_right _ _) hlength)

theorem memDeallocate_spec {xs ys : List Block} {b : Block} {ptr : Nat}
    (h : Inv s.mem (s.heapList i) live (xs ++ b :: ys)) (hb : b.used ≠ none)
    (hptr : ptr = (s.heapList i).start + total xs + memBlockHeadSize) :
    ∃ s' bs', memDeallocate s i ptr = some s' ∧
      Operated s i (Function.update live ptr none) s' bs' := by
  have hat := h.laid.middle
  have hle := b.le_size
  have hstart := h.placed.start_ne
  have hstop := h.placed.stop_lt
  have htiles := h.tiles
  have hblock : ptr - memBlockHeadSize = (s.heapList i).start + total xs := by omega
  obtain ⟨hxs, hys⟩ := (separated_append_used hb).1 h.separated
  set heap := { s.heapList i with free := u32 ((s.heapList i).free + b.size) } with hheap
  set m₀ := s.mem.writeByte ((s.heapList i).start + total xs + b.size - 1) memBlockStatFree with hm₀
  set next := firstFree ((s.heapList i).start + total xs + b.size) ys 0 with hnext
  have hpos : freePosition m₀ ((s.heapList i).start + total xs) (heap.size + 1) 0 heap.freeList =
      some (lastFree (s.heapList i).start xs 0, next) := h.freePosition_eq hb
  obtain ⟨xs₁, g, hlinked⟩ := h.laid.linkBlock heap hstart hb hxs (htiles ▸ hstop) h.freeList hm₀
  set r := linkBlock m₀ heap (lastFree (s.heapList i).start xs 0) next
    ((s.heapList i).start + total xs) with hr
  have htotal := hlinked.contents.total_eq
  rw [total_append, total_cons, total_append, total_cons, Block.size_released] at htotal
  rw [total_append_cons] at htiles
  have hnext₁ : next = firstFree ((s.heapList i).start + total xs₁ + g.size) ys 0 := by
    rw [hnext, show (s.heapList i).start + total xs₁ + g.size =
      (s.heapList i).start + total xs + b.size by omega]
  obtain ⟨bs', hlaid, hoff, hsep, hfirst, hcontents⟩ := hlinked.laid.mergeNext hlinked.free
    (by rw [total_append_cons]; omega) hlinked.separated hlinked.lastUsed hys
  rw [← hnext₁, ← hlinked.addr] at hlaid hoff
  have hinv := h.release hb hlaid hsep (hlinked.contents.trans hcontents)
  have hself : Function.update s.heapList i r.2.2 i = { s.heapList i with
      free := u32 ((s.heapList i).free + b.size)
      freeList := firstFree (s.heapList i).start bs' 0 } := by
    rw [Function.update_self, hlinked.heap_eq, hfirst, hheap]
  refine ⟨{ mem := mergeNext r.2.1 r.1 next
            heapList := Function.update s.heapList i r.2.2
            heapFreeSize := u32 (s.heapFreeSize + b.size)
            heapFreeSizeWatermark := s.heapFreeSizeWatermark }, bs', ?_, ?_⟩
  · rw [memDeallocate, if_neg (by omega)]
    dsimp only
    rw [hblock, memDogAddr_eq hat, hat.tag, Block.tag_of_used hb, if_neg (fun hne => hne rfl),
      hat.size, ← hm₀, ← hheap, hpos]
  · refine ⟨fun j hj => Function.update_of_ne hj _ _, ?_, ?_, ?_, ?_⟩
    · dsimp only
      rw [hself]
    · dsimp only
      rw [hself]
    · exact (hlinked.sameOff.mono le_rfl (by omega)).trans
        (hoff.mono le_rfl (by rw [total_append_cons]; omega))
    · dsimp only
      rw [hself, hptr]
      exact hinv

theorem memDeallocate_keeps {xs ys : List Block} {b : Block} {ptr : Nat} {s' : State}
    (h : Inv s.mem (s.heapList i) live (xs ++ b :: ys)) (hb : b.used ≠ none)
    (hptr : ptr = (s.heapList i).start + total xs + memBlockHeadSize)
    (heq : memDeallocate s i ptr = some s') :
    Keeps s.mem s'.mem (s.heapList i).start (xs ++ b :: ys)
      ((s.heapList i).start + total xs) := by
  have hat := h.laid.middle
  have hle := b.le_size
  have hstart := h.placed.start_ne
  have hblock : ptr - memBlockHeadSize = (s.heapList i).start + total xs := by omega
  rw [memDeallocate, if_neg (by omega)] at heq
  dsimp only at heq
  rw [hblock, memDogAddr_eq hat, hat.tag, Block.tag_of_used hb, if_neg (fun hne => hne rfl),
    hat.size, h.freePosition_eq hb] at heq
  rw [← Option.some.inj heq]
  set m₀ := s.mem.writeByte ((s.heapList i).start + total xs + b.size - 1) memBlockStatFree
  set heap := { s.heapList i with free := u32 ((s.heapList i).free + b.size) }
  set next := firstFree ((s.heapList i).start + total xs + b.size) ys 0
  have htag : Keeps s.mem m₀ (s.heapList i).start (xs ++ b :: ys)
      ((s.heapList i).start + total xs) :=
    Keeps.of_sameOff (SameOff.writeByte (by omega) (by omega)) (.inr rfl)
  obtain ⟨hlink, haddr⟩ : Keeps m₀ (linkBlock m₀ heap (lastFree (s.heapList i).start xs 0) next
      ((s.heapList i).start + total xs)).2.1 (s.heapList i).start (xs ++ b :: ys)
      ((s.heapList i).start + total xs) ∧ _ := keeps_linkBlock m₀ heap next
  exact (htag.trans hlink).trans (keeps_mergeNext next haddr)

theorem Operated.base_eq_all {s' : State} (h : Operated s i live s' bs) (j : Nat) :
    (s'.heapList j).base = (s.heapList j).base := by
  by_cases hj : j = i
  · rw [hj, h.base_eq]
  · rw [h.heapList_eq j hj]

theorem Operated.size_eq_all {s' : State} (h : Operated s i live s' bs) (j : Nat) :
    (s'.heapList j).size = (s.heapList j).size := by
  by_cases hj : j = i
  · rw [hj, h.size_eq]
  · rw [h.heapList_eq j hj]

/-! ### Creation -/

theorem Heap.Placed.blockLen_eq (h : heap.Placed) :
    alignDown (u32Sub heap.size (u32Sub (alignUp heap.base) heap.base)) =
      heap.stop - heap.start := by
  have hroom : (heap.base + 3) / 4 * 4 + 28 ≤ (heap.base + heap.size) / 4 * 4 := h.room
  have hlt := h.end_lt
  have hstart : alignUp heap.base = (heap.base + 3) / 4 * 4 := h.start_eq
  have hpad : u32Sub ((heap.base + 3) / 4 * 4) heap.base = (heap.base + 3) / 4 * 4 - heap.base :=
    u32Sub_of_le (by omega) (by omega)
  rw [hstart, hpad, u32Sub_of_le (by omega) (by omega), alignDown_eq (by omega), h.stop_eq,
    h.start_eq]
  omega

theorem inv_init (h : heap.Placed) (hlive : ∀ ptr, heap.Holds ptr → live ptr = none)
    (hlist : heap.freeList = heap.start) (hfree : heap.free = heap.stop - heap.start) :
    ∃ b, SameOff m
        (((m.writeWord (heap.start + memBlockHeadSize) 0).writeWord heap.start
          (heap.stop - heap.start)).writeByte (heap.stop - 1) memBlockStatFree)
        heap.start heap.stop ∧
      Inv (((m.writeWord (heap.start + memBlockHeadSize) 0).writeWord heap.start
          (heap.stop - heap.start)).writeByte (heap.stop - 1) memBlockStatFree) heap live [b] := by
  have hmin : heap.start + 28 ≤ heap.stop := h.start_add_le_stop
  have hstop := h.stop_lt
  have hhead : memBlockHeadSize = 4 := rfl
  have hdvd : 4 ∣ heap.stop - heap.start := by
    refine Nat.dvd_sub ?_ h.dvd_start
    rw [h.stop_eq]
    exact Nat.dvd_mul_left 4 _
  let b := Block.free (heap.stop - heap.start) (by omega) hdvd
  have hb : b.used = none := rfl
  have hsize : b.size = heap.stop - heap.start := rfl
  set m₁ := m.writeWord (heap.start + memBlockHeadSize) 0 with hm₁
  set m₂ := m₁.writeWord heap.start (heap.stop - heap.start) with hm₂
  refine ⟨b, ?_, ?_⟩
  · have h₁ : SameOff m m₁ heap.start heap.stop := SameOff.writeWord (by omega) (by omega)
    have h₂ : SameOff m₁ m₂ heap.start heap.stop := SameOff.writeWord le_rfl (by omega)
    exact (h₁.trans h₂).trans (SameOff.writeByte (by omega) (by omega))
  · refine ⟨h, laid_singleton.2 ⟨?_, ?_, fun _ => ?_⟩, ?_, ?_, ?_, List.isChain_singleton _, ?_⟩
    · refine (readWord_writeByte_of_disjoint (by omega)).trans ?_
      exact readWord_writeWord (by omega)
    · rw [hsize, show heap.start + (heap.stop - heap.start) - 1 = heap.stop - 1 by omega,
        Block.tag_of_free hb]
      exact writeByte_apply _
    · refine (readWord_writeByte_of_disjoint (by omega)).trans ?_
      refine (readWord_writeWord_of_disjoint (by omega)).trans ?_
      exact readWord_writeWord (by decide)
    · rw [total_cons, total_nil, hsize]
      omega
    · rw [hlist, firstFree, if_pos hb]
    · rw [hfree, freeTotal, if_pos hb]
      rfl
    · intro ptr hptr
      rw [hlive ptr hptr, liveAt, hb]
      exact (ite_self _).symm

theorem memHeapInit_eq {ptr size : Nat}
    (h : Heap.Placed { s.heapList i with base := ptr, size := size }) :
    ∃ m' heap', memHeapInit s i ptr size = (true,
        { mem := m'
          heapList := Function.update s.heapList i heap'
          heapFreeSize := u32 (s.heapFreeSize + heap'.free)
          heapFreeSizeWatermark := u32 (s.heapFreeSize + heap'.free) }) ∧
      heap'.base = ptr ∧ heap'.size = size ∧ SameOff s.mem m' heap'.start heap'.stop ∧
      ∀ live : Nat → Option Nat, (∀ p, heap'.Holds p → live p = none) →
        ∃ b, Inv m' heap' live [b] := by
  set heap := { s.heapList i with base := ptr, size := size } with hheap
  have hmin : heap.start + 28 ≤ heap.stop := h.start_add_le_stop
  have hstop := h.stop_lt
  have hlen : alignDown (u32Sub size (u32Sub (alignUp ptr) ptr)) = heap.stop - heap.start :=
    h.blockLen_eq
  have hstart : alignUp ptr = heap.start := rfl
  let heap' := { heap with
    freeList := heap.start
    free := heap.stop - heap.start
    freeWatermark := heap.stop - heap.start }
  have hplaced : heap'.Placed := ⟨h.base_ne, h.room, h.end_lt⟩
  set m₂ := (s.mem.writeWord (heap.start + memBlockHeadSize) 0).writeWord heap.start
    (heap.stop - heap.start) with hm₂
  have hdog : memDogAddr m₂ heap.start = heap.stop - 1 := by
    have hsize : blockSize m₂ heap.start = heap.stop - heap.start :=
      readWord_writeWord (by omega)
    rw [memDogAddr, hsize]
    omega
  have hnone : ∀ p, heap'.Holds p → (fun _ => none : Nat → Option Nat) p = none := fun _ _ => rfl
  have hlarge : ¬heap.stop - heap.start < memHeapMinSize := by
    rw [memHeapMinSize, memBlockMinSize, memBlockHeadSize]
    omega
  refine ⟨m₂.writeByte (heap.stop - 1) memBlockStatFree, heap', ?_, rfl, rfl, ?_,
    fun live hlive => ?_⟩
  · rw [memHeapInit, hlen, if_neg hlarge]
    dsimp only
    rw [hstart, ← hm₂, hdog]
  · exact (inv_init hplaced hnone rfl rfl).choose_spec.1
  · obtain ⟨b, -, hinv⟩ := inv_init (m := s.mem) hplaced hlive rfl rfl
    exact ⟨b, hinv⟩

end TuyaOpen.MemHeap
