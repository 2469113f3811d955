import TuyaOpen.Utilities.WordHeapLayout

/-!
# Calls on a heap on words of either size

A heap holds the list of its blocks from one call to the next. An allocation and a write by a user
keep the tags of the free blocks. A block that is given back may lose its tag: this is so when it
has two words and the block right behind it is not free.
-/

namespace TuyaOpen.WordHeap

open Memory
open MemHeap (Heap memBlockMinSize fitFindDepth memBlockStatUse memBlockStatFree)

variable {c : Build}

/-! ### Regions -/

def start (c : Build) (base : Nat) : Nat := alignUp c base

def stop (c : Build) (base size : Nat) : Nat := alignDown c (base + size)

/-- A region is an object of the address space, and it does not begin behind the last aligned
address. On words of eight bytes the most significant byte of its addresses is not the tag of a free
block. -/
structure InSpace (c : Build) (base size : Nat) : Prop where
  base_ne : base ≠ 0
  end_lt : base + size < wordLimit c
  up_le : base + memAlignNum c ≤ wordLimit c
  top_ne : c = .words8 → ∀ x, base ≤ x → x < base + size →
    UInt8.ofNat (x / 256 ^ 7) ≠ memBlockStatFree

/-- The region of a heap reaches to an aligned address. -/
structure Placed (c : Build) (base size : Nat) : Prop extends InSpace c base size where
  le_size : memAlignNum c ≤ size

variable {base size : Nat}

theorem Placed.bounds (h : Placed c base size) :
    base ≤ start c base ∧ stop c base size ≤ base + size ∧ start c base ≤ stop c base size ∧
      stop c base size < wordLimit c ∧ start c base ≠ 0 := by
  obtain ⟨⟨hbase, hend, -, -⟩, hsize⟩ := h
  cases c
  all_goals
    simp only [start, stop, alignUp, alignDown, wrap, memAlignNum, wordLimit] at *
    omega

theorem Placed.blockLen_eq (h : Placed c base size) :
    alignDown c (wrapSub c size (wrapSub c (start c base) base)) =
      stop c base size - start c base := by
  obtain ⟨⟨hbase, hend, -, -⟩, hsize⟩ := h
  cases c
  all_goals
    simp only [start, stop, alignUp, alignDown, wrap, wrapSub, memAlignNum, wordLimit] at *
    omega

variable {m m' : Memory} {heap heap' : Heap} {live : List (Nat × Nat)}
  {bs xs ys : List (Block c)} {b f : Block c}

/-- The memory holds a list of blocks in the region of a heap, and its blocks in use are the
pointers in use. -/
structure Held (m : Memory) (heap : Heap) (live : List (Nat × Nat)) (bs : List (Block c)) :
    Prop where
  placed : Placed c heap.base heap.size
  laid : Laid m (start c heap.base) bs 0
  tiles : start c heap.base + total bs = stop c heap.base heap.size
  freeList : heap.freeList = firstFree (start c heap.base) bs 0
  live : live.Perm (liveList (start c heap.base) bs)

namespace Held

theorem total_le (h : Held m heap live bs) : total bs ≤ heap.size := by
  have hbounds := h.placed.bounds
  have htiles := h.tiles
  omega

theorem length_lt (h : Held m heap live bs) : bs.length < heap.size + 1 :=
  Nat.lt_succ_of_le (length_le_total.trans h.total_le)

theorem replace {bs' : List (Block c)} {live' : List (Nat × Nat)} (h : Held m heap live bs)
    (hbase : heap'.base = heap.base) (hsize : heap'.size = heap.size)
    (hlaid : Laid m' (start c heap.base) bs' 0) (htotal : total bs' = total bs)
    (hlist : heap'.freeList = firstFree (start c heap.base) bs' 0)
    (hlive : live'.Perm (liveList (start c heap.base) bs')) : Held m' heap' live' bs' := by
  obtain ⟨hplaced, -, htiles, -, -⟩ := h
  rw [← hbase] at hplaced hlaid htiles hlist hlive
  rw [← hsize] at hplaced htiles
  rw [← htotal] at htiles
  exact ⟨hplaced, hlaid, htiles, hlist, hlive⟩

theorem exists_block {p : Nat × Nat} (h : Held m heap live bs) (hp : p ∈ live) :
    ∃ xs b ys, bs = xs ++ b :: ys ∧ b.used = some p.2 ∧
      p.1 = start c heap.base + total xs + memBlockHeadSize c :=
  exists_of_mem_liveList (h.live.mem_iff.mp hp)

/-! ### Writes -/

theorem write {addr : Nat} {v : UInt8} (h : Held m heap live bs)
    (haddr : (∃ p ∈ live, p.1 ≤ addr ∧ addr < p.1 + p.2) ∨ addr < heap.base ∨
      heap.base + heap.size ≤ addr) :
    Held (m.writeByte addr v) heap live bs := by
  have hbounds := h.placed.bounds
  have htiles := h.tiles
  refine ⟨h.placed, ?_, h.tiles, h.freeList, h.live⟩
  rcases haddr with ⟨p, hp, hle, hlt⟩ | hout
  · obtain ⟨xs, b, ys, rfl, hb, hptr⟩ := h.exists_block hp
    obtain ⟨hxs, hat, hys⟩ := laid_append_cons.mp h.laid
    have hused := b.used_le p.2 hb
    have hsize := b.two_words_le
    have hsizes := sizes c
    refine laid_append_cons.mpr ⟨hxs.congr (Same.writeByte (by omega)), ⟨?_, ?_, fun hfree => ?_⟩,
      hys.congr (Same.writeByte (by omega))⟩
    · exact (readLe_writeByte_of_disjoint (by omega)).trans hat.size
    · exact (writeByte_apply_of_ne (by omega)).trans hat.tag
    · rw [hfree] at hb
      cases hb
  · exact h.laid.congr (Same.writeByte (by omega))

/-! ### Allocation -/

variable {n size : Nat}

theorem splitBlock (h : Held m heap live (xs ++ f :: ys)) (hgood : Good (xs ++ f :: ys))
    (hf : f.used = none) (hroom : memHeapMinSize c ≤ f.size - n) (hn : minBlock c ≤ n)
    (hsize : memBlockHeadSize c + size + 1 ≤ n) :
    ∃ block m' bs', splitBlock c m (start c heap.base + total xs) n = (block, m') ∧ block ≠ 0 ∧
      Held (c := c) m' heap ((block + memBlockHeadSize c, size) :: live) bs' ∧ Good bs' := by
  obtain ⟨-, -, hle, hlt, hstart⟩ := h.placed.bounds
  have htiles := h.tiles
  have hsizes := sizes c
  have hmin : minBlock c ≤ memHeapMinSize c := by cases c <;> decide
  rw [total_append, total_cons] at htiles
  let front : Block c := Block.free (f.size - n) memBlockStatFree (hmin.trans hroom)
  let new : Block c := Block.inUse n size hn hsize
  have hsum : front.size + new.size = f.size := Nat.sub_add_cancel (by omega)
  have hfront : front.Good := fun _ => ⟨rfl, by change _ < f.size - n; omega⟩
  have hused : new.used ≠ none := Option.some_ne_none size
  obtain ⟨hblock, hoff, hpair⟩ := h.laid.middle.splitBlock hf (by omega) hsum rfl hfront hused
  have hnew : new.size = n := rfl
  rw [hnew] at hblock hoff hpair
  have hlaid : Laid (WordHeap.splitBlock c m (start c heap.base + total xs) n).2
      (start c heap.base) (xs ++ ([front, new] ++ ys)) 0 := by
    have hmid : Laid m (start c heap.base) (xs ++ ([f] ++ ys)) 0 := h.laid
    refine hmid.replace hoff ?_ ?_ hpair
    · rw [total_cons, total_cons, total_cons, total_nil, Nat.add_zero, Nat.add_zero, hsum]
    · exact (firstFree_cons_free rfl).trans (firstFree_cons_free hf).symm
  have hys : start c heap.base + total xs + front.size + new.size =
      start c heap.base + total xs + f.size := by rw [Nat.add_assoc _ front.size, hsum]
  rw [good_append, good_cons] at hgood
  refine ⟨_, _, xs ++ ([front, new] ++ ys), Prod.mk.eta.symm, ?_, ⟨h.placed, hlaid, ?_, ?_, ?_⟩, ?_⟩
  · rw [hblock]
    omega
  · rw [total_append, List.cons_append, List.cons_append, List.nil_append, total_cons, total_cons]
    omega
  · rw [h.freeList, firstFree_append, firstFree_append, firstFree_cons_free hf]
    exact congrArg _ (firstFree_cons_free rfl).symm
  · have hlive := h.live.cons (start c heap.base + total xs + front.size + memBlockHeadSize c, size)
    rw [liveList_append, liveList_cons_free hf] at hlive
    rw [hblock, liveList_append, List.cons_append, liveList_cons_free rfl, List.cons_append,
      liveList_cons_used rfl, List.nil_append, hys]
    exact hlive.trans List.perm_middle.symm
  · exact good_append.mpr ⟨hgood.1, good_cons.mpr ⟨hfront, good_cons.mpr
      ⟨Block.good_of_used hused, hgood.2.2⟩⟩⟩

theorem unlinkBlock (h : Held m heap live (xs ++ f :: ys)) (hgood : Good (xs ++ f :: ys))
    (hf : f.used = none) (hsize : memBlockHeadSize c + size + 1 ≤ f.size) :
    ∃ m' heap' bs', unlinkBlock c m heap (lastFree (start c heap.base) xs 0)
        (start c heap.base + total xs) = (m', heap') ∧
      Held (c := c) m' heap'
        ((start c heap.base + total xs + memBlockHeadSize c, size) :: live) bs' ∧ Good bs' := by
  obtain ⟨-, -, hle, hlt, hstart⟩ := h.placed.bounds
  have htiles := h.tiles
  rw [total_append, total_cons] at htiles
  rw [good_append, good_cons] at hgood
  let new : Block c := Block.inUse f.size size f.le_size hsize
  have hused : new.used ≠ none := Option.some_ne_none size
  have hfirst := firstFree_bounds (start c heap.base + total xs + f.size) 0 ys
  obtain ⟨m', heq, hlaid⟩ := h.laid.unlinkBlock hstart hgood.1 hf
    (show new.size = f.size from rfl) hused h.freeList (by omega)
  refine ⟨m', _, xs ++ new :: ys, heq, ⟨h.placed, hlaid, ?_, rfl, ?_⟩,
    good_append.mpr ⟨hgood.1, good_cons.mpr ⟨Block.good_of_used hused, hgood.2.2⟩⟩⟩
  · rw [total_append, total_cons]
    exact htiles
  · have hlive := h.live.cons (start c heap.base + total xs + memBlockHeadSize c, size)
    rw [liveList_append, liveList_cons_free hf] at hlive
    rw [liveList_append, liveList_cons_used rfl]
    exact hlive.trans List.perm_middle.symm

theorem memChunkGet (h : Held m heap live bs) (hgood : Good bs) (hn : minBlock c ≤ n)
    (hsize : memBlockHeadSize c + size + 1 ≤ n) :
    ∃ block m' heap' bs', memChunkGet c m heap n = some (block, m', heap') ∧
      Held (c := c) m' heap'
        (if block = 0 then live else (block + memBlockHeadSize c, size) :: live) bs' ∧
      Good bs' := by
  have hstart := h.placed.bounds.2.2.2.2
  obtain ⟨r, hr, hcases⟩ := findBlock_spec n 0 h.laid hstart h.length_lt
  rw [← h.freeList] at hr
  rw [WordHeap.memChunkGet, hr]
  dsimp only
  rcases hcases with hnone | ⟨xs, f, ys, rfl, hf, hle, rfl⟩
  · rw [if_pos hnone]
    exact ⟨0, m, heap, bs, rfl, by rwa [if_pos rfl], hgood⟩
  · have hblock : start c heap.base + total xs ≠ 0 := by omega
    dsimp only
    rw [if_neg hblock, h.laid.middle.size]
    split_ifs with hroom
    · obtain ⟨block, m', bs', heq, hne, hheld, hgood'⟩ := h.splitBlock hgood hf hroom hn hsize
      rw [heq]
      exact ⟨block, m', heap, bs', rfl, by rwa [if_neg hne], hgood'⟩
    · obtain ⟨m', heap', bs', heq, hheld, hgood'⟩ := h.unlinkBlock hgood hf (hsize.trans hle)
      rw [heq]
      exact ⟨_, m', heap', bs', rfl, by rwa [if_neg hblock], hgood'⟩

end Held

theorem newSize_cases {n : Nat} (hn : 4 ≤ n) (hlt : n < wordLimit c) :
    newSize c n < n ∨ minBlock c ≤ newSize c n ∧ memBlockHeadSize c + n + 1 ≤ newSize c n := by
  cases c
  all_goals
    simp only [newSize, alignUp, wrap, memAlignNum, memBlockHeadSize, wordSize, wordLimit,
      minBlock] at *
    omega

theorem Held.allocate {s : State} {size : Nat} (h : Held s.mem s.heap live bs) (hgood : Good bs)
    (hsize : size < wordLimit c) :
    ∃ ptr s' bs', memAllocate c s size = some (ptr, s') ∧
      Held (c := c) s'.mem s'.heap (if ptr = 0 then live else (ptr, size) :: live) bs' ∧
      Good bs' := by
  have hsizes := sizes c
  have hnull : ∃ ptr s' bs', some (0, s) = some (ptr, s') ∧
      Held (c := c) s'.mem s'.heap (if ptr = 0 then live else (ptr, size) :: live) bs' ∧
      Good bs' := ⟨0, s, bs, rfl, by rwa [if_pos rfl], hgood⟩
  rw [memAllocate]
  split_ifs with hzero hwrap
  · exact hnull
  · exact hnull
  have hfour : max size 4 < wordLimit c := max_lt hsize (by cases c <;> decide)
  obtain ⟨hmin, hnew⟩ := (newSize_cases (le_max_right size 4) hfour).resolve_left hwrap
  have hfit : memBlockHeadSize c + size + 1 ≤ newSize c (max size 4) := by omega
  obtain ⟨block, m', heap', bs', heq, hheld, hgood'⟩ := h.memChunkGet hgood hmin hfit
  rw [heq]
  dsimp only
  split_ifs at hheld ⊢ with hblock
  · exact ⟨0, _, bs', rfl, by rwa [if_pos rfl], hgood'⟩
  · refine ⟨_, _, bs', rfl, ?_, hgood'⟩
    rw [if_neg (by omega)]
    exact hheld.replace rfl rfl hheld.laid rfl hheld.freeList hheld.live

/-! ### Release -/

theorem perm_filter_liveList {a size : Nat} (h : live.Perm (liveList a (xs ++ b :: ys)))
    (hb : b.used = some size) :
    (live.filter fun p => p.1 ≠ a + total xs + memBlockHeadSize c).Perm
      (liveList a xs ++ liveList (a + total xs + b.size) ys) := by
  have hsizes := sizes c
  have hsize := b.two_words_le
  rw [liveList_append, liveList_cons_used hb] at h
  refine (h.filter _).trans (List.Perm.of_eq ?_)
  rw [List.filter_append, List.filter_cons_of_neg (by simp)]
  congr 1
  all_goals
    refine List.filter_eq_self.mpr fun p hp => decide_eq_true ?_
    have hbounds := bounds_of_mem_liveList hp
    omega

/-- The block keeps its tag when it is given back: there is room behind its link, or the block right
behind it is free and lends its tag. -/
def Keeps (b : Block c) (ys : List (Block c)) : Prop :=
  b.size = 2 * wordSize c → ∃ d ∈ ys.head?, d.used = none

theorem Placed.tag_released_ne {next : Nat} (h : Placed c base size)
    (hsize : b.size = 2 * wordSize c) (hnext : next = 0 ∨ base ≤ next ∧ next < base + size) :
    (b.released next).tag ≠ memBlockStatFree := by
  have hle := b.le_size
  cases c with
  | words4 => exact absurd hle (by rw [hsize]; decide)
  | words8 =>
    rw [Block.released, Block.free, if_neg hsize.le.not_gt]
    rcases hnext with rfl | ⟨hbase, hlt⟩
    · change UInt8.ofNat (0 / 256 ^ 7) ≠ memBlockStatFree
      decide
    · exact h.top_ne rfl next hbase hlt

section Release

variable {s : State} {size block next : Nat}

theorem Held.exists_linked (h : Held s.mem s.heap live (xs ++ b :: ys))
    (hgood : Good xs) (hb : b.used = some size) (hblock : start c s.heap.base + total xs = block)
    (hnext : firstFree (block + b.size) ys 0 = next) :
    ∃ r k heap', memDeallocate c s (block + memBlockHeadSize c) =
        some ⟨mergeNext c r.2.1 r.1 next, r.2.2, k, s.heapFreeSizeWatermark⟩ ∧
      Linked (start c s.heap.base) xs (b.released next) ys 0 heap' r ∧
      heap'.base = s.heap.base ∧ heap'.size = s.heap.size := by
  obtain ⟨hbase, hstop, -, hlt, hstart⟩ := h.placed.bounds
  have htiles := h.tiles
  have hbsize := b.two_words_le
  have hsizes := sizes c
  have hused : b.used ≠ none := by
    rw [hb]
    exact Option.some_ne_none size
  have hlength := h.length_lt
  have hat := h.laid.middle
  rw [total_append, total_cons] at htiles
  rw [List.length_append, List.length_cons] at hlength
  have hbounds := firstFree_bounds (block + b.size) 0 ys
  rw [hnext] at hbounds
  rw [hblock] at hat
  obtain ⟨hxs₀, hxs, hrel, hys⟩ := h.laid.release hused hblock hnext (by omega) rfl
  have hlist : s.heap.freeList = firstFree (start c s.heap.base) xs next := by
    rw [h.freeList, firstFree_append, firstFree_cons_used hused, hblock, hnext]
  have hfuel : xs.length < s.heap.size + 1 := by omega
  have hposition := freePosition_spec 0 hxs₀ hstart hblock (by omega) hfuel
  rw [← hlist] at hposition
  let heap' : Heap := { s.heap with free := wrap c (s.heap.free + b.size) }
  have hlinked := hxs.linkBlock hrel hys hstart hgood rfl hblock hnext
    (by rw [Block.size_released]; omega) (show heap'.freeList = _ from hlist)
  refine ⟨_, wrap c (s.heapFreeSize + b.size), heap', ?_, hlinked, rfl, rfl⟩
  rw [memDeallocate, if_neg (by omega)]
  dsimp only
  rw [Nat.add_sub_cancel, memDogAddr_eq hat, hat.tag, b.tag_used hused, if_neg (by simp), hat.size,
    hposition]

/-- **A block is given back.** The free block that then holds it has its tag exactly if the block
keeps its tag. -/
theorem Held.deallocate (h : Held s.mem s.heap live (xs ++ b :: ys))
    (hgood : Good (xs ++ b :: ys)) (hb : b.used = some size)
    (hblock : start c s.heap.base + total xs = block) :
    ∃ s' ws g zs, memDeallocate c s (block + memBlockHeadSize c) = some s' ∧
      Held s'.mem s'.heap (live.filter fun p => p.1 ≠ block + memBlockHeadSize c)
        (ws ++ g :: zs : List (Block c)) ∧
      Good ws ∧ Good zs ∧ g.used = none ∧ (Keeps b ys → g.Good) ∧
      (¬Keeps b ys → g.tag ≠ memBlockStatFree) := by
  obtain ⟨hbase, hstop, -, hlt, hstart⟩ := h.placed.bounds
  have htiles := h.tiles
  have hbsize := b.two_words_le
  have hlive := perm_filter_liveList h.live hb
  rw [hblock] at hlive
  rw [good_append, good_cons] at hgood
  rw [total_append, total_cons] at htiles
  obtain ⟨next, hnext⟩ : ∃ next, firstFree (block + b.size) ys 0 = next := ⟨_, rfl⟩
  have hbounds := firstFree_bounds (block + b.size) 0 ys
  rw [hnext] at hbounds
  obtain ⟨r, k, heap', heq, hlinked, hheap, hsize⟩ := h.exists_linked hgood.1 hb hblock hnext
  obtain ⟨ws, g, m', rfl, hlaid, hws, hg, htag, hle, htotal, hsame⟩ := hlinked
  rw [Block.size_released] at hle htotal
  have hend : start c s.heap.base + total ws + g.size = block + b.size := by omega
  rcases hlaid.mergeNext hg hstart (by rw [total_append, total_cons]; omega) rfl
    (by rw [hend, hnext]) with ⟨d, zs, rfl, hd, hmerged⟩ | ⟨hhead, hmem⟩
  · -- the next free block is added, and its tag stays
    rw [good_cons] at hgood
    rw [total_cons] at htiles
    refine ⟨_, ws, g.merge d, zs, heq, h.replace hheap hsize hmerged ?_ ?_ ?_, hws, hgood.2.2.2,
      rfl, fun _ => Block.good_merge hd hgood.2.2.1, fun hkeeps => absurd ?_ hkeeps⟩
    · simp only [total_append, total_cons, Block.size_merge]
      omega
    · simp only [firstFree_append, firstFree_cons_free hg, firstFree_cons_free Block.used_merge]
    · rw [liveList_cons_free hd, ← hsame, ← hend] at hlive
      rw [liveList_append, liveList_cons_free Block.used_merge, Block.size_merge, ← Nat.add_assoc]
      exact hlive
    · exact fun _ => ⟨d, rfl, hd⟩
  · -- the block stays in front of a block in use, with the tag it has
    have hroom (hkeeps : Keeps b ys) : 2 * wordSize c < b.size := by
      refine lt_of_le_of_ne hbsize fun hsize => ?_
      obtain ⟨d, hd, hfree⟩ := hkeeps hsize.symm
      exact hhead d hd hfree
    rw [hmem] at heq
    refine ⟨_, ws, g, ys, heq, h.replace hheap hsize hlaid ?_ rfl ?_, hws, hgood.2.2, hg,
      fun hkeeps _ => ⟨?_, (hroom hkeeps).trans_le hle⟩, fun hkeeps => ?_⟩
    · rw [total_append, total_append, total_cons, total_cons]
      omega
    · rw [← hsame, ← hend] at hlive
      rwa [liveList_append, liveList_cons_free hg]
    · rw [htag]
      exact (Block.good_released (hroom hkeeps) rfl).1
    · rw [Keeps, Classical.not_imp] at hkeeps
      rw [htag]
      exact h.placed.tag_released_ne hkeeps.1 (by omega)

end Release

end TuyaOpen.WordHeap
