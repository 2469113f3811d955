import TuyaOpen.Utilities.WordHeap

/-!
# The heap on words of four bytes

On words of four bytes the calls on a heap are those of `MemHeap` on an entry of `mem_heap_list`.
-/

namespace TuyaOpen.WordHeap

open Memory
open MemHeap (Heap)

variable {m : Memory} {heap : Heap}

/-! ### Words and blocks -/

theorem wrap_words4 (n : Nat) : wrap .words4 n = u32 n := by
  rw [u32]
  rfl

theorem wrapSub_words4 (a b : Nat) : wrapSub .words4 a b = u32Sub a b := by
  rw [u32Sub, u32, u32, wrapSub, wordLimit]
  split_ifs
  all_goals omega

theorem alignUp_words4 (x : Nat) : alignUp .words4 x = MemHeap.alignUp x := by
  rw [alignUp, wrap_words4]
  rfl

theorem blockSize_words4 (block : Nat) : blockSize .words4 m block = MemHeap.blockSize m block :=
  readLe_four

theorem blockNext_words4 (block : Nat) : blockNext .words4 m block = MemHeap.blockNext m block :=
  readLe_four

theorem setSize_words4 (block v : Nat) : setSize .words4 m block v = m.writeWord block v :=
  writeLe_four

theorem setNext_words4 (block v : Nat) :
    setNext .words4 m block v = m.writeWord (block + MemHeap.memBlockHeadSize) v :=
  writeLe_four

theorem memDogAddr_words4 (block : Nat) :
    memDogAddr .words4 m block = MemHeap.memDogAddr m block := by
  rw [memDogAddr, blockSize_words4]
  rfl

theorem newSize_words4 (size : Nat) : newSize .words4 size = MemHeap.newSize size := by
  rw [newSize, wrap_words4, alignUp_words4]
  rfl

theorem takeFree_words4 (n : Nat) : takeFree .words4 heap n = heap.take n := by
  rw [takeFree, wrapSub_words4]
  rfl

/-! ### Allocation -/

theorem bestFit_words4 (size fuel findNum pre this preBak thisBak : Nat) :
    bestFit .words4 m size fuel findNum pre this preBak thisBak =
      MemHeap.bestFit m size fuel findNum pre this preBak thisBak := by
  induction fuel generalizing findNum pre this preBak thisBak with
  | zero => rfl
  | succ fuel ih =>
    simp only [bestFit, MemHeap.bestFit, blockSize_words4, blockNext_words4, ih]

theorem findBlock_words4 (size fuel pre this : Nat) :
    findBlock .words4 m size fuel pre this = MemHeap.findBlock m size fuel pre this := by
  induction fuel generalizing pre this with
  | zero => rfl
  | succ fuel ih =>
    simp only [findBlock, MemHeap.findBlock, blockSize_words4, blockNext_words4, bestFit_words4, ih]

theorem splitBlock_words4 (this size : Nat) :
    splitBlock .words4 m this size = MemHeap.splitBlock m this size := by
  simp only [splitBlock, MemHeap.splitBlock, blockSize_words4, setSize_words4, memDogAddr_words4]

theorem unlinkBlock_words4 (pre this : Nat) :
    unlinkBlock .words4 m heap pre this = MemHeap.unlinkBlock m heap pre this := by
  simp only [unlinkBlock, setLink, MemHeap.unlinkBlock, blockNext_words4, setNext_words4,
    memDogAddr_words4]
  split_ifs
  all_goals rfl

theorem memChunkGet_words4 (size : Nat) :
    memChunkGet .words4 m heap size = MemHeap.memChunkGet m heap size := by
  simp only [memChunkGet, MemHeap.memChunkGet, findBlock_words4, blockSize_words4,
    splitBlock_words4, unlinkBlock_words4]
  rfl

/-! ### Release -/

theorem freePosition_words4 (freeBlock fuel pre next : Nat) :
    freePosition .words4 m freeBlock fuel pre next =
      MemHeap.freePosition m freeBlock fuel pre next := by
  induction fuel generalizing pre next with
  | zero => rfl
  | succ fuel ih => simp only [freePosition, MemHeap.freePosition, blockNext_words4, ih]

theorem linkBlock_words4 (pre next freeBlock : Nat) :
    linkBlock .words4 m heap pre next freeBlock = MemHeap.linkBlock m heap pre next freeBlock := by
  simp only [linkBlock, setLink, MemHeap.linkBlock, blockSize_words4, setSize_words4,
    setNext_words4]
  by_cases hpre : pre = 0
  · simp [hpre]
  · simp only [hpre, ne_eq, not_false_eq_true, true_and, if_true, if_false]

theorem mergeNext_words4 (pre next : Nat) :
    mergeNext .words4 m pre next = MemHeap.mergeNext m pre next := by
  simp only [mergeNext, MemHeap.mergeNext, blockSize_words4, blockNext_words4, setSize_words4,
    setNext_words4]

/-! ### The calls -/

def entry (s : MemHeap.State) (i : Nat) : State :=
  ⟨s.mem, s.heapList i, s.heapFreeSize, s.heapFreeSizeWatermark⟩

variable (s : MemHeap.State) (i : Nat)

theorem memAllocate_entry (size : Nat) :
    memAllocate .words4 (entry s i) size =
      (MemHeap.memAllocate s i size).map (Prod.map id (entry · i)) := by
  simp only [memAllocate, MemHeap.memAllocate, newSize_words4, memChunkGet_words4, entry]
  split_ifs with hzero hwrap
  · rfl
  · rfl
  · cases MemHeap.memChunkGet s.mem (s.heapList i) (MemHeap.newSize (max size 4)) with
    | none => rfl
    | some r =>
      dsimp only
      split_ifs with hblock
      · simp [MemHeap.State.setHeap]
      · simp only [blockSize_words4, takeFree_words4, wrapSub_words4, Option.map_some,
          Prod.map_apply, Function.update_self]
        rfl

theorem memDeallocate_entry (ptr : Nat) :
    memDeallocate .words4 (entry s i) ptr = (MemHeap.memDeallocate s i ptr).map (entry · i) := by
  have hhead : memBlockHeadSize .words4 = MemHeap.memBlockHeadSize := rfl
  simp only [memDeallocate, MemHeap.memDeallocate, memDogAddr_words4, blockSize_words4,
    freePosition_words4, linkBlock_words4, mergeNext_words4, wrap_words4, hhead, entry]
  split_ifs with hzero htag
  · rfl
  · rfl
  · cases MemHeap.freePosition
        (s.mem.writeByte (MemHeap.memDogAddr s.mem (ptr - MemHeap.memBlockHeadSize))
          MemHeap.memBlockStatFree)
        (ptr - MemHeap.memBlockHeadSize) ((s.heapList i).size + 1) 0 (s.heapList i).freeList with
    | none => rfl
    | some r => simp

end TuyaOpen.WordHeap
