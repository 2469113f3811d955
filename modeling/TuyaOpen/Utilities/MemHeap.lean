import TuyaOpen.Basic.Memory
import TuyaOpen.Basic.Transition
import Mathlib.Logic.Function.Basic

/-!
# The memory heap

`tuya_mem_heap.c` manages memory regions that it is given. A region is cut into blocks. Every block
begins with a word that holds its size and ends with a tag byte that says whether the block is in
use, and a free block holds in its second word the address of the next free block. All of this is
kept inside the region itself. Addresses and words have 32 bits, and the address `0` is `NULL`.

A pointer that the heap hands out is the address of a block plus the size of its header. A free
list with more entries than the heap has bytes has a cycle; the loops over it then do not return,
and the functions here have no value.
-/

namespace TuyaOpen.MemHeap

open Memory

/-! ### Constants -/

def memBlockMinSize : Nat := 24

def memAlignNum : Nat := 4

def fitFindDepth : Nat := 3

/-- `sizeof(MEM_HeapBlock_t) - sizeof(unsigned long)`. -/
def memBlockHeadSize : Nat := 4

def memHeapMinSize : Nat := memBlockMinSize + memBlockHeadSize

def memBlockStatUse : UInt8 := 0x55

def memBlockStatFree : UInt8 := 0xaa

def memHeapListNum : Nat := 4

/-- `ALIGN_UP`. -/
def alignUp (x : Nat) : Nat := u32 (x + (memAlignNum - 1)) / memAlignNum * memAlignNum

/-- `ALIGN_DOWN`. -/
def alignDown (x : Nat) : Nat := u32 x / memAlignNum * memAlignNum

/-! ### Heaps and blocks -/

/-- `MEM_Heap_t`. -/
structure Heap where
  freeList : Nat
  base : Nat
  size : Nat
  free : Nat
  freeWatermark : Nat
  deriving DecidableEq, Repr

/-- The memory and the static variables of `tuya_mem_heap.c`. -/
structure State where
  mem : Memory
  heapList : Nat → Heap
  heapFreeSize : Nat
  heapFreeSizeWatermark : Nat

/-- The field `size` of the block at an address. -/
def blockSize (m : Memory) (block : Nat) : Nat := m.readWord block

/-- The field `next` of the block at an address. -/
def blockNext (m : Memory) (block : Nat) : Nat := m.readWord (block + memBlockHeadSize)

/-- `MEM_DOG_ADDR`. -/
def memDogAddr (m : Memory) (block : Nat) : Nat := block + blockSize m block - 1

/-- Assigns an entry of `mem_heap_list`. -/
def State.setHeap (s : State) (i : Nat) (heap : Heap) : State :=
  { s with heapList := Function.update s.heapList i heap }

/-! ### Creation -/

/-- `mem_heap_init` of the entry `i` of the list: whether it succeeds, and the state after it. -/
def memHeapInit (s : State) (i ptr size : Nat) : Bool × State :=
  let heap := { s.heapList i with base := ptr, size := size }
  let block := alignUp ptr
  let blockLen := alignDown (u32Sub size (u32Sub block ptr))
  if blockLen < memHeapMinSize then (false, s.setHeap i heap)
  else
    let m := (s.mem.writeWord (block + memBlockHeadSize) 0).writeWord block blockLen
    let heap := { heap with freeList := block, free := blockLen, freeWatermark := blockLen }
    (true,
      { mem := m.writeByte (memDogAddr m block) memBlockStatFree
        heapList := Function.update s.heapList i heap
        heapFreeSize := u32 (s.heapFreeSize + blockLen)
        heapFreeSizeWatermark := u32 (s.heapFreeSize + blockLen) })

/-- The first entry of `mem_heap_list` that is not in use. -/
def unusedEntry (s : State) : Option Nat :=
  (List.range memHeapListNum).find? fun i => (s.heapList i).size = 0

/-- `MEM_HeapCreate`: the entry of the new heap, and the state after it. -/
def memHeapCreate (s : State) (ptr size : Nat) : Option Nat × State :=
  if ptr = 0 ∨ size = 0 then (none, s)
  else
    match unusedEntry s with
    | none => (none, s)
    | some i =>
      match memHeapInit s i ptr size with
      | (true, s) => (some i, s)
      | (false, s) => (none, s.setHeap i { s.heapList i with size := 0 })

/-- `tuya_mem_heap_create`. The handle of a heap is its entry in `mem_heap_list`. -/
def tuyaMemHeapCreate (s : State) (startAddr size : Nat) : Option Nat × State :=
  memHeapCreate s startAddr size

/-! ### Allocation -/

/-- The inner loop of `mem_chunk_get`: among the blocks after the first one that is large enough,
it goes on to blocks that are large enough and not larger, at most `fitFindDepth` times. -/
def bestFit (m : Memory) (size : Nat) :
    (fuel findNum preBlock thisBlock preBlockBak thisBlockBak : Nat) → Option (Nat × Nat)
  | 0, _, _, _, _, _ => none
  | fuel + 1, findNum, preBlock, thisBlock, preBlockBak, thisBlockBak =>
    if thisBlockBak = 0 then some (preBlock, thisBlock)
    else if size ≤ blockSize m thisBlockBak ∧ blockSize m thisBlockBak ≤ blockSize m thisBlock then
      if fitFindDepth ≤ findNum + 1 then some (preBlockBak, thisBlockBak)
      else
        bestFit m size fuel (findNum + 1) preBlockBak thisBlockBak thisBlockBak
          (blockNext m thisBlockBak)
    else if fitFindDepth ≤ findNum then some (preBlock, thisBlock)
    else bestFit m size fuel findNum preBlock thisBlock thisBlockBak (blockNext m thisBlockBak)

/-- The outer loop of `mem_chunk_get`: the block that is chosen with the free block before it, or
`NULL`. -/
def findBlock (m : Memory) (size : Nat) : (fuel preBlock thisBlock : Nat) → Option (Nat × Nat)
  | 0, _, _ => none
  | fuel + 1, preBlock, thisBlock =>
    if thisBlock = 0 then some (preBlock, 0)
    else if size ≤ blockSize m thisBlock then
      bestFit m size fuel 0 preBlock thisBlock thisBlock (blockNext m thisBlock)
    else findBlock m size fuel thisBlock (blockNext m thisBlock)

def splitBlock (m : Memory) (thisBlock size : Nat) : Nat × Memory :=
  let m := m.writeWord thisBlock (blockSize m thisBlock - size)
  let m := m.writeByte (memDogAddr m thisBlock) memBlockStatFree
  let newBlock := thisBlock + blockSize m thisBlock
  let m := m.writeWord newBlock size
  (newBlock, m.writeByte (memDogAddr m newBlock) memBlockStatUse)

def unlinkBlock (m : Memory) (heap : Heap) (preBlock thisBlock : Nat) : Memory × Heap :=
  let next := blockNext m thisBlock
  if preBlock ≠ 0 then
    let m := m.writeWord (preBlock + memBlockHeadSize) next
    (m.writeByte (memDogAddr m thisBlock) memBlockStatUse, heap)
  else
    (m.writeByte (memDogAddr m thisBlock) memBlockStatUse, { heap with freeList := next })

/-- `mem_chunk_get`: the block or `NULL`, the memory and the heap. -/
def memChunkGet (m : Memory) (heap : Heap) (size : Nat) : Option (Nat × Memory × Heap) :=
  match findBlock m size (heap.size + 1) 0 heap.freeList with
  | none => none
  | some (preBlock, thisBlock) =>
    if thisBlock = 0 then some (0, m, heap)
    else if memHeapMinSize ≤ blockSize m thisBlock - size then
      let r := splitBlock m thisBlock size
      some (r.1, r.2, heap)
    else
      let r := unlinkBlock m heap preBlock thisBlock
      some (thisBlock, r.1, r.2)

/-- The size of a block for `size` bytes, with its header and its tag. -/
def newSize (size : Nat) : Nat := u32 (alignUp (size + 1) + memBlockHeadSize)

/-- The heap after `n` of its free bytes are taken. -/
def Heap.take (heap : Heap) (n : Nat) : Heap :=
  { heap with
    free := u32Sub heap.free n
    freeWatermark := min heap.freeWatermark (u32Sub heap.free n) }

/-- `MEM_Allocate` of the entry `i` of the list: the pointer or `NULL`, and the state after it. -/
def memAllocate (s : State) (i size : Nat) : Option (Nat × State) :=
  if size = 0 then some (0, s)
  else if newSize (max size 4) < max size 4 then some (0, s)
  else
    match memChunkGet s.mem (s.heapList i) (newSize (max size 4)) with
    | none => none
    | some (block, m, heap) =>
      if block = 0 then some (0, { s.setHeap i heap with mem := m })
      else
        let n := blockSize m block
        some (block + memBlockHeadSize,
          { mem := m
            heapList := Function.update s.heapList i (heap.take n)
            heapFreeSize := u32Sub s.heapFreeSize n
            heapFreeSizeWatermark := min s.heapFreeSizeWatermark (u32Sub s.heapFreeSize n) })

/-! ### Release -/

/-- The loop of `MEM_Deallocate`: the free blocks before and after a block. -/
def freePosition (m : Memory) (freeBlock : Nat) :
    (fuel preBlock nextBlock : Nat) → Option (Nat × Nat)
  | 0, _, _ => none
  | fuel + 1, preBlock, nextBlock =>
    if nextBlock ≠ 0 ∧ nextBlock < freeBlock then
      freePosition m freeBlock fuel nextBlock (blockNext m nextBlock)
    else some (preBlock, nextBlock)

/-- Puts a block on the free list, or adds it to the free block right before it: the free block
that then holds it, the memory and the heap. -/
def linkBlock (m : Memory) (heap : Heap) (preBlock nextBlock freeBlock : Nat) :
    Nat × Memory × Heap :=
  let m := m.writeWord (freeBlock + memBlockHeadSize) nextBlock
  if preBlock = 0 then (freeBlock, m, { heap with freeList := freeBlock })
  else if preBlock + blockSize m preBlock = freeBlock then
    (preBlock, m.writeWord preBlock (blockSize m preBlock + blockSize m freeBlock), heap)
  else (freeBlock, m.writeWord (preBlock + memBlockHeadSize) freeBlock, heap)

def mergeNext (m : Memory) (preBlock nextBlock : Nat) : Memory :=
  if nextBlock ≠ 0 ∧ preBlock + blockSize m preBlock = nextBlock then
    let m := m.writeWord preBlock (blockSize m preBlock + blockSize m nextBlock)
    m.writeWord (preBlock + memBlockHeadSize) (blockNext m nextBlock)
  else m

/-- `MEM_Deallocate` of the entry `i` of the list. -/
def memDeallocate (s : State) (i ptr : Nat) : Option State :=
  if ptr = 0 then some s
  else
    let freeBlock := ptr - memBlockHeadSize
    let pdog := memDogAddr s.mem freeBlock
    if s.mem pdog ≠ memBlockStatUse then some s
    else
      let n := blockSize s.mem freeBlock
      let m := s.mem.writeByte pdog memBlockStatFree
      let heap := { s.heapList i with free := u32 ((s.heapList i).free + n) }
      match freePosition m freeBlock (heap.size + 1) 0 heap.freeList with
      | none => none
      | some (preBlock, nextBlock) =>
        let r := linkBlock m heap preBlock nextBlock freeBlock
        some
          { mem := mergeNext r.2.1 r.1 nextBlock
            heapList := Function.update s.heapList i r.2.2
            heapFreeSize := u32 (s.heapFreeSize + n)
            heapFreeSizeWatermark := s.heapFreeSizeWatermark }

/-! ### Interface -/

/-- The loop of `tuya_mem_heap_malloc` over the entries of the list. -/
def mallocAny (s : State) (size : Nat) : List Nat → Option (Nat × State)
  | [] => some (0, s)
  | i :: is =>
    if (s.heapList i).size = 0 then some (0, s)
    else if u32 (size + memBlockMinSize) < (s.heapList i).free then
      match memAllocate s i size with
      | none => none
      | some (ptr, s) => if ptr ≠ 0 then some (ptr, s) else mallocAny s size is
    else mallocAny s size is

/-- `tuya_mem_heap_malloc`. Without a handle it tries the heaps in turn. -/
def tuyaMemHeapMalloc (s : State) (handle : Option Nat) (size : Nat) : Option (Nat × State) :=
  match handle with
  | some i => memAllocate s i size
  | none => mallocAny s size (List.range memHeapListNum)

/-- The address lies inside the region of a heap, and it is not its first byte. -/
def Heap.Holds (heap : Heap) (ptr : Nat) : Prop := heap.base < ptr ∧ ptr < heap.base + heap.size

instance instDecidableHolds (heap : Heap) (ptr : Nat) : Decidable (heap.Holds ptr) :=
  inferInstanceAs (Decidable (heap.base < ptr ∧ ptr < heap.base + heap.size))

/-- The loop of `tuya_mem_heap_free` over the entries of the list. -/
def freeAny (s : State) (ptr : Nat) : List Nat → Option State
  | [] => some s
  | i :: is =>
    if (s.heapList i).size = 0 then some s
    else if (s.heapList i).Holds ptr then memDeallocate s i ptr
    else freeAny s ptr is

/-- `tuya_mem_heap_free`. Without a handle it looks for the heap whose region has the pointer. -/
def tuyaMemHeapFree (s : State) (handle : Option Nat) (ptr : Nat) : Option State :=
  match handle with
  | some i => memDeallocate s i ptr
  | none => freeAny s ptr (List.range memHeapListNum)

/-- `tuya_mem_heap_realloc`. The size of the new block is not checked for a wrap, as `MEM_Allocate`
checks it. -/
def tuyaMemHeapRealloc (s : State) (handle : Option Nat) (ptr size : Nat) : Option (Nat × State) :=
  if ptr = 0 then tuyaMemHeapMalloc s handle size
  else
    let oldBlock := ptr - memBlockHeadSize
    if s.mem (memDogAddr s.mem oldBlock) ≠ memBlockStatUse then some (0, s)
    else if newSize (max size 4) ≤ blockSize s.mem oldBlock then some (ptr, s)
    else
      match tuyaMemHeapMalloc s handle (max size 4) with
      | none => none
      | some (tmp, s) =>
        if tmp = 0 then some (0, s)
        else
          let m := s.mem.copy tmp ptr (blockSize s.mem oldBlock - memBlockHeadSize)
          match tuyaMemHeapFree { s with mem := m } handle ptr with
          | none => none
          | some s => some (tmp, s)

/-! ### Runs -/

/-- What happens to the heaps: a call, or a write of a byte by a user of the memory. -/
inductive Event where
  | create (startAddr size : UInt32)
  | malloc (handle : Option Nat) (size : UInt32)
  | realloc (handle : Option Nat) (ptr : Nat) (size : UInt32)
  | free (handle : Option Nat) (ptr : Nat)
  | write (addr : Nat) (v : UInt8)
  deriving DecidableEq, Repr

/-- The state of the program with the pointers that are in use, each with the number of bytes that
was asked for. -/
structure World where
  state : State
  live : Nat → Option Nat

def World.init (m : Memory) : World where
  state := ⟨m, fun _ => ⟨0, 0, 0, 0, 0⟩, 0, 0⟩
  live := fun _ => none

/-- One event. A pointer that is returned comes into use, and the pointer that is given back goes
out of use. -/
def step (w : World) : Event → Option World
  | .create startAddr size =>
    some { w with state := (tuyaMemHeapCreate w.state startAddr.toNat size.toNat).2 }
  | .malloc handle size =>
    match tuyaMemHeapMalloc w.state handle size.toNat with
    | none => none
    | some (ptr, s) =>
      some ⟨s, if ptr = 0 then w.live else Function.update w.live ptr (some size.toNat)⟩
  | .realloc handle ptr size =>
    match tuyaMemHeapRealloc w.state handle ptr size.toNat with
    | none => none
    | some (ptr', s) =>
      some ⟨s, if ptr' = 0 then w.live
        else Function.update (Function.update w.live ptr none) ptr' (some size.toNat)⟩
  | .free handle ptr =>
    match tuyaMemHeapFree w.state handle ptr with
    | none => none
    | some s => some ⟨s, Function.update w.live ptr none⟩
  | .write addr v => some { w with state := { w.state with mem := w.state.mem.writeByte addr v } }

def next (w : World) (ev : Event) : World := (step w ev).getD w

end TuyaOpen.MemHeap
