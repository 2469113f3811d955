import TuyaOpen.Basic.WordMemory
import TuyaOpen.Basic.Transition
import TuyaOpen.Utilities.MemHeap

/-!
# The memory heap on words of four and of eight bytes

`tuya_mem_heap.c` is built with words of four bytes and an alignment of four, or with words of eight
bytes and an alignment of eight. The header of a block is one word, the link of a free block is the
next one, and the tag is the last byte of the block. `MEM_Deallocate` writes the tag first and then
the link. `MEM_HeapStatus` walks over the blocks of a heap and compares their tags with the free
list; what it prints about leaks is left out.

This is one heap. The static variables of the file are the counters of free bytes.
-/

namespace TuyaOpen.WordHeap

open Memory
open MemHeap (Heap memBlockMinSize fitFindDepth memBlockStatUse memBlockStatFree)

/-! ### The configurations -/

/-- The configurations in which the file is built. -/
inductive Build
  | words4
  | words8
  deriving DecidableEq, Repr

/-- `sizeof(unsigned long)`, which is also the size of a pointer. -/
def wordSize : Build → Nat
  | .words4 => 4
  | .words8 => 8

/-- `MEM_ALIGN_NUM`. -/
def memAlignNum : Build → Nat
  | .words4 => 4
  | .words8 => 8

/-- One more than the largest `unsigned long`. -/
def wordLimit : Build → Nat
  | .words4 => 4294967296
  | .words8 => 18446744073709551616

variable (c : Build)

/-- `sizeof(MEM_HeapBlock_t) - sizeof(unsigned long)`. -/
def memBlockHeadSize : Nat := 2 * wordSize c - wordSize c

/-- `MEM_HEAP_MIN_SIZE`. -/
def memHeapMinSize : Nat := memBlockMinSize + memBlockHeadSize c

/-- A number as an `unsigned long`. -/
def wrap (n : Nat) : Nat := n % wordLimit c

/-- The difference of two numbers of type `unsigned long`. -/
def wrapSub (a b : Nat) : Nat := (a + (wordLimit c - b % wordLimit c)) % wordLimit c

/-- `ALIGN_UP`. -/
def alignUp (x : Nat) : Nat := wrap c (x + (memAlignNum c - 1)) / memAlignNum c * memAlignNum c

/-- `ALIGN_DOWN`. -/
def alignDown (x : Nat) : Nat := wrap c x / memAlignNum c * memAlignNum c

/-! ### Heaps and blocks -/

/-- The memory, a heap, and the counters of free bytes. -/
structure State where
  mem : Memory
  heap : Heap
  heapFreeSize : Nat
  heapFreeSizeWatermark : Nat

/-- The field `size` of the block at an address. -/
def blockSize (m : Memory) (block : Nat) : Nat := m.readLe block (wordSize c)

/-- The field `next` of the block at an address. -/
def blockNext (m : Memory) (block : Nat) : Nat :=
  m.readLe (block + memBlockHeadSize c) (wordSize c)

/-- The memory after the field `size` of the block at an address is assigned. -/
def setSize (m : Memory) (block v : Nat) : Memory := m.writeLe block (wordSize c) v

/-- The memory after the field `next` of the block at an address is assigned. -/
def setNext (m : Memory) (block v : Nat) : Memory :=
  m.writeLe (block + memBlockHeadSize c) (wordSize c) v

/-- `MEM_DOG_ADDR`. -/
def memDogAddr (m : Memory) (block : Nat) : Nat := block + blockSize c m block - 1

/-- `mem_heap_init` of a heap at `ptr`, when `heapFreeSize` bytes are free in the other heaps. -/
def memHeapInit (m : Memory) (heapFreeSize ptr size : Nat) : Option State :=
  let block := alignUp c ptr
  let blockLen := alignDown c (wrapSub c size (wrapSub c block ptr))
  if blockLen < memHeapMinSize c then none
  else
    let m := setSize c (setNext c m block 0) block blockLen
    some
      { mem := m.writeByte (memDogAddr c m block) memBlockStatFree
        heap :=
          { freeList := block, base := ptr, size := size, free := blockLen
            freeWatermark := blockLen }
        heapFreeSize := wrap c (heapFreeSize + blockLen)
        heapFreeSizeWatermark := wrap c (heapFreeSize + blockLen) }

/-! ### Allocation -/

/-- The inner loop of `mem_chunk_get`: among the blocks after the first one that is large enough,
it goes on to blocks that are large enough and not larger, at most `fitFindDepth` times. -/
def bestFit (m : Memory) (size : Nat) :
    (fuel findNum preBlock thisBlock preBlockBak thisBlockBak : Nat) → Option (Nat × Nat)
  | 0, _, _, _, _, _ => none
  | fuel + 1, findNum, preBlock, thisBlock, preBlockBak, thisBlockBak =>
    if thisBlockBak = 0 then some (preBlock, thisBlock)
    else if size ≤ blockSize c m thisBlockBak ∧
        blockSize c m thisBlockBak ≤ blockSize c m thisBlock then
      if fitFindDepth ≤ findNum + 1 then some (preBlockBak, thisBlockBak)
      else
        bestFit m size fuel (findNum + 1) preBlockBak thisBlockBak thisBlockBak
          (blockNext c m thisBlockBak)
    else if fitFindDepth ≤ findNum then some (preBlock, thisBlock)
    else bestFit m size fuel findNum preBlock thisBlock thisBlockBak (blockNext c m thisBlockBak)

/-- The outer loop of `mem_chunk_get`: the block that is chosen with the free block before it, or
`NULL`. -/
def findBlock (m : Memory) (size : Nat) : (fuel preBlock thisBlock : Nat) → Option (Nat × Nat)
  | 0, _, _ => none
  | fuel + 1, preBlock, thisBlock =>
    if thisBlock = 0 then some (preBlock, 0)
    else if size ≤ blockSize c m thisBlock then
      bestFit c m size fuel 0 preBlock thisBlock thisBlock (blockNext c m thisBlock)
    else findBlock m size fuel thisBlock (blockNext c m thisBlock)

def splitBlock (m : Memory) (thisBlock size : Nat) : Nat × Memory :=
  let m := setSize c m thisBlock (blockSize c m thisBlock - size)
  let m := m.writeByte (memDogAddr c m thisBlock) memBlockStatFree
  let newBlock := thisBlock + blockSize c m thisBlock
  let m := setSize c m newBlock size
  (newBlock, m.writeByte (memDogAddr c m newBlock) memBlockStatUse)

/-- `pre_block->next = next`, or `heap->free_list = next` without a block before. -/
def setLink (m : Memory) (heap : Heap) (preBlock next : Nat) : Memory × Heap :=
  if preBlock ≠ 0 then (setNext c m preBlock next, heap) else (m, { heap with freeList := next })

def unlinkBlock (m : Memory) (heap : Heap) (preBlock thisBlock : Nat) : Memory × Heap :=
  let r := setLink c m heap preBlock (blockNext c m thisBlock)
  (r.1.writeByte (memDogAddr c r.1 thisBlock) memBlockStatUse, r.2)

/-- `mem_chunk_get`: the block or `NULL`, the memory and the heap. -/
def memChunkGet (m : Memory) (heap : Heap) (size : Nat) : Option (Nat × Memory × Heap) :=
  match findBlock c m size (heap.size + 1) 0 heap.freeList with
  | none => none
  | some (preBlock, thisBlock) =>
    if thisBlock = 0 then some (0, m, heap)
    else if memHeapMinSize c ≤ blockSize c m thisBlock - size then
      let r := splitBlock c m thisBlock size
      some (r.1, r.2, heap)
    else some (thisBlock, unlinkBlock c m heap preBlock thisBlock)

/-- The size of a block for `size` bytes, with its header and its tag. -/
def newSize (size : Nat) : Nat := wrap c (alignUp c (size + 1) + memBlockHeadSize c)

/-- The heap after `n` of its free bytes are taken. -/
def takeFree (heap : Heap) (n : Nat) : Heap :=
  { heap with
    free := wrapSub c heap.free n
    freeWatermark := min heap.freeWatermark (wrapSub c heap.free n) }

/-- `MEM_Allocate`: the pointer or `NULL`, and the state after it. -/
def memAllocate (s : State) (size : Nat) : Option (Nat × State) :=
  if size = 0 then some (0, s)
  else if newSize c (max size 4) < max size 4 then some (0, s)
  else
    match memChunkGet c s.mem s.heap (newSize c (max size 4)) with
    | none => none
    | some (block, m, heap) =>
      if block = 0 then some (0, { s with mem := m, heap := heap })
      else
        let n := blockSize c m block
        some (block + memBlockHeadSize c,
          { mem := m
            heap := takeFree c heap n
            heapFreeSize := wrapSub c s.heapFreeSize n
            heapFreeSizeWatermark := min s.heapFreeSizeWatermark (wrapSub c s.heapFreeSize n) })

/-! ### Release -/

/-- The loop of `MEM_Deallocate`: the free blocks before and after a block. -/
def freePosition (m : Memory) (freeBlock : Nat) :
    (fuel preBlock nextBlock : Nat) → Option (Nat × Nat)
  | 0, _, _ => none
  | fuel + 1, preBlock, nextBlock =>
    if nextBlock ≠ 0 ∧ nextBlock < freeBlock then
      freePosition m freeBlock fuel nextBlock (blockNext c m nextBlock)
    else some (preBlock, nextBlock)

/-- Puts a block on the free list, or adds it to the free block right before it: the free block
that then holds it, the memory and the heap. -/
def linkBlock (m : Memory) (heap : Heap) (preBlock nextBlock freeBlock : Nat) :
    Nat × Memory × Heap :=
  let m := setNext c m freeBlock nextBlock
  if preBlock ≠ 0 ∧ preBlock + blockSize c m preBlock = freeBlock then
    (preBlock, setSize c m preBlock (blockSize c m preBlock + blockSize c m freeBlock), heap)
  else (freeBlock, setLink c m heap preBlock freeBlock)

def mergeNext (m : Memory) (preBlock nextBlock : Nat) : Memory :=
  if nextBlock ≠ 0 ∧ preBlock + blockSize c m preBlock = nextBlock then
    let m := setSize c m preBlock (blockSize c m preBlock + blockSize c m nextBlock)
    setNext c m preBlock (blockNext c m nextBlock)
  else m

/-- `MEM_Deallocate`. The tag is written before the link. -/
def memDeallocate (s : State) (ptr : Nat) : Option State :=
  if ptr = 0 then some s
  else
    let freeBlock := ptr - memBlockHeadSize c
    let pdog := memDogAddr c s.mem freeBlock
    if s.mem pdog ≠ memBlockStatUse then some s
    else
      let n := blockSize c s.mem freeBlock
      let m := s.mem.writeByte pdog memBlockStatFree
      let heap := { s.heap with free := wrap c (s.heap.free + n) }
      match freePosition c m freeBlock (heap.size + 1) 0 heap.freeList with
      | none => none
      | some (preBlock, nextBlock) =>
        let r := linkBlock c m heap preBlock nextBlock freeBlock
        some
          { mem := mergeNext c r.2.1 r.1 nextBlock
            heap := r.2.2
            heapFreeSize := wrap c (s.heapFreeSize + n)
            heapFreeSizeWatermark := s.heapFreeSizeWatermark }

/-! ### Diagnosis -/

/-- `MEM_HeapStatus_t`. -/
structure HeapStatus where
  size : Nat
  free : Nat
  freeLargest : Nat
  valid : Nat
  usedBlock : Nat
  freeBlock : Nat
  deriving DecidableEq, Repr

def HeapStatus.addUsed (status : HeapStatus) : HeapStatus :=
  { status with usedBlock := wrap c (status.usedBlock + 1) }

/-- The status after a free block of `blockSize` bytes. -/
def HeapStatus.addFree (status : HeapStatus) (blockSize : Nat) : HeapStatus :=
  let thisSize := wrapSub c blockSize (memBlockHeadSize c + 1)
  { status with
    free := wrap c (status.free + thisSize)
    freeLargest := max status.freeLargest thisSize
    freeBlock := wrap c (status.freeBlock + 1) }

/-- The loop of `MEM_HeapStatus` from the block at `addr` and the free block `freeBlockp` on:
`result` and the status. -/
def statusLoop (m : Memory) (topAddr : Nat) :
    (fuel addr freeBlockp : Nat) → HeapStatus → Option (Nat × HeapStatus)
  | 0, _, _, _ => none
  | fuel + 1, addr, freeBlockp, status =>
    if addr < topAddr then
      if m (memDogAddr c m addr) = memBlockStatUse then
        if addr = freeBlockp then some (1, status)
        else
          statusLoop m topAddr fuel (wrap c (addr + blockSize c m addr)) freeBlockp
            (status.addUsed c)
      else if m (memDogAddr c m addr) = memBlockStatFree then
        if addr ≠ freeBlockp then some (2, status)
        else
          statusLoop m topAddr fuel (wrap c (addr + blockSize c m addr)) (blockNext c m freeBlockp)
            (status.addFree c (blockSize c m addr))
      else some (3, status)
    else some (0, if addr = topAddr ∧ freeBlockp = 0 then { status with valid := 1 } else status)

/-- `MEM_HeapStatus`: `result` and the status. -/
def memHeapStatus (s : State) : Option (Nat × HeapStatus) :=
  statusLoop c s.mem (alignDown c (s.heap.base + s.heap.size)) (s.heap.size + 1)
    (alignUp c s.heap.base) s.heap.freeList
    { size := s.heap.size, free := 0, freeLargest := 0, valid := 0, usedBlock := 0, freeBlock := 0 }

/-! ### Runs -/

/-- What happens to the heap: a call, or a write of a byte by a user of the memory. -/
inductive Event where
  | allocate (size : Nat)
  | deallocate (ptr : Nat)
  | write (addr : Nat) (v : UInt8)
  deriving DecidableEq, Repr

/-- The state of the program with the pointers that are in use, each with the number of bytes that
was asked for. -/
structure World where
  state : State
  live : List (Nat × Nat)

/-- One event. A pointer that is returned comes into use, and the pointer that is given back goes
out of use. -/
def step (w : World) : Event → Option World
  | .allocate size =>
    match memAllocate c w.state size with
    | none => none
    | some (ptr, s) => some ⟨s, if ptr = 0 then w.live else (ptr, size) :: w.live⟩
  | .deallocate ptr =>
    match memDeallocate c w.state ptr with
    | none => none
    | some s => some ⟨s, w.live.filter fun p => p.1 ≠ ptr⟩
  | .write addr v => some { w with state := { w.state with mem := w.state.mem.writeByte addr v } }

def next (w : World) (ev : Event) : World := (step c w ev).getD w

end TuyaOpen.WordHeap
