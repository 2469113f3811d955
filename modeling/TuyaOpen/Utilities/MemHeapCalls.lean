import TuyaOpen.Utilities.MemHeapInvariant

/-!
# The calls of the memory heap

Every heap in use has a layout, and the regions of the heaps are apart. The calls keep this. The
loops of `tuya_mem_heap_malloc` and `tuya_mem_heap_free` without a handle come to the heaps before
the first entry of the list that is not in use.

## Main results

* `HeapsInv.operate`: an operation on one heap keeps the layouts of all.
* `HeapsInv.malloc`, `HeapsInv.free`, `HeapsInv.create`, `HeapsInv.erase`: the calls.
* `WorldInv.create`, `WorldInv.malloc`, `WorldInv.realloc`, `WorldInv.free`: the calls when no heap
  is deleted.
-/

namespace TuyaOpen.MemHeap

open Memory

variable {m m' : Memory} {heap : Heap} {live : Nat → Option Nat} {bs : List Block} {s : State}
  {i : Nat}

/-! ### All heaps -/

def State.Active (s : State) (i : Nat) : Prop := i < memHeapListNum ∧ (s.heapList i).size ≠ 0

instance instDecidableActive (s : State) (i : Nat) : Decidable (s.Active i) :=
  inferInstanceAs (Decidable (i < memHeapListNum ∧ (s.heapList i).size ≠ 0))

instance instDecidableForallActive (s : State) (P : Nat → Prop) [DecidablePred P] :
    Decidable (∀ i, s.Active i → P i) :=
  decidable_of_iff (∀ i < memHeapListNum, (s.heapList i).size ≠ 0 → P i)
    ⟨fun h i hi => h i hi.1 hi.2, fun h i hlt hne => h i ⟨hlt, hne⟩⟩

def Heap.Apart (heap heap' : Heap) : Prop :=
  heap.base + heap.size ≤ heap'.base ∨ heap'.base + heap'.size ≤ heap.base

/-- Every heap has a layout, the regions are apart, and every pointer in use lies in a heap. -/
structure HeapsInv (s : State) (live : Nat → Option Nat) : Prop where
  layout : ∀ i, s.Active i → ∃ bs, Inv s.mem (s.heapList i) live bs
  apart : ∀ i j, s.Active i → s.Active j → i ≠ j → (s.heapList i).Apart (s.heapList j)
  owned : ∀ ptr n, live ptr = some n → ∃ i, s.Active i ∧ (s.heapList i).Holds ptr

/-- Every heap has a layout, the regions are apart, the heaps are the first entries of the list, and
every pointer in use lies in a heap. -/
structure WorldInv (s : State) (live : Nat → Option Nat) : Prop where
  layout : ∀ i, s.Active i → ∃ bs, Inv s.mem (s.heapList i) live bs
  apart : ∀ i j, s.Active i → s.Active j → i ≠ j → (s.heapList i).Apart (s.heapList j)
  before : ∀ i, s.Active i → ∀ j < i, s.Active j
  owned : ∀ ptr n, live ptr = some n → ∃ i, s.Active i ∧ (s.heapList i).Holds ptr

theorem WorldInv.heaps (h : WorldInv s live) : HeapsInv s live := ⟨h.layout, h.apart, h.owned⟩

theorem active_iff_of_size_eq {s' : State}
    (hsize : ∀ j, (s'.heapList j).size = (s.heapList j).size) (j : Nat) :
    s'.Active j ↔ s.Active j := by
  rw [State.Active, State.Active, hsize]

theorem WorldInv.of_heaps {s' : State} {live' : Nat → Option Nat} (h : WorldInv s live)
    (h' : HeapsInv s' live') (hsize : ∀ j, (s'.heapList j).size = (s.heapList j).size) :
    WorldInv s' live' := by
  have hactive := active_iff_of_size_eq hsize
  exact ⟨h'.layout, h'.apart, fun j hj k hk => (hactive k).2 (h.before j ((hactive j).1 hj) k hk),
    h'.owned⟩

theorem Heap.Apart.symm {heap' : Heap} (h : heap.Apart heap') : heap'.Apart heap := Or.symm h

theorem Heap.Apart.not_holds {heap' : Heap} {ptr : Nat} (h : heap.Apart heap')
    (hptr : heap.Holds ptr) : ¬heap'.Holds ptr := by
  rintro ⟨h₁, h₂⟩
  obtain ⟨h₃, h₄⟩ := hptr
  rcases h with h | h <;> omega

namespace HeapsInv

theorem exists_block {ptr n : Nat} (h : HeapsInv s live) (hlive : live ptr = some n) :
    ∃ i xs b ys, s.Active i ∧ Inv s.mem (s.heapList i) live (xs ++ b :: ys) ∧
      b.used = some n ∧ ptr = (s.heapList i).start + total xs + memBlockHeadSize := by
  obtain ⟨i, hi, hholds⟩ := h.owned ptr n hlive
  obtain ⟨bs, hinv⟩ := h.layout i hi
  obtain ⟨xs, b, ys, rfl, hused, hptr⟩ := hinv.exists_block hholds hlive
  exact ⟨i, xs, b, ys, hi, hinv, hused, hptr⟩

theorem eq_of_holds {ptr j : Nat} (h : HeapsInv s live) (hi : s.Active i)
    (hholds : (s.heapList i).Holds ptr) (hj : s.Active j) (hholds' : (s.heapList j).Holds ptr) :
    j = i := by
  by_contra hne
  exact (h.apart j i hj hi hne).not_holds hholds' hholds

theorem same_of_ne {j : Nat} (h : HeapsInv s live) (hi : s.Active i) (hj : s.Active j)
    (hne : j ≠ i) (hoff : SameOff s.mem m' (s.heapList i).start (s.heapList i).stop) :
    Same s.mem m' (s.heapList j).start (s.heapList j).stop := by
  obtain ⟨bsi, hinvi⟩ := h.layout i hi
  obtain ⟨bsj, hinvj⟩ := h.layout j hj
  have h₁ := hinvi.placed.base_le_start
  have h₂ := hinvi.placed.stop_le
  have h₃ := hinvj.placed.base_le_start
  have h₄ := hinvj.placed.stop_le
  refine hoff.same ?_
  rcases h.apart j i hj hi hne with hapart | hapart
  · exact Or.inl (by omega)
  · exact Or.inr (by omega)

theorem operate {s' : State} {live' : Nat → Option Nat} (h : HeapsInv s live)
    (hi : s.Active i) (hop : Operated s i live' s' bs)
    (hlive : ∀ ptr, ¬(s.heapList i).Holds ptr → live' ptr = live ptr) : HeapsInv s' live' := by
  have hbase := hop.base_eq_all
  have hsize := hop.size_eq_all
  have hactive := active_iff_of_size_eq hsize
  refine ⟨fun j hj => ?_, fun j k hj hk hne => ?_, fun ptr n hptr => ?_⟩
  · rw [hactive] at hj
    by_cases hji : j = i
    · rw [hji]
      exact ⟨bs, hop.inv⟩
    · obtain ⟨bsj, hinvj⟩ := h.layout j hj
      rw [hop.heapList_eq j hji]
      exact ⟨bsj, hinvj.congr (h.same_of_ne hi hj hji hop.sameOff) fun ptr hptr =>
        hlive ptr ((h.apart j i hj hi hji).not_holds hptr)⟩
  · rw [Heap.Apart, hbase, hbase, hsize, hsize]
    exact h.apart j k ((hactive j).1 hj) ((hactive k).1 hk) hne
  · by_cases hholds : (s.heapList i).Holds ptr
    · refine ⟨i, (hactive i).2 hi, ?_⟩
      rwa [Heap.Holds, hbase, hsize]
    · rw [hlive ptr hholds] at hptr
      obtain ⟨j, hj, hholdsj⟩ := h.owned ptr n hptr
      refine ⟨j, (hactive j).2 hj, ?_⟩
      rwa [Heap.Holds, hbase, hsize]

theorem same_block {s' : State} {live' : Nat → Option Nat} {off ptr n : Nat} {bs' : List Block}
    (h : HeapsInv s live) (hi : s.Active i) (hinv : Inv s.mem (s.heapList i) live bs)
    (hop : Operated s i live' s' bs') (hkeeps : Keeps s.mem s'.mem (s.heapList i).start bs off)
    (hlive : live ptr = some n) (hoff : ptr - memBlockHeadSize ≠ off) :
    Same s.mem s'.mem (ptr - memBlockHeadSize)
      (ptr - memBlockHeadSize + blockSize s.mem (ptr - memBlockHeadSize)) := by
  by_cases hholds : (s.heapList i).Holds ptr
  · obtain ⟨xs, b, ys, rfl, hused, rfl⟩ := hinv.exists_block hholds hlive
    rw [Nat.add_sub_cancel] at hoff
    rw [Nat.add_sub_cancel, hinv.laid.middle.size]
    exact hkeeps xs b ys rfl (by simp [hused]) hoff
  · -- the block is in another heap, whose memory stays
    obtain ⟨j, hj, hholdsj⟩ := h.owned ptr n hlive
    obtain ⟨bsj, hinvj⟩ := h.layout j hj
    have hji : j ≠ i := fun hji => hholds (hji ▸ hholdsj)
    obtain ⟨xs, b, ys, rfl, -, rfl⟩ := hinvj.exists_block hholdsj hlive
    have htiles := hinvj.tiles
    rw [total_append_cons] at htiles
    rw [Nat.add_sub_cancel, hinvj.laid.middle.size]
    exact (h.same_of_ne hi hj hji hop.sameOff).mono (by omega) (by omega)

theorem write_inside {xs ys : List Block} {b : Block} (h : HeapsInv s live)
    (hi : s.Active i) (hinv : Inv s.mem (s.heapList i) live (xs ++ b :: ys)) (hb : b.used ≠ none)
    (hoff : SameOff s.mem m' ((s.heapList i).start + total xs + memBlockHeadSize)
      ((s.heapList i).start + total xs + b.size - 1)) :
    HeapsInv { s with mem := m' } live := by
  have htiles := hinv.tiles
  rw [total_append_cons] at htiles
  have hop : Operated s i live { s with mem := m' } (xs ++ b :: ys) :=
    ⟨fun _ _ => rfl, rfl, rfl, hoff.mono (by omega) (by omega), hinv.write_inside hb hoff⟩
  exact h.operate hi hop fun _ _ => rfl

theorem writeByte {addr : Nat} {v : UInt8} (h : HeapsInv s live)
    (haddr : (∃ ptr n, live ptr = some n ∧ ptr ≤ addr ∧ addr < ptr + n) ∨
      ∀ i, s.Active i → addr < (s.heapList i).base ∨
        (s.heapList i).base + (s.heapList i).size ≤ addr) :
    HeapsInv { s with mem := s.mem.writeByte addr v } live := by
  rcases haddr with ⟨ptr, n, hn, hle, hlt⟩ | hout
  · obtain ⟨i, xs, b, ys, hi, hinv, hused, hptr⟩ := h.exists_block hn
    have hfits := b.used_le n hused
    exact h.write_inside hi hinv (by simp [hused]) (SameOff.writeByte (by omega) (by omega))
  · refine ⟨fun i hi => ?_, h.apart, h.owned⟩
    obtain ⟨bs, hinv⟩ := h.layout i hi
    have h₁ := hinv.placed.base_le_start
    have h₂ := hinv.placed.stop_le
    refine ⟨bs, hinv.congr (Same.writeByte ?_) fun _ _ => rfl⟩
    rcases hout i hi with hlt | hge
    · exact .inr (by omega)
    · exact .inl (by omega)

end HeapsInv

/-! ### The loops without a handle -/

/-- The loops without a handle come to the heap: there is no unused entry before it. -/
def State.Leading (s : State) (i : Nat) : Prop :=
  i < memHeapListNum ∧ ∀ j ≤ i, (s.heapList j).size ≠ 0

instance instDecidableLeading (s : State) (i : Nat) : Decidable (s.Leading i) :=
  inferInstanceAs (Decidable (i < memHeapListNum ∧ ∀ j ≤ i, (s.heapList j).size ≠ 0))

theorem State.Leading.active (h : s.Leading i) : s.Active i := ⟨h.1, h.2 i le_rfl⟩

def State.leading (s : State) (is : List Nat) : List Nat :=
  is.takeWhile fun i => (s.heapList i).size ≠ 0

theorem mem_takeWhile_range' {p : Nat → Bool} {a n : Nat} :
    i ∈ (List.range' a n).takeWhile p ↔ (a ≤ i ∧ i < a + n) ∧ ∀ j, a ≤ j → j ≤ i → p j = true := by
  induction n generalizing a with
  | zero =>
    refine iff_of_false List.not_mem_nil fun h => ?_
    omega
  | succ n ih =>
    rw [List.range'_succ, List.takeWhile_cons]
    split_ifs with ha
    · rw [List.mem_cons, ih]
      constructor
      · rintro (rfl | ⟨hbounds, hall⟩)
        · refine ⟨by omega, fun j hle hge => ?_⟩
          rwa [le_antisymm hge hle]
        · refine ⟨by omega, fun j hle hji => ?_⟩
          by_cases hja : j = a
          · rwa [hja]
          · exact hall j (by omega) hji
      · rintro ⟨hbounds, hall⟩
        by_cases hia : i = a
        · exact .inl hia
        · exact .inr ⟨by omega, fun j hle hji => hall j (by omega) hji⟩
    · refine iff_of_false List.not_mem_nil fun h => ha (h.2 a le_rfl h.1.1)

theorem mem_leading_iff : i ∈ s.leading (List.range memHeapListNum) ↔ s.Leading i := by
  rw [State.leading, List.range_eq_range', mem_takeWhile_range', State.Leading]
  simp

theorem leading_cons_of_eq_zero {is : List Nat} (h : (s.heapList i).size = 0) :
    s.leading (i :: is) = [] :=
  List.takeWhile_cons_of_neg (by simpa using h)

theorem leading_cons_of_ne_zero {is : List Nat} (h : (s.heapList i).size ≠ 0) :
    s.leading (i :: is) = i :: s.leading is :=
  List.takeWhile_cons_of_pos (by simpa using h)

theorem freeAny_eq (ptr : Nat) (is : List Nat) :
    freeAny s ptr is =
      match (s.leading is).find? fun i => (s.heapList i).Holds ptr with
      | none => some s
      | some i => memDeallocate s i ptr := by
  induction is with
  | nil => rfl
  | cons i is ih =>
    rw [freeAny]
    by_cases hsize : (s.heapList i).size = 0
    · rw [if_pos hsize, leading_cons_of_eq_zero hsize]
      rfl
    · rw [if_neg hsize, leading_cons_of_ne_zero hsize]
      by_cases hholds : (s.heapList i).Holds ptr
      · rw [if_pos hholds, List.find?_cons_of_pos (by simpa using hholds)]
      · rw [if_neg hholds, List.find?_cons_of_neg (by simpa using hholds), ih]

/-! ### Allocation -/

def State.Handle (s : State) (handle : Option Nat) : Prop := ∀ i ∈ handle, s.Active i

instance instDecidableHandle (s : State) (handle : Option Nat) : Decidable (s.Handle handle) :=
  inferInstanceAs (Decidable (∀ i ∈ handle, s.Active i))

/-- A request for `size` bytes is served with a pointer, which comes into use for `r` bytes. The
blocks that were in use keep their bytes. -/
structure Served (s : State) (live : Nat → Option Nat) (size r ptr : Nat) (s' : State) :
    Prop where
  ne_zero : ptr ≠ 0
  fresh : live ptr = none
  inv : HeapsInv s' (Function.update live ptr (some r))
  base_eq : ∀ j, (s'.heapList j).base = (s.heapList j).base
  size_eq : ∀ j, (s'.heapList j).size = (s.heapList j).size
  same : ∀ ptr' k, live ptr' = some k → Same s.mem s'.mem (ptr' - memBlockHeadSize)
    (ptr' - memBlockHeadSize + blockSize s.mem (ptr' - memBlockHeadSize))
  block : ∃ i xs b ys, s'.Active i ∧
    Inv s'.mem (s'.heapList i) (Function.update live ptr (some r)) (xs ++ b :: ys) ∧
    b.used = some r ∧ newSize (max size 4) ≤ b.size ∧
    ptr = (s'.heapList i).start + total xs + memBlockHeadSize

/-- A request for `size` bytes is answered with a pointer, which comes into use for `r` bytes. -/
structure Allocated (s : State) (live : Nat → Option Nat) (size r ptr : Nat) (s' : State) :
    Prop where
  ne_zero : ptr ≠ 0
  fresh : live ptr = none
  inv : WorldInv s' (Function.update live ptr (some r))
  base_eq : ∀ j, (s'.heapList j).base = (s.heapList j).base
  size_eq : ∀ j, (s'.heapList j).size = (s.heapList j).size
  header : ∀ ptr' k, live ptr' = some k →
    blockSize s'.mem (ptr' - memBlockHeadSize) = blockSize s.mem (ptr' - memBlockHeadSize)
  block : ∃ i xs b ys, s'.Active i ∧
    Inv s'.mem (s'.heapList i) (Function.update live ptr (some r)) (xs ++ b :: ys) ∧
    b.used ≠ none ∧ newSize (max size 4) ≤ b.size ∧
    ptr = (s'.heapList i).start + total xs + memBlockHeadSize

theorem HeapsInv.blockSize_eq {ptr n : Nat} (h : HeapsInv s live) (hlive : live ptr = some n)
    (hsame : Same s.mem m' (ptr - memBlockHeadSize)
      (ptr - memBlockHeadSize + blockSize s.mem (ptr - memBlockHeadSize))) :
    blockSize m' (ptr - memBlockHeadSize) = blockSize s.mem (ptr - memBlockHeadSize) := by
  obtain ⟨i, xs, b, ys, -, hinv, -, rfl⟩ := h.exists_block hlive
  have hle := b.le_size
  rw [Nat.add_sub_cancel] at hsame ⊢
  refine readWord_congr hsame le_rfl ?_
  rw [hinv.laid.middle.size]
  omega

theorem Served.allocated {size r ptr : Nat} {s' : State} (h : Served s live size r ptr s')
    (hinv : WorldInv s live) : Allocated s live size r ptr s' where
  ne_zero := h.ne_zero
  fresh := h.fresh
  inv := hinv.of_heaps h.inv h.size_eq
  base_eq := h.base_eq
  size_eq := h.size_eq
  header ptr' k hlive := hinv.heaps.blockSize_eq hlive (h.same ptr' k hlive)
  block := by
    obtain ⟨i, xs, b, ys, hi, hblock, hused, hle, hptr⟩ := h.block
    exact ⟨i, xs, b, ys, hi, hblock, by simp [hused], hle, hptr⟩

namespace HeapsInv

theorem memAllocate {size r : Nat} (h : HeapsInv s live) (hi : s.Active i)
    (hsize : size < 4294967296) (hr : r ≤ max size 4) :
    memAllocate s i size = some (0, s) ∨
      ∃ ptr s', memAllocate s i size = some (ptr, s') ∧ Served s live size r ptr s' := by
  obtain ⟨bs, hinv⟩ := h.layout i hi
  refine (memAllocate_spec hinv hsize hr).imp_right ?_
  rintro ⟨xs, b, ys, s', heq, hused, hle, hfresh, -, hop⟩
  have hhead : memBlockHeadSize = 4 := rfl
  have hstart : (s'.heapList i).start = (s.heapList i).start := by
    rw [Heap.start, Heap.start, hop.base_eq]
  have hholds : (s.heapList i).Holds ((s.heapList i).start + total xs + memBlockHeadSize) := by
    have hin := hop.inv.holds_block
    rwa [hstart, Heap.Holds, hop.base_eq, hop.size_eq] at hin
  refine ⟨_, s', heq, by omega, hfresh, h.operate hi hop fun ptr hptr => ?_, hop.base_eq_all,
    hop.size_eq_all, fun ptr k hlive => ?_, i, xs, b, ys, ?_, hop.inv, hused, hle, ?_⟩
  · refine Function.update_of_ne (fun heq => hptr ?_) _ _
    rwa [heq]
  · refine h.same_block hi hinv hop
      (memAllocate_keeps hinv hsize heq (ptr - memBlockHeadSize + 1)) hlive (by omega)
  · exact ⟨hi.1, by rw [hop.size_eq]; exact hi.2⟩
  · rw [hstart]

theorem mallocAny {size r : Nat} (h : HeapsInv s live) (hsize : size < 4294967296)
    (hr : r ≤ max size 4) {is : List Nat} (his : ∀ i ∈ is, i < memHeapListNum) :
    (mallocAny s size is = some (0, s) ∧ ∀ i ∈ s.leading is,
        u32 (size + memBlockMinSize) < (s.heapList i).free →
          MemHeap.memAllocate s i size = some (0, s)) ∨
      ∃ i ∈ s.leading is, u32 (size + memBlockMinSize) < (s.heapList i).free ∧
        ∃ ptr s', MemHeap.memAllocate s i size = some (ptr, s') ∧
          MemHeap.mallocAny s size is = some (ptr, s') ∧ Served s live size r ptr s' := by
  induction is with
  | nil => exact .inl ⟨rfl, fun i hi => absurd hi List.not_mem_nil⟩
  | cons i is ih =>
    obtain ⟨hi, his⟩ := List.forall_mem_cons.1 his
    rw [MemHeap.mallocAny]
    by_cases hzero : (s.heapList i).size = 0
    · rw [if_pos hzero, leading_cons_of_eq_zero hzero]
      exact .inl ⟨rfl, fun i hi => absurd hi List.not_mem_nil⟩
    rw [if_neg hzero, leading_cons_of_ne_zero hzero]
    by_cases hfits : u32 (size + memBlockMinSize) < (s.heapList i).free
    · rw [if_pos hfits]
      rcases h.memAllocate ⟨hi, hzero⟩ hsize hr with heq | ⟨ptr, s', heq, hserved⟩
      · rw [heq]
        refine (ih his).imp ?_ ?_
        · rintro ⟨hnull, hall⟩
          exact ⟨hnull, List.forall_mem_cons.2 ⟨fun _ => heq, hall⟩⟩
        · rintro ⟨j, hj, hserves⟩
          exact ⟨j, List.mem_cons_of_mem i hj, hserves⟩
      · right
        refine ⟨i, List.mem_cons_self, hfits, ptr, s', heq, ?_, hserved⟩
        rw [heq]
        exact if_pos hserved.ne_zero
    · rw [if_neg hfits]
      refine (ih his).imp ?_ ?_
      · rintro ⟨hnull, hall⟩
        exact ⟨hnull, List.forall_mem_cons.2 ⟨fun hlt => absurd hlt hfits, hall⟩⟩
      · rintro ⟨j, hj, hserves⟩
        exact ⟨j, List.mem_cons_of_mem i hj, hserves⟩

theorem malloc {size r : Nat} {handle : Option Nat} (h : HeapsInv s live)
    (hhandle : s.Handle handle) (hsize : size < 4294967296) (hr : r ≤ max size 4) :
    tuyaMemHeapMalloc s handle size = some (0, s) ∨
      ∃ i ptr s', s.Active i ∧ MemHeap.memAllocate s i size = some (ptr, s') ∧
        tuyaMemHeapMalloc s handle size = some (ptr, s') ∧ Served s live size r ptr s' := by
  cases handle with
  | some i =>
    refine (h.memAllocate (hhandle i rfl) hsize hr).imp_right ?_
    rintro ⟨ptr, s', heq, hserved⟩
    exact ⟨i, ptr, s', hhandle i rfl, heq, heq, hserved⟩
  | none =>
    refine (h.mallocAny hsize hr fun i hi => List.mem_range.1 hi).imp And.left ?_
    rintro ⟨i, hi, -, ptr, s', hone, heq, hserved⟩
    exact ⟨i, ptr, s', (mem_leading_iff.1 hi).active, hone, heq, hserved⟩

end HeapsInv

theorem WorldInv.malloc {size r : Nat} {handle : Option Nat} (h : WorldInv s live)
    (hhandle : s.Handle handle) (hsize : size < 4294967296) (hr : r ≤ max size 4) :
    tuyaMemHeapMalloc s handle size = some (0, s) ∨
      ∃ ptr s', tuyaMemHeapMalloc s handle size = some (ptr, s') ∧
        Allocated s live size r ptr s' := by
  refine (h.heaps.malloc hhandle hsize hr).imp_right ?_
  rintro ⟨-, ptr, s', -, -, heq, hserved⟩
  exact ⟨ptr, s', heq, hserved.allocated h⟩

/-! ### Release -/

def State.Owns (s : State) (handle : Option Nat) (ptr : Nat) : Prop :=
  ∀ i ∈ handle, s.Active i ∧ (s.heapList i).Holds ptr

instance instDecidableOwns (s : State) (handle : Option Nat) (ptr : Nat) :
    Decidable (s.Owns handle ptr) :=
  inferInstanceAs (Decidable (∀ i ∈ handle, s.Active i ∧ (s.heapList i).Holds ptr))

/-- With a handle, or the loop of `tuya_mem_heap_free` comes to the heap of the pointer. -/
def State.Reaches (s : State) (handle : Option Nat) (ptr : Nat) : Prop :=
  handle = none → ∀ i, s.Active i → (s.heapList i).Holds ptr → s.Leading i

/-- A pointer is given back. The other blocks in use keep their bytes. -/
structure Released (s : State) (live : Nat → Option Nat) (ptr : Nat) (s' : State) : Prop where
  inv : HeapsInv s' (Function.update live ptr none)
  base_eq : ∀ j, (s'.heapList j).base = (s.heapList j).base
  size_eq : ∀ j, (s'.heapList j).size = (s.heapList j).size
  same : ∀ ptr' k, ptr' ≠ ptr → live ptr' = some k → Same s.mem s'.mem (ptr' - memBlockHeadSize)
    (ptr' - memBlockHeadSize + blockSize s.mem (ptr' - memBlockHeadSize))

theorem HeapsInv.memDeallocate {ptr n : Nat} (h : HeapsInv s live) (hi : s.Active i)
    (hholds : (s.heapList i).Holds ptr) (hlive : live ptr = some n) :
    ∃ s', memDeallocate s i ptr = some s' ∧ Released s live ptr s' := by
  obtain ⟨bs, hinv⟩ := h.layout i hi
  obtain ⟨xs, b, ys, rfl, hused, hptr⟩ := hinv.exists_block hholds hlive
  have hb : b.used ≠ none := by simp [hused]
  obtain ⟨s', bs', heq, hop⟩ := memDeallocate_spec hinv hb hptr
  refine ⟨s', heq, h.operate hi hop fun ptr' hptr' => Function.update_of_ne (fun hne => ?_) _ _,
    hop.base_eq_all, hop.size_eq_all, fun ptr' k hne hlive' => ?_⟩
  · exact hptr' (hne ▸ hholds)
  · refine h.same_block hi hinv hop (memDeallocate_keeps hinv hb hptr heq) hlive' ?_
    obtain ⟨j, xs', b', ys', -, hinv', -, hptr'⟩ := h.exists_block hlive'
    have hstart := hinv'.placed.start_ne
    omega

theorem HeapsInv.free_of_reaches {ptr n : Nat} {handle : Option Nat} (h : HeapsInv s live)
    (howns : s.Owns handle ptr) (hreaches : s.Reaches handle ptr) (hlive : live ptr = some n) :
    ∃ s', tuyaMemHeapFree s handle ptr = some s' ∧ Released s live ptr s' ∧
      ∀ i, s.Active i → (s.heapList i).Holds ptr → MemHeap.memDeallocate s i ptr = some s' := by
  obtain ⟨i, hi, hholds⟩ := h.owned ptr n hlive
  obtain ⟨s', heq, hreleased⟩ := h.memDeallocate hi hholds hlive
  refine ⟨s', ?_, hreleased, fun j hj hholds' => ?_⟩
  · cases handle with
    | some j =>
      obtain ⟨hj, hholds'⟩ := howns j rfl
      rw [h.eq_of_holds hi hholds hj hholds']
      exact heq
    | none =>
      rw [tuyaMemHeapFree, freeAny_eq]
      cases hfind : (s.leading (List.range memHeapListNum)).find?
          fun i => (s.heapList i).Holds ptr with
      | none =>
        have hnot := List.find?_eq_none.1 hfind i (mem_leading_iff.2 (hreaches rfl i hi hholds))
        exact absurd hholds (by simpa using hnot)
      | some j =>
        have hj := (mem_leading_iff.1 (List.mem_of_find?_eq_some hfind)).active
        have hholds' : (s.heapList j).Holds ptr := by simpa using List.find?_some hfind
        rw [h.eq_of_holds hi hholds hj hholds']
        exact heq
  · rw [h.eq_of_holds hi hholds hj hholds']
    exact heq

theorem HeapsInv.free_of_not_reaches {ptr : Nat} {handle : Option Nat} (h : HeapsInv s live)
    (hreaches : ¬s.Reaches handle ptr) : tuyaMemHeapFree s handle ptr = some s := by
  obtain ⟨rfl, hrest⟩ := Classical.not_imp.1 hreaches
  simp only [not_forall] at hrest
  obtain ⟨i, hi, hholds, hleading⟩ := hrest
  rw [tuyaMemHeapFree, freeAny_eq]
  cases hfind : (s.leading (List.range memHeapListNum)).find?
      fun i => (s.heapList i).Holds ptr with
  | none => rfl
  | some j =>
    have hj := mem_leading_iff.1 (List.mem_of_find?_eq_some hfind)
    have hholds' : (s.heapList j).Holds ptr := by simpa using List.find?_some hfind
    rw [h.eq_of_holds hi hholds hj.active hholds'] at hj
    exact absurd hj hleading

theorem freeAny_zero (is : List Nat) : freeAny s 0 is = some s := by
  induction is with
  | nil => rfl
  | cons i is ih =>
    have hne : ¬(s.heapList i).Holds 0 := fun hholds => Nat.not_lt_zero _ hholds.1
    rw [freeAny, if_neg hne, ih, ite_self]

theorem tuyaMemHeapFree_zero (handle : Option Nat) : tuyaMemHeapFree s handle 0 = some s := by
  cases handle with
  | some i =>
    show memDeallocate s i 0 = some s
    rw [MemHeap.memDeallocate, if_pos rfl]
  | none => exact freeAny_zero _

theorem WorldInv.leading (h : WorldInv s live) (hi : s.Active i) : s.Leading i := by
  refine ⟨hi.1, fun j hj => ?_⟩
  rcases Nat.lt_or_eq_of_le hj with hlt | rfl
  · exact (h.before i hi j hlt).2
  · exact hi.2

theorem WorldInv.reaches (h : WorldInv s live) (handle : Option Nat) (ptr : Nat) :
    s.Reaches handle ptr :=
  fun _ _ hi _ => h.leading hi

theorem WorldInv.free {ptr n : Nat} {handle : Option Nat} (h : WorldInv s live)
    (howns : s.Owns handle ptr) (hlive : live ptr = some n) :
    ∃ s', tuyaMemHeapFree s handle ptr = some s' ∧
      WorldInv s' (Function.update live ptr none) := by
  obtain ⟨s', heq, hreleased, -⟩ := h.heaps.free_of_reaches howns (h.reaches handle ptr) hlive
  exact ⟨s', heq, h.of_heaps hreleased.inv hreleased.size_eq⟩

/-! ### Reallocation -/

theorem reaches_congr {s' : State} (hbase : ∀ j, (s'.heapList j).base = (s.heapList j).base)
    (hsize : ∀ j, (s'.heapList j).size = (s.heapList j).size) (handle : Option Nat) (ptr : Nat) :
    s'.Reaches handle ptr ↔ s.Reaches handle ptr := by
  simp only [State.Reaches, State.Leading, Heap.Holds, State.Active, hbase, hsize]

/-- The bytes of a block in use are copied to a new one, before the block is given back. -/
structure Moved (s : State) (live : Nat → Option Nat) (ptr n size ptr' : Nat) (c : State) :
    Prop where
  ne_zero : ptr' ≠ 0
  fresh : live ptr' = none
  inv : HeapsInv c (Function.update live ptr' (some size))
  base_eq : ∀ j, (c.heapList j).base = (s.heapList j).base
  size_eq : ∀ j, (c.heapList j).size = (s.heapList j).size
  copied : ∀ k < n, c.mem (ptr' + k) = s.mem (ptr + k)

theorem Moved.ne {ptr n size ptr' : Nat} {c : State} (h : Moved s live ptr n size ptr' c)
    (hlive : live ptr = some n) : ptr' ≠ ptr := by
  rintro rfl
  rw [h.fresh] at hlive
  cases hlive

theorem Moved.live_eq {ptr n size ptr' : Nat} {c : State} (h : Moved s live ptr n size ptr' c)
    (hlive : live ptr = some n) : Function.update live ptr' (some size) ptr = some n :=
  (Function.update_of_ne (h.ne hlive).symm _ _).trans hlive

theorem Served.moved {size r ptr ptr' n : Nat} {s' : State} (h : Served s live size r ptr' s')
    (hinv : HeapsInv s live) (hlive : live ptr = some n)
    (hsize : blockSize s.mem (ptr - memBlockHeadSize) < newSize (max size 4)) :
    Moved s live ptr n r ptr' { s' with
      mem := s'.mem.copy ptr' ptr
        (blockSize s'.mem (ptr - memBlockHeadSize) - memBlockHeadSize) } := by
  have hsame := h.same ptr n hlive
  rw [hinv.blockSize_eq hlive hsame]
  obtain ⟨i, xs, b, ys, hi, hinv', hused, hle, hptr'⟩ := h.block
  obtain ⟨j, xs₀, b₀, ys₀, hj, hinv₀, hused₀, rfl⟩ := hinv.exists_block hlive
  have hle' := b.le_size
  have hfits := b₀.used_le n hused₀
  have hhead : memBlockHeadSize = 4 := rfl
  rw [Nat.add_sub_cancel, hinv₀.laid.middle.size] at hsize hsame ⊢
  have hoff : SameOff s'.mem
      (s'.mem.copy ptr' ((s.heapList j).start + total xs₀ + memBlockHeadSize)
        (b₀.size - memBlockHeadSize))
      ((s'.heapList i).start + total xs + memBlockHeadSize)
      ((s'.heapList i).start + total xs + b.size - 1) := SameOff.copy (by omega) (by omega)
  refine ⟨h.ne_zero, h.fresh, h.inv.write_inside hi hinv' (by simp [hused]) hoff, h.base_eq,
    h.size_eq, fun k hk => ?_⟩
  have hsrc := hsame ((s.heapList j).start + total xs₀ + memBlockHeadSize + k) (by omega)
    (by omega)
  rw [← hsrc]
  dsimp only [Memory.copy]
  rw [if_pos (by omega), Nat.add_sub_cancel_left]

theorem HeapsInv.realloc_eq {size ptr n : Nat} {handle : Option Nat} (h : HeapsInv s live)
    (hptr : ptr ≠ 0) (hlive : live ptr = some n) :
    tuyaMemHeapRealloc s handle ptr size =
      if newSize (max size 4) ≤ blockSize s.mem (ptr - memBlockHeadSize) then some (ptr, s)
      else
        match tuyaMemHeapMalloc s handle (max size 4) with
        | none => none
        | some (tmp, s) =>
          if tmp = 0 then some (0, s)
          else
            match tuyaMemHeapFree { s with
                mem := s.mem.copy tmp ptr
                  (blockSize s.mem (ptr - memBlockHeadSize) - memBlockHeadSize) } handle ptr with
            | none => none
            | some s => some (tmp, s) := by
  obtain ⟨i, xs, b, ys, -, hinv, hused, hptr'⟩ := h.exists_block hlive
  have hat := hinv.laid.middle
  have hblock : ptr - memBlockHeadSize = (s.heapList i).start + total xs := by
    rw [hptr', Nat.add_sub_cancel]
  rw [tuyaMemHeapRealloc, if_neg hptr]
  dsimp only
  rw [hblock, memDogAddr_eq hat, hat.tag, Block.tag_of_used (by simp [hused])]
  exact if_neg fun hne => hne rfl

theorem HeapsInv.blockSize_lt {ptr n : Nat} (h : HeapsInv s live) (hlive : live ptr = some n) :
    blockSize s.mem (ptr - memBlockHeadSize) < 4294967292 := by
  obtain ⟨i, xs, b, ys, -, hinv, -, rfl⟩ := h.exists_block hlive
  have htiles := hinv.tiles
  have hstop := hinv.placed.stop_lt
  have hstart := hinv.placed.start_ne
  have hdvd := hinv.placed.dvd_start
  rw [total_append_cons] at htiles
  rw [Nat.add_sub_cancel, hinv.laid.middle.size]
  omega

theorem HeapsInv.realloc_of_wrap {size ptr n : Nat} {handle : Option Nat} (h : HeapsInv s live)
    (hptr : ptr ≠ 0) (hlive : live ptr = some n) (hsize : 4294967288 ≤ size)
    (hlt : size < 4294967296) :
    tuyaMemHeapRealloc s handle ptr size = some (ptr, s) := by
  rw [h.realloc_eq hptr hlive]
  refine if_pos ((newSize_le_of_le (by omega) (max_lt hlt (by decide))).trans ?_)
  obtain ⟨i, xs, b, ys, -, hinv, -, rfl⟩ := h.exists_block hlive
  have hle := b.le_size
  rw [Nat.add_sub_cancel, hinv.laid.middle.size]
  omega

theorem HeapsInv.resize {size ptr n : Nat} (h : HeapsInv s live) (hlive : live ptr = some n)
    (hsize : size < 4294967288)
    (hfits : newSize (max size 4) ≤ blockSize s.mem (ptr - memBlockHeadSize)) :
    HeapsInv s (Function.update live ptr (some size)) := by
  obtain ⟨i, xs, b, ys, hi, hinv, hused, rfl⟩ := h.exists_block hlive
  have hhead : memBlockHeadSize = 4 := rfl
  have hnew := newSize_of_lt (max_lt hsize (by decide) : max size 4 < 4294967288)
  rw [Nat.add_sub_cancel, hinv.laid.middle.size] at hfits
  have hresized := hinv.resize (by simp [hused])
    (show memBlockHeadSize + size + 1 ≤ b.size by omega)
  have hop := Operated.mk (s := s) (i := i) (fun _ _ => rfl) rfl rfl SameOff.refl hresized
  refine h.operate hi hop fun ptr' hout => Function.update_of_ne (fun hne => hout ?_) _ _
  rw [hne]
  exact hinv.holds_block

/-- `tuya_mem_heap_realloc` of a pointer in use, when the size of the new block does not wrap: the
block is large enough, or there is no new one, or the bytes are copied to a new one. -/
theorem HeapsInv.realloc {size ptr n : Nat} {handle : Option Nat} (h : HeapsInv s live)
    (hhandle : s.Handle handle) (hptr : ptr ≠ 0) (hlive : live ptr = some n)
    (hsize : size < 4294967288) :
    (newSize (max size 4) ≤ blockSize s.mem (ptr - memBlockHeadSize) ∧
        tuyaMemHeapRealloc s handle ptr size = some (ptr, s) ∧
        HeapsInv s (Function.update live ptr (some size))) ∨
      blockSize s.mem (ptr - memBlockHeadSize) < newSize (max size 4) ∧
        (tuyaMemHeapMalloc s handle (max size 4) = some (0, s) ∧
            tuyaMemHeapRealloc s handle ptr size = some (0, s) ∨
          ∃ ptr' s' c, tuyaMemHeapMalloc s handle (max size 4) = some (ptr', s') ∧
            Moved s live ptr n size ptr' c ∧ ∀ s'', tuyaMemHeapFree c handle ptr = some s'' →
              tuyaMemHeapRealloc s handle ptr size = some (ptr', s'')) := by
  rw [h.realloc_eq hptr hlive]
  by_cases hfits : newSize (max size 4) ≤ blockSize s.mem (ptr - memBlockHeadSize)
  · exact .inl ⟨hfits, if_pos hfits, h.resize hlive hsize hfits⟩
  · rw [if_neg hfits]
    refine .inr ⟨not_le.1 hfits, ?_⟩
    rcases h.malloc hhandle (max_lt (by omega) (by decide) : max size 4 < 4294967296)
      (show size ≤ max (max size 4) 4 by omega) with heq | ⟨-, ptr', s', -, -, heq, hserved⟩
    · rw [heq]
      exact .inl ⟨rfl, rfl⟩
    · right
      refine ⟨ptr', s', _, heq, hserved.moved h hlive ?_, fun s'' hfree => ?_⟩
      · rw [max_assoc, max_self]
        exact not_le.1 hfits
      · rw [heq]
        dsimp only
        rw [if_neg hserved.ne_zero, hfree]

theorem Moved.free {ptr n size ptr' : Nat} {c : State} {handle : Option Nat}
    (h : Moved s live ptr n size ptr' c) (howns : s.Owns handle ptr)
    (hreaches : s.Reaches handle ptr) (hlive : live ptr = some n) :
    ∃ s'', tuyaMemHeapFree c handle ptr = some s'' ∧
      Released c (Function.update live ptr' (some size)) ptr s'' := by
  have howns' : c.Owns handle ptr := by
    intro j hj
    obtain ⟨hactive, hholds⟩ := howns j hj
    refine ⟨(active_iff_of_size_eq h.size_eq j).2 hactive, ?_⟩
    rwa [Heap.Holds, h.base_eq, h.size_eq]
  obtain ⟨s'', heq, hreleased, -⟩ := h.inv.free_of_reaches howns'
    ((reaches_congr h.base_eq h.size_eq handle ptr).2 hreaches)
    (h.live_eq hlive)
  exact ⟨s'', heq, hreleased⟩

theorem WorldInv.realloc {size ptr n : Nat} {handle : Option Nat} (h : WorldInv s live)
    (hhandle : s.Handle handle) (hptr : ptr ≠ 0) (howns : s.Owns handle ptr)
    (hlive : live ptr = some n) (hsize : size < 4294967288) :
    ∃ ptr' s', tuyaMemHeapRealloc s handle ptr size = some (ptr', s') ∧
      WorldInv s' (if ptr' = 0 then live
        else Function.update (Function.update live ptr none) ptr' (some size)) := by
  rcases h.heaps.realloc hhandle hptr hlive hsize with
    ⟨-, heq, hinv⟩ | ⟨-, ⟨-, heq⟩ | ⟨ptr', s', c, -, hmoved, heq⟩⟩
  · refine ⟨ptr, s, heq, ?_⟩
    rw [if_neg hptr, Function.update_idem]
    exact h.of_heaps hinv fun _ => rfl
  · exact ⟨0, s, heq, h⟩
  · obtain ⟨s'', hfree, hreleased⟩ := hmoved.free howns (h.reaches handle ptr) hlive
    refine ⟨ptr', s'', heq s'' hfree, ?_⟩
    rw [if_neg hmoved.ne_zero, Function.update_comm (hmoved.ne hlive).symm]
    exact h.of_heaps hreleased.inv fun j => (hreleased.size_eq j).trans (hmoved.size_eq j)

/-! ### Creation -/

@[simp] theorem setHeap_self : (s.setHeap i heap).heapList i = heap := Function.update_self _ _ _

theorem setHeap_of_ne {j : Nat} (h : j ≠ i) : (s.setHeap i heap).heapList j = s.heapList j :=
  Function.update_of_ne h _ _

theorem HeapsInv.insert {heap' : Heap} {k k' : Nat} (h : HeapsInv s live)
    (hunused : (s.heapList i).size = 0) (hoff : SameOff s.mem m' heap'.start heap'.stop)
    (hinv : ∀ live : Nat → Option Nat, (∀ p, heap'.Holds p → live p = none) →
      ∃ b, Inv m' heap' live [b])
    (hapart : ∀ j, s.Active j → (s.heapList j).Apart heap') :
    HeapsInv ⟨m', Function.update s.heapList i heap', k, k'⟩ live := by
  set s' : State := ⟨m', Function.update s.heapList i heap', k, k'⟩ with hs'
  have hself : s'.heapList i = heap' := Function.update_self _ _ _
  have hother (j : Nat) (hj : j ≠ i) : s'.heapList j = s.heapList j :=
    Function.update_of_ne hj _ _
  have hold (j : Nat) (hj : s.Active j) : j ≠ i := by
    rintro rfl
    exact hj.2 hunused
  have hactive (j : Nat) (hj : j ≠ i) : s'.Active j ↔ s.Active j := by
    rw [State.Active, State.Active, hother j hj]
  obtain ⟨b, hinv'⟩ := hinv live fun p hp => by
    by_contra hne
    obtain ⟨n, hn⟩ := Option.ne_none_iff_exists'.1 hne
    obtain ⟨j, hj, hholds⟩ := h.owned p n hn
    exact (hapart j hj).not_holds hholds hp
  refine ⟨fun j hj => ?_, fun j l hj hl hne => ?_, fun p n hp => ?_⟩
  · by_cases hji : j = i
    · rw [hji, hself]
      exact ⟨[b], hinv'⟩
    · rw [hactive j hji] at hj
      obtain ⟨bsj, hinvj⟩ := h.layout j hj
      have h₁ := hinv'.placed.base_le_start
      have h₂ := hinv'.placed.stop_le
      have h₃ := hinvj.placed.base_le_start
      have h₄ := hinvj.placed.stop_le
      rw [hother j hji]
      refine ⟨bsj, hinvj.congr (hoff.same ?_) fun _ _ => rfl⟩
      rcases hapart j hj with hlt | hlt
      · exact Or.inl (by omega)
      · exact Or.inr (by omega)
  · by_cases hji : j = i
    · subst hji
      have hl' := (hactive l hne.symm).1 hl
      rw [hself, hother l hne.symm]
      exact (hapart l hl').symm
    · have hj' := (hactive j hji).1 hj
      rw [hother j hji]
      by_cases hli : l = i
      · rw [hli, hself]
        exact hapart j hj'
      · rw [hother l hli]
        exact h.apart j l hj' ((hactive l hli).1 hl) hne
  · obtain ⟨j, hj, hholds⟩ := h.owned p n hp
    refine ⟨j, (hactive j (hold j hj)).2 hj, ?_⟩
    rwa [hother j (hold j hj)]

theorem HeapsInv.restrict {s' : State} {live' : Nat → Option Nat} (h : HeapsInv s live)
    (hmem : s'.mem = s.mem)
    (hactive : ∀ j, s'.Active j → s.Active j ∧ s'.heapList j = s.heapList j)
    (hlive : ∀ j ptr, s'.Active j → (s.heapList j).Holds ptr → live' ptr = live ptr)
    (howned : ∀ ptr n, live' ptr = some n → ∃ j, s'.Active j ∧ (s.heapList j).Holds ptr) :
    HeapsInv s' live' := by
  refine ⟨fun j hj => ?_, fun j k hj hk hne => ?_, fun ptr n hptr => ?_⟩
  · obtain ⟨hj', heq⟩ := hactive j hj
    obtain ⟨bs, hinv⟩ := h.layout j hj'
    rw [hmem, heq]
    exact ⟨bs, hinv.congr Same.refl fun ptr hptr => hlive j ptr hj hptr⟩
  · rw [(hactive j hj).2, (hactive k hk).2]
    exact h.apart j k (hactive j hj).1 (hactive k hk).1 hne
  · obtain ⟨j, hj, hholds⟩ := howned ptr n hptr
    refine ⟨j, hj, ?_⟩
    rwa [(hactive j hj).2]

/-- The region of a new heap is an object of the address space that goes up to an aligned address,
and it is apart from the other heaps. -/
structure State.Free (s : State) (ptr size : Nat) : Prop where
  end_lt : ptr + size < 4294967296
  aligned_le : (ptr + 3) / 4 * 4 ≤ ptr + size
  apart : ∀ i, s.Active i → (s.heapList i).base + (s.heapList i).size ≤ ptr ∨
    ptr + size ≤ (s.heapList i).base

/-- `tuya_mem_heap_create` does nothing but note the address of a region that is too small, or the
region becomes the first entry of the list that is not in use. -/
theorem tuyaMemHeapCreate_cases {ptr size : Nat} (h : s.Free ptr size) :
    (tuyaMemHeapCreate s ptr size).2 = s ∨
      ∃ i, i < memHeapListNum ∧ (s.heapList i).size = 0 ∧
        (∀ j < i, (s.heapList j).size ≠ 0) ∧
        ((tuyaMemHeapCreate s ptr size).2 =
            s.setHeap i { s.heapList i with base := ptr } ∨
          ∃ m' heap', heap'.Placed ∧ heap'.base = ptr ∧ heap'.size = size ∧
            SameOff s.mem m' heap'.start heap'.stop ∧
            (∀ live : Nat → Option Nat, (∀ p, heap'.Holds p → live p = none) →
              ∃ b, Inv m' heap' live [b]) ∧
            (tuyaMemHeapCreate s ptr size).2 =
              { mem := m'
                heapList := Function.update s.heapList i heap'
                heapFreeSize := u32 (s.heapFreeSize + heap'.free)
                heapFreeSizeWatermark := u32 (s.heapFreeSize + heap'.free) }) := by
  rw [tuyaMemHeapCreate, memHeapCreate]
  split_ifs with hnull
  · exact .inl rfl
  cases hentry : unusedEntry s with
  | none => exact .inl rfl
  | some i =>
    right
    obtain ⟨hunused, hi, hbefore⟩ := List.find?_range_eq_some.1 hentry
    have hzero : (s.heapList i).size = 0 := of_decide_eq_true hunused
    refine ⟨i, List.mem_range.1 hi, hzero, fun j hj => by simpa using hbefore j hj, ?_⟩
    dsimp only
    by_cases hroom : (ptr + 3) / 4 * 4 + 28 ≤ (ptr + size) / 4 * 4
    · right
      have hplaced : Heap.Placed { s.heapList i with base := ptr, size := size } :=
        ⟨fun hzero => hnull (Or.inl hzero), hroom, h.end_lt⟩
      obtain ⟨m', heap', heq, hbase, hsize, hoff, hinv⟩ := memHeapInit_eq hplaced
      rw [heq]
      refine ⟨m', heap', ⟨?_, ?_, ?_⟩, hbase, hsize, hoff, hinv, rfl⟩
      · rw [hbase]
        exact hplaced.base_ne
      · rw [hbase, hsize]
        exact hroom
      · rw [hbase, hsize]
        exact h.end_lt
    · left
      have hlen : alignDown (u32Sub size (u32Sub (alignUp ptr) ptr)) < memHeapMinSize := by
        have hlt := h.end_lt
        have hle := h.aligned_le
        have hmin : memHeapMinSize = 28 := rfl
        have hpad : u32Sub ((ptr + 3) / 4 * 4) ptr = (ptr + 3) / 4 * 4 - ptr :=
          u32Sub_of_le (by omega) (by omega)
        rw [alignUp_eq (by omega), hpad, u32Sub_of_le (by omega) (by omega),
          alignDown_eq (by omega)]
        omega
      rw [memHeapInit, if_pos hlen]
      simp [State.setHeap, ← hzero]

theorem HeapsInv.create {ptr size : Nat} (h : HeapsInv s live) (hfree : s.Free ptr size) :
    HeapsInv (tuyaMemHeapCreate s ptr size).2 live := by
  rcases tuyaMemHeapCreate_cases hfree with heq | ⟨i, hi, hunused, -, heq | hcreated⟩
  · rwa [heq]
  · have hsame (j : Nat) (hj : s.Active j) :
        (s.setHeap i { s.heapList i with base := ptr }).heapList j = s.heapList j := by
      refine setHeap_of_ne ?_
      rintro rfl
      exact hj.2 hunused
    have hactive (j : Nat) : (s.setHeap i { s.heapList i with base := ptr }).Active j ↔
        s.Active j := by
      refine active_iff_of_size_eq (fun k => ?_) j
      by_cases hk : k = i
      · rw [hk, setHeap_self]
      · rw [setHeap_of_ne hk]
    rw [heq]
    refine h.restrict rfl (fun j hj => ⟨(hactive j).1 hj, hsame j ((hactive j).1 hj)⟩)
      (fun _ _ _ _ => rfl) fun p n hp => ?_
    obtain ⟨j, hj, hholds⟩ := h.owned p n hp
    exact ⟨j, (hactive j).2 hj, hholds⟩
  · obtain ⟨m', heap', hplaced, hbase, hsize, hoff, hinv, heq⟩ := hcreated
    rw [heq]
    refine h.insert hunused hoff hinv fun j hj => ?_
    rw [Heap.Apart, hbase, hsize]
    exact hfree.apart j hj

theorem WorldInv.create {ptr size : Nat} (h : WorldInv s live)
    (hsize : memHeapMinSize + memAlignNum ≤ size) (hlt : ptr + size < 4294967296)
    (hapart : ∀ i, s.Active i → (s.heapList i).base + (s.heapList i).size ≤ ptr ∨
      ptr + size ≤ (s.heapList i).base) :
    WorldInv (tuyaMemHeapCreate s ptr size).2 live := by
  have hmin : memHeapMinSize + memAlignNum = 32 := rfl
  have hfree : s.Free ptr size := ⟨hlt, by omega, hapart⟩
  have hheaps := h.heaps.create hfree
  refine ⟨hheaps.layout, hheaps.apart, ?_, hheaps.owned⟩
  rcases tuyaMemHeapCreate_cases hfree with heq | ⟨i, hi, hunused, hbefore, hcases⟩
  · rw [heq]
    exact h.before
  -- The heaps are the ones before, and perhaps the first entry that was not in use.
  have hactive (j : Nat) (hj : j ≠ i) :
      (tuyaMemHeapCreate s ptr size).2.Active j ↔ s.Active j := by
    rw [State.Active, State.Active]
    rcases hcases with heq | ⟨m', heap', -, -, -, -, -, heq⟩
    · rw [heq, setHeap_of_ne hj]
    · rw [heq]
      dsimp only
      rw [Function.update_of_ne hj]
  intro j hj k hk
  by_cases hji : j = i
  · subst hji
    rw [hactive k (Nat.ne_of_lt hk)]
    exact ⟨hk.trans hi, hbefore k hk⟩
  · have hsj := (hactive j hji).1 hj
    have hne : k ≠ i := by
      rintro rfl
      exact (h.before j hsj k hk).2 hunused
    rw [hactive k hne]
    exact h.before j hsj k hk

end TuyaOpen.MemHeap
