import TuyaOpen.Utilities.MemHeapSound

/-!
# The registry of the memory heaps

`tuya_mem_heap_delete` clears an entry of `mem_heap_list`. It leaves the counter of the free bytes
of all heaps alone, and the loops of `tuya_mem_heap_malloc` and `tuya_mem_heap_free` without a
handle stop at the entry, so that they do not come to the heaps behind it.

A free without a handle that does not come to the heap of its pointer does nothing. The block then
stays in use though the user has given it back. The invariant has such blocks in use.
-/

namespace TuyaOpen.MemHeap

open Memory

variable {m m' : Memory} {heap : Heap} {live : Nat → Option Nat} {bs : List Block} {s : State}
  {i a : Nat}

/-! ### Deletion -/

/-- `MEM_HeapDelete`. -/
def memHeapDelete (s : State) (i : Nat) : State := s.setHeap i ⟨0, 0, 0, 0, 0⟩

/-- `tuya_mem_heap_delete`. -/
def tuyaMemHeapDelete (s : State) (handle : Option Nat) : State :=
  match handle with
  | none => s
  | some i => memHeapDelete s i

/-- What happens to the heaps: an event as before, or the deletion of a heap. -/
inductive HeapEvent where
  | call (ev : Event)
  | delete (handle : Option Nat)
  deriving DecidableEq, Repr

def heapStep (w : World) : HeapEvent → Option World
  | .call ev => step w ev
  | .delete none => some w
  | .delete (some i) =>
    some ⟨tuyaMemHeapDelete w.state (some i),
      fun ptr => if (w.state.heapList i).Holds ptr then none else w.live ptr⟩

def heapNext (w : World) (ev : HeapEvent) : World := (heapStep w ev).getD w

/-- What users may do: create heaps on regions of the address space that are apart from each other,
use the handles of heaps, give back pointers in use, and write inside the bytes they asked for and
outside the heaps. -/
def Allowed (w : World) : HeapEvent → Prop
  | .call (.create startAddr size) =>
    startAddr.toNat + size.toNat < 4294967296 ∧ ∀ i, w.state.Active i →
      (w.state.heapList i).base + (w.state.heapList i).size ≤ startAddr.toNat ∨
        startAddr.toNat + size.toNat ≤ (w.state.heapList i).base
  | .call ev => Permitted w ev
  | .delete handle => w.state.Handle handle

def Aligned : HeapEvent → Prop
  | .call (.create startAddr size) =>
    (startAddr.toNat + 3) / 4 * 4 ≤ startAddr.toNat + size.toNat
  | _ => True

def HeapEvent.Unwrapped : HeapEvent → Prop
  | .call ev => MemHeap.Unwrapped ev
  | .delete _ => True

/-! ### Free blocks -/

theorem FreeChain.unique {link : Nat} {frees frees' : List Nat} (h : FreeChain m link frees)
    (h' : FreeChain m link frees') : frees = frees' := by
  induction frees generalizing link frees' with
  | nil =>
    cases frees' with
    | nil => rfl
    | cons block frees' => exact absurd (h'.1.symm.trans h) h'.2.1
  | cons block frees ih =>
    obtain ⟨rfl, hne, hrest⟩ := h
    cases frees' with
    | nil => exact absurd h' hne
    | cons block' frees' =>
      obtain ⟨rfl, -, hrest'⟩ := h'
      rw [ih hrest hrest']

theorem mem_freeAddrs_iff {block : Nat} :
    block ∈ freeAddrs a bs ↔
      ∃ xs f ys, bs = xs ++ f :: ys ∧ f.used = none ∧ block = a + total xs := by
  induction bs generalizing a with
  | nil => simp [freeAddrs]
  | cons b bs ih =>
    have hrest : block ∈ freeAddrs (a + b.size) bs ↔
        ∃ xs f ys, b :: bs = (b :: xs) ++ f :: ys ∧ f.used = none ∧
          block = a + total (b :: xs) := by
      simp [ih, Nat.add_assoc]
    have hmem : block ∈ freeAddrs a (b :: bs) ↔
        b.used = none ∧ block = a ∨ block ∈ freeAddrs (a + b.size) bs := by
      rw [freeAddrs]
      split_ifs with hb <;> simp [hb]
    rw [hmem, hrest]
    constructor
    · rintro (⟨hb, rfl⟩ | ⟨xs, f, ys, heq, hf, haddr⟩)
      · exact ⟨[], b, bs, rfl, hb, rfl⟩
      · exact ⟨b :: xs, f, ys, heq, hf, haddr⟩
    · rintro ⟨xs, f, ys, heq, hf, haddr⟩
      cases xs with
      | nil =>
        obtain ⟨rfl, -⟩ := List.cons.inj heq
        exact .inl ⟨hf, haddr⟩
      | cons x xs =>
        obtain ⟨rfl, -⟩ := List.cons.inj heq
        exact .inr ⟨xs, f, ys, heq, hf, haddr⟩

theorem Inv.freeChain (h : Inv m heap live bs) :
    FreeChain m heap.freeList (freeAddrs heap.start bs) := by
  rw [h.freeList]
  exact h.laid.freeChain h.placed.start_ne

theorem Inv.mem_free_iff {frees : List Nat} (h : Inv m heap live bs)
    (hchain : FreeChain m heap.freeList frees) {block : Nat} :
    block ∈ frees ↔ ∃ xs f ys, bs = xs ++ f :: ys ∧ f.used = none ∧
      block = heap.start + total xs := by
  rw [hchain.unique h.freeChain, mem_freeAddrs_iff]

/-- A heap that the loop of `tuya_mem_heap_malloc` comes to serves a request: the loop finds that it
has enough free bytes, and one of its free blocks is large enough. -/
def State.Serves (s : State) (size k : Nat) : Prop :=
  s.Leading k ∧ u32 (size + memBlockMinSize) < (s.heapList k).free ∧ size ≠ 0 ∧
    ∃ frees block, FreeChain s.mem (s.heapList k).freeList frees ∧ block ∈ frees ∧
      newSize (max size 4) ≤ blockSize s.mem block

theorem HeapsInv.memAllocate_eq_zero_iff {size k : Nat} (h : HeapsInv s live)
    (hk : s.Leading k) (hfree : u32 (size + memBlockMinSize) < (s.heapList k).free)
    (hsize : size < 4294967288) :
    MemHeap.memAllocate s k size = some (0, s) ↔ ¬s.Serves size k := by
  obtain ⟨bs, hinv⟩ := h.layout k hk.active
  rw [MemHeap.memAllocate_eq_zero_iff hinv hsize]
  constructor
  · rintro hnull ⟨-, -, hne, frees, block, hchain, hmem, hle⟩
    obtain ⟨xs, f, ys, rfl, hf, rfl⟩ := (hinv.mem_free_iff hchain).1 hmem
    rw [hinv.laid.middle.size] at hle
    exact absurd (hnull.resolve_left hne f (by simp) hf) (not_lt.2 hle)
  · intro hserves
    refine or_iff_not_imp_left.2 fun hne f hf hused => ?_
    by_contra hle
    obtain ⟨xs, ys, rfl⟩ := List.append_of_mem hf
    refine hserves ⟨hk, hfree, hne, _, (s.heapList k).start + total xs, hinv.freeChain,
      mem_freeAddrs_iff.2 ⟨xs, f, ys, rfl, hused, rfl⟩, ?_⟩
    rw [hinv.laid.middle.size]
    exact not_lt.1 hle

theorem HeapsInv.mallocAny_eq_zero_iff {size : Nat} (h : HeapsInv s live)
    (hsize : size < 4294967288) :
    tuyaMemHeapMalloc s none size = some (0, s) ↔ ∀ k, ¬s.Serves size k := by
  rcases h.mallocAny (hsize.trans (by decide)) (le_max_left size 4)
      (fun i hi => List.mem_range.1 hi) with
    ⟨hnull, hall⟩ | ⟨k, hk, hfree, ptr, s', hone, heq, hserved⟩
  · refine iff_of_true hnull fun k hserves => ?_
    refine (h.memAllocate_eq_zero_iff hserves.1 hserves.2.1 hsize).1 ?_ hserves
    exact hall k (mem_leading_iff.2 hserves.1) hserves.2.1
  · have hne {s'' : State} : some (ptr, s') ≠ some (0, s'') := fun hnull =>
      hserved.ne_zero (Prod.mk.inj (Option.some.inj hnull)).1
    refine iff_of_false (fun hnull => hne (heq.symm.trans hnull)) fun hnone => ?_
    have hnull := (h.memAllocate_eq_zero_iff (mem_leading_iff.1 hk) hfree hsize).2 (hnone k)
    exact hne (hone.symm.trans hnull)

def GivenBack (m : Memory) (heap : Heap) (ptr : Nat) : Prop :=
  ∃ frees block, FreeChain m heap.freeList frees ∧ block ∈ frees ∧
    block ≤ ptr - memBlockHeadSize ∧ ptr - memBlockHeadSize < block + blockSize m block

theorem exists_block_of_lt {x : Nat} (hle : a ≤ x) (hlt : x < a + total bs) :
    ∃ xs b ys, bs = xs ++ b :: ys ∧ a + total xs ≤ x ∧ x < a + total xs + b.size := by
  induction bs generalizing a with
  | nil => exact absurd hlt (not_lt.2 hle)
  | cons b bs ih =>
    by_cases hb : x < a + b.size
    · exact ⟨[], b, bs, rfl, hle, hb⟩
    · rw [total_cons] at hlt
      obtain ⟨xs, c, ys, rfl, hle', hlt'⟩ := ih (not_lt.1 hb) (by omega)
      refine ⟨b :: xs, c, ys, rfl, ?_, ?_⟩ <;> rw [total_cons] <;> omega

theorem Inv.not_givenBack {ptr n : Nat} (h : Inv m heap live bs) (hholds : heap.Holds ptr)
    (hlive : live ptr = some n) : ¬GivenBack m heap ptr := by
  rintro ⟨frees, block, hchain, hmem, hle, hlt⟩
  obtain ⟨xs, b, ys, heq, hused, rfl⟩ := h.exists_block hholds hlive
  obtain ⟨ws, f, us, rfl, hf, rfl⟩ := (h.mem_free_iff hchain).1 hmem
  rw [h.laid.middle.size, Nat.add_sub_cancel] at hlt
  rw [Nat.add_sub_cancel] at hle
  have hb := b.le_size
  rcases total_cases heq with hcase | hcase | ⟨rfl, rfl⟩
  · omega
  · omega
  · rw [hf] at hused
    cases hused

theorem Released.givenBack {ptr n : Nat} {s' : State} (h : Released s live ptr s')
    (hinv : HeapsInv s live) (hi : s.Active i) (hholds : (s.heapList i).Holds ptr)
    (hlive : live ptr = some n) : GivenBack s'.mem (s'.heapList i) ptr := by
  obtain ⟨bs, hinv₁⟩ := hinv.layout i hi
  obtain ⟨bs', hinv₂⟩ := h.inv.layout i ((active_iff_of_size_eq h.size_eq i).2 hi)
  have hstart : (s'.heapList i).start = (s.heapList i).start := by
    rw [Heap.start, Heap.start, h.base_eq]
  have hstop : (s'.heapList i).stop = (s.heapList i).stop := by
    rw [Heap.stop, Heap.stop, h.base_eq, h.size_eq]
  have hptr := hinv₁.live_eq ptr hholds ▸ hlive
  obtain ⟨xs, b, ys, hbs, -, haddr⟩ := exists_of_liveAt hptr
  have hb := b.le_size
  have htiles := hinv₁.tiles
  rw [hbs, total_append_cons] at htiles
  obtain ⟨ws, c, us, rfl, hle, hlt⟩ : ∃ ws c us, bs' = ws ++ c :: us ∧
      (s'.heapList i).start + total ws ≤ ptr - memBlockHeadSize ∧
      ptr - memBlockHeadSize < (s'.heapList i).start + total ws + c.size := by
    refine exists_block_of_lt ?_ ?_
    · rw [hstart, haddr]
      omega
    · rw [hinv₂.tiles, hstop, haddr]
      omega
  cases hused : c.used with
  | none =>
    refine ⟨_, (s'.heapList i).start + total ws, hinv₂.freeChain,
      mem_freeAddrs_iff.2 ⟨ws, c, us, rfl, hused, rfl⟩, hle, ?_⟩
    rwa [hinv₂.laid.middle.size]
  | some k =>
    -- A block in use there would be one of before, which does not overlap the one of the pointer.
    exfalso
    have hlive' := hinv₂.live_eq _ hinv₂.holds_block
    rw [liveAt_middle rfl, hused] at hlive'
    set ptr' := (s'.heapList i).start + total ws + memBlockHeadSize with hptr'
    have hne : ptr' ≠ ptr := by
      intro heq
      rw [heq, Function.update_self] at hlive'
      cases hlive'
    rw [Function.update_of_ne hne] at hlive'
    have hsize := hinv.blockSize_eq hlive' (h.same ptr' k hne hlive')
    have hblock : ptr' - memBlockHeadSize = (s'.heapList i).start + total ws := by omega
    rw [hblock, hinv₂.laid.middle.size] at hsize
    have hholds' : (s.heapList i).Holds ptr' := by
      have hin := hinv₂.holds_block
      rwa [Heap.Holds, h.base_eq, h.size_eq] at hin
    have hdisjoint := hinv₁.laid.disjoint hptr (hinv₁.live_eq ptr' hholds' ▸ hlive') hne.symm
    rw [hblock, ← hsize] at hdisjoint
    have hpos : 0 < blockSize s.mem (ptr - memBlockHeadSize) := by
      have hat := hinv₁.laid
      rw [hbs] at hat
      rw [haddr, Nat.add_sub_cancel, hat.middle.size]
      omega
    omega

/-! ### The invariant -/

/-- The heaps have layouts, and the pointers in use are among the blocks in use. -/
structure Tracked (w : World) (live : Nat → Option Nat) : Prop where
  heaps : HeapsInv w.state live
  within : ∀ ptr n, w.live ptr = some n → live ptr = some n

namespace Tracked

variable {w : World}

theorem live_zero (h : Tracked w live) : w.live 0 = none := by
  by_contra hne
  obtain ⟨n, hn⟩ := Option.ne_none_iff_exists'.1 hne
  obtain ⟨i, -, hholds⟩ := h.heaps.owned 0 n (h.within 0 n hn)
  exact Nat.not_lt_zero _ hholds.1

theorem within_update (h : Tracked w live) (ptr n : Nat) :
    ∀ ptr' k, Function.update w.live ptr (some n) ptr' = some k →
      Function.update live ptr (some n) ptr' = some k := by
  intro ptr' k hk
  by_cases hptr : ptr' = ptr
  · rwa [hptr, Function.update_self] at hk ⊢
  · rw [Function.update_of_ne hptr] at hk ⊢
    exact h.within ptr' k hk

theorem within_erase (h : Tracked w live) {ptr : Nat} {live' : Nat → Option Nat}
    (hlive : ∀ ptr', ptr' ≠ ptr → live' ptr' = live ptr') :
    ∀ ptr' k, Function.update w.live ptr none ptr' = some k → live' ptr' = some k := by
  intro ptr' k hk
  by_cases hptr : ptr' = ptr
  · rw [hptr, Function.update_self] at hk
    cases hk
  · rw [Function.update_of_ne hptr] at hk
    rw [hlive ptr' hptr]
    exact h.within ptr' k hk

theorem create {startAddr size : UInt32} (h : Tracked w live)
    (hp : Allowed w (.call (.create startAddr size)))
    (haligned : Aligned (.call (.create startAddr size))) :
    Tracked { w with state := (tuyaMemHeapCreate w.state startAddr.toNat size.toNat).2 } live :=
  ⟨h.heaps.create ⟨hp.1, haligned, hp.2⟩, h.within⟩

theorem malloc {handle : Option Nat} {size : UInt32} (h : Tracked w live)
    (hp : Permitted w (.malloc handle size)) :
    step w (.malloc handle size) = some w ∨
      ∃ i ptr s', w.state.Active i ∧ memAllocate w.state i size.toNat = some (ptr, s') ∧
        step w (.malloc handle size) =
          some ⟨s', Function.update w.live ptr (some size.toNat)⟩ ∧
        Tracked ⟨s', Function.update w.live ptr (some size.toNat)⟩
          (Function.update live ptr (some size.toNat)) := by
  rcases h.heaps.malloc hp size.toNat_lt (le_max_left _ 4) with
    heq | ⟨i, ptr, s', hi, hone, heq, hserved⟩
  · left
    rw [step, heq]
    rfl
  · right
    refine ⟨i, ptr, s', hi, hone, ?_, hserved.inv, h.within_update ptr _⟩
    rw [step, heq]
    dsimp only
    rw [if_neg hserved.ne_zero]

theorem exists_live {handle : Option Nat} {ptr : Nat} (h : Tracked w live)
    (hp : w.MayReturn handle ptr) (hptr : ptr ≠ 0) :
    ∃ n, w.live ptr = some n ∧ live ptr = some n ∧ w.state.Owns handle ptr := by
  obtain ⟨n, hn, howns⟩ := hp.exists_live hptr
  exact ⟨n, hn, h.within ptr n hn, howns⟩

theorem free_zero {handle : Option Nat} (h : Tracked w live) :
    step w (.free handle 0) = some w := by
  rw [step, tuyaMemHeapFree_zero]
  dsimp only
  rw [Function.update_eq_self_iff.2 h.live_zero.symm]

theorem free_of_reaches {handle : Option Nat} {ptr : Nat} (h : Tracked w live)
    (hp : Permitted w (.free handle ptr)) (hptr : ptr ≠ 0)
    (hreaches : w.state.Reaches handle ptr) :
    ∃ i s', w.state.Active i ∧ (w.state.heapList i).Holds ptr ∧
      memDeallocate w.state i ptr = some s' ∧ tuyaMemHeapFree w.state handle ptr = some s' ∧
      GivenBack s'.mem (s'.heapList i) ptr ∧
      Tracked ⟨s', Function.update w.live ptr none⟩ (Function.update live ptr none) := by
  obtain ⟨n, -, hlive, howns⟩ := h.exists_live hp.2 hptr
  obtain ⟨i, hi, hholds⟩ := h.heaps.owned ptr n hlive
  obtain ⟨s', heq, hreleased, hone⟩ := h.heaps.free_of_reaches howns hreaches hlive
  exact ⟨i, s', hi, hholds, hone i hi hholds, heq,
    hreleased.givenBack h.heaps hi hholds hlive, hreleased.inv,
    h.within_erase fun ptr' hne => Function.update_of_ne hne _ _⟩

theorem free_of_not_reaches {handle : Option Nat} {ptr : Nat} (h : Tracked w live)
    (hreaches : ¬w.state.Reaches handle ptr) :
    step w (.free handle ptr) = some ⟨w.state, Function.update w.live ptr none⟩ ∧
      Tracked ⟨w.state, Function.update w.live ptr none⟩ live := by
  refine ⟨?_, h.heaps, h.within_erase fun _ _ => rfl⟩
  rw [step, h.heaps.free_of_not_reaches hreaches]

theorem write {addr : Nat} {v : UInt8} (h : Tracked w live) (hp : Permitted w (.write addr v)) :
    Tracked { w with state := { w.state with mem := w.state.mem.writeByte addr v } } live := by
  refine ⟨h.heaps.writeByte (hp.imp_left ?_), h.within⟩
  rintro ⟨ptr, n, hn, hbounds⟩
  exact ⟨ptr, n, h.within ptr n hn, hbounds⟩

theorem delete (h : Tracked w live) {i : Nat} (hi : w.state.Active i) :
    Tracked ⟨tuyaMemHeapDelete w.state (some i),
        fun ptr => if (w.state.heapList i).Holds ptr then none else w.live ptr⟩
      fun ptr => if (w.state.heapList i).Holds ptr then none else live ptr := by
  have hactive (j : Nat) (hj : (memHeapDelete w.state i).Active j) :
      j ≠ i ∧ w.state.Active j ∧ (memHeapDelete w.state i).heapList j = w.state.heapList j := by
    have hne : j ≠ i := by
      rintro rfl
      refine hj.2 ?_
      rw [memHeapDelete, setHeap_self]
    have heq : (memHeapDelete w.state i).heapList j = w.state.heapList j := setHeap_of_ne hne
    refine ⟨hne, ?_, heq⟩
    rwa [State.Active, heq] at hj
  refine ⟨h.heaps.restrict rfl (fun j hj => (hactive j hj).2) (fun j ptr hj hholds => ?_)
    fun ptr n hptr => ?_, fun ptr n hptr => ?_⟩
  · obtain ⟨hne, hj', -⟩ := hactive j hj
    exact if_neg ((h.heaps.apart j i hj' hi hne).not_holds hholds)
  · split_ifs at hptr with hholds
    obtain ⟨j, hj, hholds'⟩ := h.heaps.owned ptr n hptr
    have hne : j ≠ i := fun hji => hholds (hji ▸ hholds')
    refine ⟨j, ?_, hholds'⟩
    have heq : (memHeapDelete w.state i).heapList j = w.state.heapList j := setHeap_of_ne hne
    change (memHeapDelete w.state i).Active j
    rwa [State.Active, heq]
  · dsimp only at hptr ⊢
    split_ifs at hptr ⊢ with hholds
    exact h.within ptr n hptr

theorem moved {handle : Option Nat} {ptr n size ptr' : Nat} {c : State} (h : Tracked w live)
    (hmoved : Moved w.state live ptr n size ptr' c) (howns : w.state.Owns handle ptr)
    (hlive : live ptr = some n) :
    ∃ s' live', tuyaMemHeapFree c handle ptr = some s' ∧
      Tracked ⟨s', Function.update (Function.update w.live ptr none) ptr' (some size)⟩ live' := by
  have hmiddle : Tracked ⟨c, Function.update w.live ptr' (some size)⟩
      (Function.update live ptr' (some size)) := ⟨hmoved.inv, h.within_update ptr' size⟩
  rw [Function.update_comm (hmoved.ne hlive).symm]
  by_cases hreaches : w.state.Reaches handle ptr
  · obtain ⟨s', heq, hreleased⟩ := hmoved.free howns hreaches hlive
    exact ⟨s', _, heq, hreleased.inv,
      hmiddle.within_erase fun ptr'' hptr => Function.update_of_ne hptr _ _⟩
  · have hreaches' : ¬c.Reaches handle ptr := by
      rwa [reaches_congr hmoved.base_eq hmoved.size_eq]
    exact ⟨c, _, hmoved.inv.free_of_not_reaches hreaches', hmoved.inv,
      hmiddle.within_erase fun _ _ => rfl⟩

theorem realloc {handle : Option Nat} {ptr : Nat} {size : UInt32} (h : Tracked w live)
    (hp : Permitted w (.realloc handle ptr size)) (hu : Unwrapped (.realloc handle ptr size)) :
    ∃ w' live', step w (.realloc handle ptr size) = some w' ∧ Tracked w' live' := by
  by_cases hptr : ptr = 0
  · subst hptr
    have heq : step w (.realloc handle 0 size) = step w (.malloc handle size) := by
      rw [step, step, tuyaMemHeapRealloc, if_pos rfl,
        Function.update_eq_self_iff.2 h.live_zero.symm]
    rw [heq]
    rcases h.malloc hp.1 with hnull | ⟨-, ptr, s', -, -, hserved, htracked⟩
    · exact ⟨w, live, hnull, h⟩
    · exact ⟨_, _, hserved, htracked⟩
  obtain ⟨n, -, hlive, howns⟩ := h.exists_live hp.2 hptr
  rw [step]
  rcases h.heaps.realloc hp.1 hptr hlive (hu hptr) with
    ⟨-, heq, hinv⟩ | ⟨-, ⟨-, heq⟩ | ⟨ptr', s', c, -, hmoved, heq⟩⟩
  · rw [heq]
    dsimp only
    rw [if_neg hptr, Function.update_idem]
    exact ⟨_, _, rfl, hinv, h.within_update ptr _⟩
  · rw [heq]
    exact ⟨_, live, rfl, h.heaps, h.within⟩
  · obtain ⟨s'', live', hfree, htracked⟩ := h.moved hmoved howns hlive
    rw [heq s'' hfree]
    dsimp only
    rw [if_neg hmoved.ne_zero]
    exact ⟨_, live', rfl, htracked⟩

theorem heapStep {ev : HeapEvent} (h : Tracked w live) (hp : Allowed w ev) (ha : Aligned ev)
    (hu : ev.Unwrapped) : ∃ w' live', heapStep w ev = some w' ∧ Tracked w' live' := by
  cases ev with
  | delete handle =>
    cases handle with
    | none => exact ⟨w, live, rfl, h⟩
    | some i => exact ⟨_, _, rfl, h.delete (hp i rfl)⟩
  | call ev =>
    rw [MemHeap.heapStep]
    cases ev with
    | create startAddr size => exact ⟨_, live, rfl, h.create hp ha⟩
    | malloc handle size =>
      rcases h.malloc hp with hnull | ⟨-, ptr, s', -, -, hserved, htracked⟩
      · exact ⟨w, live, hnull, h⟩
      · exact ⟨_, _, hserved, htracked⟩
    | realloc handle ptr size => exact h.realloc hp hu
    | free handle ptr =>
      by_cases hptr : ptr = 0
      · subst hptr
        exact ⟨w, live, h.free_zero, h⟩
      by_cases hreaches : w.state.Reaches handle ptr
      · obtain ⟨-, s', -, -, -, heq, -, htracked⟩ := h.free_of_reaches hp hptr hreaches
        refine ⟨_, _, ?_, htracked⟩
        rw [step, heq]
      · obtain ⟨heq, htracked⟩ := h.free_of_not_reaches hreaches
        exact ⟨_, live, heq, htracked⟩
    | write addr v => exact ⟨_, live, rfl, h.write hp⟩

theorem heapNext {ev : HeapEvent} (h : Tracked w live) (hp : Allowed w ev) (ha : Aligned ev)
    (hu : ev.Unwrapped) : MemHeap.heapStep w ev = some (heapNext w ev) ∧
      ∃ live', Tracked (MemHeap.heapNext w ev) live' := by
  obtain ⟨w', live', heq, htracked⟩ := h.heapStep hp ha hu
  rw [MemHeap.heapNext, heq]
  exact ⟨rfl, live', htracked⟩

end Tracked

theorem tracked_init (m : Memory) : Tracked (World.init m) fun _ => none :=
  ⟨(worldInv_init m).heaps, fun _ _ h => h⟩

end TuyaOpen.MemHeap
