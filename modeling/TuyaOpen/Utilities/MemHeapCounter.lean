import TuyaOpen.Utilities.MemHeapRegistry
import Mathlib.Algebra.BigOperators.Group.Finset.Basic
import Mathlib.Algebra.Order.BigOperators.Group.Finset
import Mathlib.Data.Nat.ModEq
import Mathlib.Order.Interval.Finset.Nat

/-!
# The counter of free bytes of all heaps

`s_heap_free_size` counts the free bytes of the heaps in use. A heap that is deleted takes its free
bytes with it, but `MEM_HeapDelete` leaves the counter alone.

## Main results

* `HeapsInv.freeSum_lt`: the free bytes of the heaps fit into a word.
* `State.Tallied.heapStep`: an event that meets the condition keeps the counter right.
* `consistent_of_run`: every event of a run whose events meet the condition is as it should be.
-/

namespace TuyaOpen.MemHeap

open Memory

variable {m m' : Memory} {heap : Heap} {live : Nat → Option Nat} {bs : List Block} {s : State}
  {i : Nat}

/-! ### The counter of free bytes -/

theorem u32_modEq (n : Nat) : u32 n ≡ n [MOD 4294967296] := by
  rw [u32]
  exact Nat.mod_modEq n _

theorem u32Sub_add_modEq (a n : Nat) : u32Sub a n + n ≡ a [MOD 4294967296] := by
  have hlt := u32_lt a
  have hlt' := u32_lt n
  have ha : u32 a % 4294967296 = a % 4294967296 := u32_modEq a
  have hn : u32 n % 4294967296 = n % 4294967296 := u32_modEq n
  rw [Nat.ModEq, u32Sub]
  split_ifs <;> omega

theorem u32Sub_lt (a n : Nat) : u32Sub a n < 4294967296 := by
  have hlt := u32_lt a
  rw [u32Sub]
  split_ifs <;> omega

def State.actives (s : State) : Finset Nat :=
  (Finset.range memHeapListNum).filter fun i => (s.heapList i).size ≠ 0

def State.freeSum (s : State) : Nat := ∑ i ∈ s.actives, (s.heapList i).free

theorem mem_actives : i ∈ s.actives ↔ s.Active i := by
  rw [State.actives, Finset.mem_filter, Finset.mem_range, State.Active]

theorem HeapsInv.freeSum_lt (h : HeapsInv s live) : s.freeSum < 4294967296 := by
  have hfree : ∀ i ∈ s.actives, (s.heapList i).free ≤
      (Finset.Ico (s.heapList i).base ((s.heapList i).base + (s.heapList i).size)).card := by
    intro i hi
    obtain ⟨bs, hinv⟩ := h.layout i (mem_actives.1 hi)
    rw [Nat.card_Ico, Nat.add_sub_cancel_left, hinv.free]
    exact freeTotal_le_total.trans hinv.total_le
  have hdisjoint : ∀ i ∈ s.actives, ∀ j ∈ s.actives, i ≠ j →
      Disjoint (Finset.Ico (s.heapList i).base ((s.heapList i).base + (s.heapList i).size))
        (Finset.Ico (s.heapList j).base ((s.heapList j).base + (s.heapList j).size)) := by
    intro i hi j hj hne
    rw [Finset.disjoint_left]
    intro x hx hx'
    rw [Finset.mem_Ico] at hx hx'
    rcases h.apart i j (mem_actives.1 hi) (mem_actives.1 hj) hne with hapart | hapart <;> omega
  have hspace : (s.actives.biUnion fun i =>
      Finset.Ico (s.heapList i).base ((s.heapList i).base + (s.heapList i).size)) ⊆
        Finset.Ico 1 4294967296 := by
    intro x hx
    obtain ⟨i, hi, hx⟩ := Finset.mem_biUnion.1 hx
    obtain ⟨bs, hinv⟩ := h.layout i (mem_actives.1 hi)
    have hbase := hinv.placed.base_ne
    have hend := hinv.placed.end_lt
    rw [Finset.mem_Ico] at hx ⊢
    omega
  calc s.freeSum
      ≤ ∑ i ∈ s.actives,
          (Finset.Ico (s.heapList i).base ((s.heapList i).base + (s.heapList i).size)).card :=
        Finset.sum_le_sum hfree
    _ = (s.actives.biUnion fun i => Finset.Ico (s.heapList i).base
          ((s.heapList i).base + (s.heapList i).size)).card := (Finset.card_biUnion hdisjoint).symm
    _ ≤ (Finset.Ico 1 4294967296).card := Finset.card_le_card hspace
    _ < 4294967296 := by
        rw [Nat.card_Ico]
        decide

/-- The counter is right up to a multiple of `2 ^ 32`. -/
structure State.Tallied (s : State) : Prop where
  modEq : s.heapFreeSize ≡ s.freeSum [MOD 4294967296]
  lt : s.heapFreeSize < 4294967296

theorem State.Tallied.eq (h : s.Tallied) (hinv : HeapsInv s live) : s.heapFreeSize = s.freeSum :=
  h.modEq.eq_of_lt_of_lt h.lt hinv.freeSum_lt

theorem freeSum_add {s' : State} (hi : s.Active i)
    (hother : ∀ j, j ≠ i → s'.heapList j = s.heapList j)
    (hsize : (s'.heapList i).size = (s.heapList i).size) :
    s'.freeSum + (s.heapList i).free = s.freeSum + (s'.heapList i).free := by
  have hactives : s'.actives = s.actives := by
    refine Finset.filter_congr fun j _ => ?_
    by_cases hji : j = i
    · rw [hji, hsize]
    · rw [hother j hji]
  have hmem := mem_actives.2 hi
  rw [State.freeSum, State.freeSum, hactives, ← Finset.add_sum_erase _ _ hmem,
    ← Finset.add_sum_erase _ (fun j => (s.heapList j).free) hmem]
  have hrest : ∑ j ∈ s.actives.erase i, (s'.heapList j).free =
      ∑ j ∈ s.actives.erase i, (s.heapList j).free :=
    Finset.sum_congr rfl fun j hj => by rw [hother j (Finset.ne_of_mem_erase hj)]
  rw [hrest]
  omega

theorem State.Tallied.of_heap {s' : State} {n k : Nat} (h : s.Tallied) (hi : s.Active i)
    (hother : ∀ j, j ≠ i → s'.heapList j = s.heapList j)
    (hsize : (s'.heapList i).size = (s.heapList i).size) (hlt : s'.heapFreeSize < 4294967296)
    (hcounter : s'.heapFreeSize + n ≡ s.heapFreeSize + k [MOD 4294967296])
    (hfree : (s'.heapList i).free + n ≡ (s.heapList i).free + k [MOD 4294967296]) :
    s'.Tallied := by
  refine ⟨?_, hlt⟩
  have hsum := freeSum_add hi hother hsize
  have hmod : s'.heapFreeSize + n + (s.heapList i).free ≡
      s'.freeSum + n + (s.heapList i).free [MOD 4294967296] :=
    calc s'.heapFreeSize + n + (s.heapList i).free
        ≡ s.freeSum + k + (s.heapList i).free [MOD 4294967296] :=
          (hcounter.trans (h.modEq.add_right k)).add_right _
      _ = s.freeSum + ((s.heapList i).free + k) := by omega
      _ ≡ s.freeSum + ((s'.heapList i).free + n) [MOD 4294967296] := hfree.symm.add_left _
      _ = s'.freeSum + n + (s.heapList i).free := by omega
  exact (hmod.add_right_cancel' _).add_right_cancel' n

theorem memChunkGet_heap {n : Nat} {r : Nat × Memory × Heap} (h : memChunkGet m heap n = some r) :
    r.2.2.size = heap.size ∧ r.2.2.free = heap.free := by
  rw [memChunkGet] at h
  split at h
  · cases h
  · split_ifs at h
    · rw [← Option.some.inj h]
      exact ⟨rfl, rfl⟩
    · rw [← Option.some.inj h]
      exact ⟨rfl, rfl⟩
    · rw [← Option.some.inj h, unlinkBlock]
      split_ifs <;> exact ⟨rfl, rfl⟩

theorem State.Tallied.memAllocate {size ptr : Nat} {s' : State} (h : s.Tallied)
    (hi : s.Active i) (heq : memAllocate s i size = some (ptr, s')) : s'.Tallied := by
  rw [MemHeap.memAllocate] at heq
  split_ifs at heq
  · rwa [← (Prod.mk.inj (Option.some.inj heq)).2]
  · rwa [← (Prod.mk.inj (Option.some.inj heq)).2]
  cases hchunk : memChunkGet s.mem (s.heapList i) (newSize (max size 4)) with
  | none =>
    rw [hchunk] at heq
    cases heq
  | some res =>
    obtain ⟨hsize, hfree⟩ := memChunkGet_heap hchunk
    rw [hchunk] at heq
    dsimp only at heq
    split_ifs at heq
    · rw [← (Prod.mk.inj (Option.some.inj heq)).2]
      refine h.of_heap (n := 0) (k := 0) hi (fun j hj => setHeap_of_ne hj) ?_ h.lt rfl ?_
      · simpa [State.setHeap] using hsize
      · simp [State.setHeap, hfree]
        rfl
    · rw [← (Prod.mk.inj (Option.some.inj heq)).2]
      refine h.of_heap (k := 0) hi (fun j hj => Function.update_of_ne hj _ _) ?_ (u32Sub_lt _ _)
        (u32Sub_add_modEq _ _) ?_
      · simpa [Heap.take] using hsize
      · simpa [Heap.take, hfree] using u32Sub_add_modEq (s.heapList i).free _

theorem State.Tallied.memDeallocate {ptr : Nat} {s' : State} (h : s.Tallied)
    (hi : s.Active i) (heq : memDeallocate s i ptr = some s') : s'.Tallied := by
  rw [MemHeap.memDeallocate] at heq
  dsimp only at heq
  split_ifs at heq
  · rwa [← Option.some.inj heq]
  · rwa [← Option.some.inj heq]
  split at heq
  · cases heq
  · rw [← Option.some.inj heq]
    have hlink (m : Memory) (heap : Heap) (pre next block : Nat) :
        (linkBlock m heap pre next block).2.2.size = heap.size ∧
          (linkBlock m heap pre next block).2.2.free = heap.free := by
      rw [linkBlock]
      split_ifs <;> exact ⟨rfl, rfl⟩
    refine h.of_heap (n := 0) hi (fun j hj => Function.update_of_ne hj _ _) ?_ (u32_lt _)
      (u32_modEq _) ?_
    · simp [hlink]
    · simp only [Function.update_self, hlink]
      exact u32_modEq _

theorem State.Tallied.of_heapList {s' : State} (h : s.Tallied) (hlist : s'.heapList = s.heapList)
    (hcounter : s'.heapFreeSize = s.heapFreeSize) : s'.Tallied := by
  refine ⟨?_, ?_⟩
  · rw [hcounter, State.freeSum, State.actives, hlist]
    exact h.modEq
  · rw [hcounter]
    exact h.lt

theorem State.Tallied.malloc {handle : Option Nat} {size ptr : Nat} {s' : State}
    (h : s.Tallied) (hinv : HeapsInv s live) (hhandle : s.Handle handle)
    (hsize : size < 4294967296) (heq : tuyaMemHeapMalloc s handle size = some (ptr, s')) :
    s'.Tallied ∧ s'.Handle handle := by
  rcases hinv.malloc hhandle hsize (le_max_left size 4) with
    heq' | ⟨i, ptr', s'', hi, hone, heq', hserved⟩
  · rw [heq'] at heq
    rw [← (Prod.mk.inj (Option.some.inj heq)).2]
    exact ⟨h, hhandle⟩
  · rw [heq'] at heq
    rw [← (Prod.mk.inj (Option.some.inj heq)).2]
    exact ⟨h.memAllocate hi hone, fun j hj =>
      (active_iff_of_size_eq hserved.size_eq j).2 (hhandle j hj)⟩

theorem State.Tallied.free {handle : Option Nat} {ptr : Nat} {s' : State} (h : s.Tallied)
    (hhandle : s.Handle handle) (heq : tuyaMemHeapFree s handle ptr = some s') : s'.Tallied := by
  cases handle with
  | some i => exact h.memDeallocate (hhandle i rfl) heq
  | none =>
    rw [tuyaMemHeapFree, freeAny_eq] at heq
    cases hfind : (s.leading (List.range memHeapListNum)).find?
        fun i => (s.heapList i).Holds ptr with
    | none =>
      rw [hfind] at heq
      rwa [← Option.some.inj heq]
    | some i =>
      rw [hfind] at heq
      exact h.memDeallocate (mem_leading_iff.1 (List.mem_of_find?_eq_some hfind)).active heq

theorem State.Tallied.realloc {handle : Option Nat} {ptr size ptr' : Nat} {s' : State}
    (h : s.Tallied) (hinv : HeapsInv s live) (hhandle : s.Handle handle)
    (hsize : size < 4294967296)
    (heq : tuyaMemHeapRealloc s handle ptr size = some (ptr', s')) : s'.Tallied := by
  rw [tuyaMemHeapRealloc] at heq
  dsimp only at heq
  split_ifs at heq
  · exact (h.malloc hinv hhandle hsize heq).1
  · rwa [← (Prod.mk.inj (Option.some.inj heq)).2]
  · rwa [← (Prod.mk.inj (Option.some.inj heq)).2]
  cases hmalloc : tuyaMemHeapMalloc s handle (max size 4) with
  | none =>
    rw [hmalloc] at heq
    cases heq
  | some r =>
    obtain ⟨tmp, s₁⟩ := r
    obtain ⟨htallied, hhandle₁⟩ := h.malloc hinv hhandle (max_lt hsize (by decide)) hmalloc
    rw [hmalloc] at heq
    dsimp only at heq
    split_ifs at heq
    · rwa [← (Prod.mk.inj (Option.some.inj heq)).2]
    · split at heq
      · cases heq
      · rename_i s₂ hfree
        rw [← (Prod.mk.inj (Option.some.inj heq)).2]
        refine State.Tallied.free ?_ ?_ hfree
        · exact htallied.of_heapList rfl rfl
        · exact hhandle₁

theorem State.Tallied.create {ptr size : Nat} (h : s.Tallied) (hfree : s.Free ptr size) :
    (tuyaMemHeapCreate s ptr size).2.Tallied := by
  rcases tuyaMemHeapCreate_cases hfree with heq | ⟨i, hi, hunused, -, heq | hcreated⟩
  · rwa [heq]
  · have hsum : (s.setHeap i { s.heapList i with base := ptr }).freeSum = s.freeSum := by
      have hfields (j : Nat) :
          ((s.setHeap i { s.heapList i with base := ptr }).heapList j).size =
              (s.heapList j).size ∧
            ((s.setHeap i { s.heapList i with base := ptr }).heapList j).free =
              (s.heapList j).free := by
        by_cases hj : j = i
        · rw [hj, setHeap_self]
          exact ⟨rfl, rfl⟩
        · rw [setHeap_of_ne hj]
          exact ⟨rfl, rfl⟩
      simp only [State.freeSum, State.actives, hfields]
    rw [heq]
    refine ⟨?_, h.lt⟩
    rw [hsum]
    exact h.modEq
  · obtain ⟨m', heap', hplaced, -, hsize, -, -, heq⟩ := hcreated
    have hmin := hplaced.start_add_le_stop
    have hstart := hplaced.base_le_start
    have hstop := hplaced.stop_le
    have hroom : memHeapMinSize = 28 := rfl
    rw [heq]
    set s' : State := ⟨m', Function.update s.heapList i heap', u32 (s.heapFreeSize + heap'.free),
      u32 (s.heapFreeSize + heap'.free)⟩
    have hself : s'.heapList i = heap' := Function.update_self _ _ _
    have hother (j : Nat) (hj : j ≠ i) : s'.heapList j = s.heapList j :=
      Function.update_of_ne hj _ _
    have hnot : i ∉ s.actives := fun hmem => (mem_actives.1 hmem).2 hunused
    have hactives : s'.actives = insert i s.actives := by
      ext j
      rw [Finset.mem_insert, mem_actives, mem_actives]
      by_cases hj : j = i
      · subst hj
        refine iff_of_true ⟨hi, ?_⟩ (.inl rfl)
        rw [hself]
        omega
      · rw [State.Active, State.Active, hother j hj, or_iff_right hj]
    have hsum : s'.freeSum = heap'.free + s.freeSum := by
      rw [State.freeSum, hactives, Finset.sum_insert hnot, hself]
      refine congrArg (heap'.free + ·) (Finset.sum_congr rfl fun j hj => ?_)
      rw [hother j fun hji => hnot (hji ▸ hj)]
    refine ⟨?_, u32_lt _⟩
    rw [hsum, Nat.add_comm heap'.free]
    exact (u32_modEq _).trans (h.modEq.add_right _)

theorem State.Tallied.delete (h : s.Tallied) (hi : s.Active i) (hfree : (s.heapList i).free = 0) :
    (memHeapDelete s i).Tallied := by
  have hactives : (memHeapDelete s i).actives = s.actives.erase i := by
    ext j
    rw [Finset.mem_erase, mem_actives, mem_actives]
    by_cases hj : j = i
    · subst hj
      refine iff_of_false (fun hactive => hactive.2 ?_) fun hmem => hmem.1 rfl
      rw [memHeapDelete, setHeap_self]
    · rw [State.Active, State.Active, memHeapDelete, setHeap_of_ne hj, and_iff_right hj]
  have hsum : (memHeapDelete s i).freeSum = s.freeSum := by
    rw [State.freeSum, hactives, State.freeSum, ← Finset.add_sum_erase _ _ (mem_actives.2 hi),
      hfree, Nat.zero_add]
    refine Finset.sum_congr rfl fun j hj => ?_
    rw [memHeapDelete, setHeap_of_ne (Finset.ne_of_mem_erase hj)]
  refine ⟨?_, h.lt⟩
  rw [hsum]
  exact h.modEq

/-! ### Runs -/

/-- The heaps on which the loop of `tuya_mem_heap_malloc` calls `MEM_Allocate`. -/
def triedHeaps (s : State) (size : Nat) : List Nat → List Nat
  | [] => []
  | i :: is =>
    if (s.heapList i).size = 0 then []
    else if u32 (size + memBlockMinSize) < (s.heapList i).free then
      match memAllocate s i size with
      | none => [i]
      | some (ptr, s) => if ptr ≠ 0 then [i] else i :: triedHeaps s size is
    else triedHeaps s size is

/-- Without a handle, `tuya_mem_heap_malloc` returns `NULL` only after it has tried every heap with
enough free space. -/
def TriesAll (s : State) (size : Nat) : Prop :=
  ∀ s', tuyaMemHeapMalloc s none size = some (0, s') → ∀ i, s.Active i →
    size + memBlockMinSize < (s.heapList i).free →
      i ∈ triedHeaps s size (List.range memHeapListNum)

/-- Without a handle, `tuya_mem_heap_free` does what `MEM_Deallocate` does with the heap of the
pointer, and its block is given back to this heap. -/
def ReturnsTo (s : State) (ptr : Nat) : Prop :=
  ∀ i, s.Active i → (s.heapList i).Holds ptr → ∃ s', memDeallocate s i ptr = some s' ∧
    tuyaMemHeapFree s none ptr = some s' ∧ GivenBack s'.mem (s'.heapList i) ptr

/-- The calls return, and the counter is right after them. Without a handle, an allocation tries all
heaps, and a pointer is given back to its heap. -/
def Consistent (w : World) (ev : HeapEvent) : Prop :=
  ∃ w', heapStep w ev = some w' ∧ w'.state.heapFreeSize = w'.state.freeSum ∧
    match ev with
    | .call (.malloc none size) => TriesAll w.state size.toNat
    | .call (.free none ptr) => ReturnsTo w.state ptr
    | _ => True

/-- The condition on an event: a heap is deleted when it has no free bytes. Without a handle, the
loops come to the heaps with enough free space, or to one that serves the request, and to the heap
of the pointer. The region of a new heap goes up to an aligned address, and no reallocation
wraps. -/
def RegistryCond (w : World) : HeapEvent → Prop
  | .call (.create startAddr size) => Aligned (.call (.create startAddr size))
  | .call (.malloc none size) =>
    (∀ i, w.state.Active i → size.toNat + memBlockMinSize < (w.state.heapList i).free →
      w.state.Leading i) ∨ ∃ k, w.state.Serves size.toNat k
  | .call (.free none ptr) => w.state.Reaches none ptr
  | .call ev => Unwrapped ev
  | .delete handle => ∀ i ∈ handle, (w.state.heapList i).free = 0

theorem RegistryCond.aligned {w : World} {ev : HeapEvent} (h : RegistryCond w ev) :
    Aligned ev := by
  cases ev with
  | delete handle => trivial
  | call ev =>
    cases ev with
    | create startAddr size => exact h
    | malloc handle size => trivial
    | realloc handle ptr size => trivial
    | free handle ptr => trivial
    | write addr v => trivial

theorem RegistryCond.unwrapped {w : World} {ev : HeapEvent} (h : RegistryCond w ev) :
    ev.Unwrapped := by
  cases ev with
  | delete handle => trivial
  | call ev =>
    cases ev with
    | realloc handle ptr size => exact h
    | create startAddr size => trivial
    | malloc handle size => trivial
    | free handle ptr => trivial
    | write addr v => trivial

theorem mem_triedHeaps {size : Nat} {is : List Nat}
    (hnull : ∀ i ∈ s.leading is, u32 (size + memBlockMinSize) < (s.heapList i).free →
      memAllocate s i size = some (0, s)) :
    ∀ i ∈ s.leading is, u32 (size + memBlockMinSize) < (s.heapList i).free →
      i ∈ triedHeaps s size is := by
  induction is with
  | nil => exact fun i hi => absurd hi List.not_mem_nil
  | cons j is ih =>
    rw [triedHeaps]
    by_cases hzero : (s.heapList j).size = 0
    · rw [leading_cons_of_eq_zero hzero]
      exact fun i hi => absurd hi List.not_mem_nil
    rw [leading_cons_of_ne_zero hzero] at hnull ⊢
    obtain ⟨hj, hrest⟩ := List.forall_mem_cons.1 hnull
    have ih' := ih hrest
    rw [if_neg hzero]
    by_cases hfree : u32 (size + memBlockMinSize) < (s.heapList j).free
    · rw [if_pos hfree, hj hfree]
      exact List.forall_mem_cons.2 ⟨fun _ => List.mem_cons_self,
        fun i hi hlt => List.mem_cons_of_mem j (ih' i hi hlt)⟩
    · rw [if_neg hfree]
      exact List.forall_mem_cons.2 ⟨fun hlt => absurd hlt hfree, ih'⟩

theorem HeapsInv.triesAll {size : Nat} (h : HeapsInv s live)
    (hcond : (∀ i, s.Active i → size + memBlockMinSize < (s.heapList i).free → s.Leading i) ∨
      ∃ k, s.Serves size k) : TriesAll s size := by
  intro s' hnull i hi hlt
  have hfree : (s.heapList i).free < 4294967296 := by
    obtain ⟨bs, hinv⟩ := h.layout i hi
    exact hinv.free_lt
  have hmin : memBlockMinSize = 24 := rfl
  have hsize : size < 4294967288 := by omega
  rcases h.mallocAny (hsize.trans (by decide)) (le_max_left size 4)
      (fun i hi => List.mem_range.1 hi) with
    ⟨heq, hall⟩ | ⟨-, -, -, ptr, s'', -, heq, hserved⟩
  · refine mem_triedHeaps hall i (mem_leading_iff.2 ?_) (by rwa [u32_of_lt (by omega)])
    rcases hcond with hleading | ⟨k, hserves⟩
    · exact hleading i hi hlt
    · exact absurd hserves ((h.mallocAny_eq_zero_iff hsize).1 heq k)
  · have hsame : some (ptr, s'') = some (0, s') := heq.symm.trans hnull
    exact absurd (Prod.mk.inj (Option.some.inj hsame)).1 hserved.ne_zero

theorem State.Tallied.heapStep {w w' : World} {ev : HeapEvent} (h : w.state.Tallied)
    (htracked : Tracked w live) (hp : Allowed w ev) (hc : RegistryCond w ev)
    (heq : heapStep w ev = some w') : w'.state.Tallied := by
  cases ev with
  | delete handle =>
    cases handle with
    | none => rwa [← Option.some.inj heq]
    | some i =>
      rw [← Option.some.inj heq]
      exact h.delete (hp i rfl) (hc i rfl)
  | call ev =>
    rw [MemHeap.heapStep] at heq
    cases ev with
    | create startAddr size =>
      rw [← Option.some.inj heq]
      exact h.create ⟨hp.1, hc, hp.2⟩
    | malloc handle size =>
      rw [step] at heq
      split at heq
      · cases heq
      · rename_i hmalloc
        rw [← Option.some.inj heq]
        exact (h.malloc htracked.heaps hp size.toNat_lt hmalloc).1
    | realloc handle ptr size =>
      rw [step] at heq
      split at heq
      · cases heq
      · rename_i hrealloc
        rw [← Option.some.inj heq]
        exact h.realloc htracked.heaps hp.1 size.toNat_lt hrealloc
    | free handle ptr =>
      rw [step] at heq
      split at heq
      · cases heq
      · rename_i hfree
        rw [← Option.some.inj heq]
        exact h.free hp.1 hfree
    | write addr v =>
      rw [← Option.some.inj heq]
      exact h.of_heapList rfl rfl

theorem consistent_of_cond {w : World} {ev : HeapEvent} (h : Tracked w live)
    (ht : w.state.Tallied) (hp : Allowed w ev) (hc : RegistryCond w ev) : Consistent w ev := by
  obtain ⟨w', live', heq, htracked⟩ := h.heapStep hp hc.aligned hc.unwrapped
  refine ⟨w', heq, (ht.heapStep h hp hc heq).eq htracked.heaps, ?_⟩
  cases ev with
  | delete handle => trivial
  | call ev =>
    cases ev with
    | malloc handle size =>
      cases handle with
      | none => exact h.heaps.triesAll hc
      | some i => trivial
    | free handle ptr =>
      cases handle with
      | none =>
        intro i hi hholds
        have hptr : ptr ≠ 0 := Nat.ne_of_gt (Nat.zero_lt_of_lt hholds.1)
        obtain ⟨j, s', hj, hholds', hone, hfree, hgiven, -⟩ := h.free_of_reaches hp hptr hc
        rw [h.heaps.eq_of_holds hi hholds hj hholds'] at hone hgiven
        exact ⟨s', hone, hfree, hgiven⟩
      | some i => trivial
    | create startAddr size => trivial
    | realloc handle ptr size => trivial
    | write addr v => trivial

def RegistryInv (w : World) : Prop := ∃ live, Tracked w live ∧ w.state.Tallied

/-- **The registry.** From the memory before the first call on, along every run of what users may do
whose events meet the condition, the calls return, the counter is the sum of the free bytes of the
heaps after each event, and the calls without a handle use all heaps. -/
theorem consistent_of_run (m : Memory) {evs : List HeapEvent}
    (hp : Guarded heapNext Allowed (World.init m) evs)
    (hc : Guarded heapNext RegistryCond (World.init m) evs) :
    Guarded heapNext Consistent (World.init m) evs := by
  have hinit : RegistryInv (World.init m) := ⟨_, tracked_init m, rfl, Nat.zero_lt_succ _⟩
  refine Guarded.of_invariant ?_ ?_ hinit (guarded_and.2 ⟨hp, hc⟩)
  · rintro w ev ⟨live, h, ht⟩ ⟨hev, hcond⟩
    exact consistent_of_cond h ht hev hcond
  · rintro w ev ⟨live, h, ht⟩ ⟨hev, hcond⟩
    obtain ⟨heq, live', h'⟩ := h.heapNext hev hcond.aligned hcond.unwrapped
    exact ⟨live', h', ht.heapStep h hev hcond heq⟩

/-- The run that fills a heap, deletes it and goes on with the other one. -/
def filledRun : List HeapEvent :=
  [.call (.create 4096 64), .call (.create 8192 32), .call (.malloc (some 1) 20),
    .delete (some 1), .call (.malloc none 4), .call (.free none 4152)]

theorem consistent_of_run_filledRun :
    Guarded heapNext Consistent (World.init fun _ => 0) filledRun := by
  refine consistent_of_run _ ⟨?_, ?_, ?_, ?_, ?_, ?_, trivial⟩ ⟨?_, ?_, ?_, ?_, ?_, ?_, trivial⟩
  · exact ⟨by decide, by decide +kernel⟩
  · exact ⟨by decide, by decide +kernel⟩
  · change State.Handle _ _
    decide +kernel
  · change State.Handle _ _
    decide +kernel
  · change State.Handle _ _
    decide +kernel
  · exact ⟨by decide +kernel, .inr ⟨by decide +kernel, by decide +kernel⟩⟩
  · exact (by decide : (4096 + 3) / 4 * 4 ≤ 4096 + 64)
  · exact (by decide : (8192 + 3) / 4 * 4 ≤ 8192 + 32)
  · trivial
  · rintro i hi
    cases hi
    decide +kernel
  · exact .inl (by decide +kernel)
  · intro _ i hi hholds
    revert i
    decide +kernel

/-- A heap is filled and deleted, and then the loops do not come to the heap behind it. -/
def gapWorld : World :=
  [.call (.create 4096 64), .call (.create 8192 64), .call (.malloc (some 0) 52),
    .call (.malloc (some 1) 4), .delete (some 0)].foldl heapNext (World.init fun _ => 0)

theorem not_consistent_gapWorld :
    ¬Consistent gapWorld (.call (.malloc none 4)) ∧
      ¬Consistent gapWorld (.call (.free none 8248)) := by
  refine ⟨?_, ?_⟩
  · rintro ⟨-, -, -, htries⟩
    have hzero : (gapWorld.state.heapList 0).size = 0 := by decide +kernel
    have hnull : tuyaMemHeapMalloc gapWorld.state none 4 = some (0, gapWorld.state) := by
      change mallocAny gapWorld.state 4 [0, 1, 2, 3] = _
      rw [mallocAny, if_pos hzero]
    have hmem := htries gapWorld.state hnull 1 (by decide +kernel) (by decide +kernel)
    revert hmem
    decide +kernel
  · rintro ⟨-, -, -, hreturns⟩
    obtain ⟨s', hone, hfree, -⟩ := hreturns 1 (by decide +kernel) (by decide +kernel)
    have hfrees := congrArg (Option.map fun s : State => (s.heapList 1).free)
      (hone.trans hfree.symm)
    revert hfrees
    decide +kernel

/-- A heap is deleted with its free bytes, and the loops do not come to a heap behind a gap. -/
theorem not_consistent_of_delete :
    (Guarded heapNext Allowed (World.init fun _ => 0)
        [.call (.create 4096 64), .delete (some 0)] ∧
      ¬Guarded heapNext Consistent (World.init fun _ => 0)
        [.call (.create 4096 64), .delete (some 0)]) ∧
      ¬Consistent gapWorld (.call (.malloc none 4)) ∧
      ¬Consistent gapWorld (.call (.free none 8248)) := by
  refine ⟨⟨⟨⟨by decide, by decide +kernel⟩, ?_, trivial⟩, ?_⟩, not_consistent_gapWorld⟩
  · change State.Handle _ _
    decide +kernel
  · rintro ⟨-, ⟨w', heq, hcounter, -⟩, -⟩
    obtain rfl := Option.some.inj heq
    revert hcounter
    decide +kernel

end TuyaOpen.MemHeap
