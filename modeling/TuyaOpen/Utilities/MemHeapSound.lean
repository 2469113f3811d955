import TuyaOpen.Utilities.MemHeapCalls

/-!
# Soundness of the memory heap

Along every run of calls in which only pointers in use are given back and users write only inside
the bytes they asked for, the blocks of every heap tile its region, the blocks in use are disjoint,
aligned and large enough, the free list is increasing without neighbours, and the counter of free
bytes is right. There is one exception: `tuya_mem_heap_realloc` computes the size of the new block
without the check for a wrap that `MEM_Allocate` has. A request for at least `2 ^ 32 - 8` bytes
wraps to a size of `0` or `4`, the old block is taken to be large enough, and its pointer is
returned.

## Main results

* `Inv.sound`: a heap with a layout is sound.
* `worldInv_step`: an event without a wrap keeps the layouts.
* `soundRun_init_iff`: the runs along which every heap is sound.
-/

namespace TuyaOpen.MemHeap

open Memory

/-! ### The block structure -/

/-- The blocks that begin at the given addresses follow each other from an address to another. -/
def Tiles (m : Memory) : Nat → Nat → List Nat → Prop
  | a, stop, [] => a = stop
  | a, stop, block :: blocks =>
    block = a ∧ 0 < blockSize m block ∧ Tiles m (a + blockSize m block) stop blocks

def FreeChain (m : Memory) : Nat → List Nat → Prop
  | link, [] => link = 0
  | link, block :: blocks => link = block ∧ block ≠ 0 ∧ FreeChain m (blockNext m block) blocks

/-- The block structure of a heap, with the addresses of its blocks and of its free blocks. -/
structure Structured (m : Memory) (heap : Heap) (live : Nat → Option Nat)
    (blocks frees : List Nat) : Prop where
  tiles : Tiles m (alignUp heap.base) (alignDown (heap.base + heap.size)) blocks
  live_block : ∀ ptr n, heap.Holds ptr → live ptr = some n →
    ptr - memBlockHeadSize ∈ blocks ∧ memAlignNum ∣ ptr ∧
      memBlockHeadSize + n + 1 ≤ blockSize m (ptr - memBlockHeadSize)
  disjoint : ∀ ptr ptr' n n', heap.Holds ptr → heap.Holds ptr' → live ptr = some n →
    live ptr' = some n' → ptr ≠ ptr' →
      ptr - memBlockHeadSize + blockSize m (ptr - memBlockHeadSize) ≤ ptr' - memBlockHeadSize ∨
        ptr' - memBlockHeadSize + blockSize m (ptr' - memBlockHeadSize) ≤ ptr - memBlockHeadSize
  chain : FreeChain m heap.freeList frees
  frees_eq : frees = blocks.filter fun block => live (block + memBlockHeadSize) = none
  increasing : frees.Pairwise (· < ·)
  separate : ∀ block ∈ frees, ∀ block' ∈ frees, block + blockSize m block ≠ block'
  free_eq : heap.free = (frees.map (blockSize m)).sum

/-- The block structure of a heap is as it should be: the blocks tile the region, the blocks in use
are disjoint, aligned and hold the bytes that were asked for with the tag, the free list has the
other blocks in increasing order without neighbours, and their bytes are counted. -/
def Sound (m : Memory) (heap : Heap) (live : Nat → Option Nat) : Prop :=
  ∃ blocks frees, Structured m heap live blocks frees

variable {m : Memory} {heap : Heap} {live : Nat → Option Nat} {bs : List Block} {a link : Nat}

def addrs : Nat → List Block → List Nat
  | _, [] => []
  | a, b :: bs => a :: addrs (a + b.size) bs

def freeAddrs : Nat → List Block → List Nat
  | _, [] => []
  | a, b :: bs => if b.used = none then a :: freeAddrs (a + b.size) bs
    else freeAddrs (a + b.size) bs

theorem addrs_append {xs ys : List Block} :
    addrs a (xs ++ ys) = addrs a xs ++ addrs (a + total xs) ys := by
  induction xs generalizing a with
  | nil => rfl
  | cons x xs ih => simp only [List.cons_append, addrs, ih, total_cons, Nat.add_assoc]

theorem le_of_mem_addrs {x : Nat} (h : x ∈ addrs a bs) : a ≤ x := by
  induction bs generalizing a with
  | nil => cases h
  | cons b bs ih =>
    rcases List.mem_cons.1 h with rfl | h
    · exact le_rfl
    · exact (Nat.le_add_right _ _).trans (ih h)

theorem exists_of_mem_addrs {x : Nat} (h : x ∈ addrs a bs) :
    ∃ xs b ys, bs = xs ++ b :: ys ∧ x = a + total xs := by
  induction bs generalizing a with
  | nil => cases h
  | cons b bs ih =>
    rcases List.mem_cons.1 h with rfl | h
    · exact ⟨[], b, bs, rfl, rfl⟩
    · obtain ⟨xs, c, ys, rfl, rfl⟩ := ih h
      exact ⟨b :: xs, c, ys, rfl, by rw [total_cons, Nat.add_assoc]⟩

theorem freeAddrs_sublist : (freeAddrs a bs).Sublist (addrs a bs) := by
  induction bs generalizing a with
  | nil => exact List.Sublist.refl _
  | cons b bs ih =>
    rw [freeAddrs, addrs]
    split_ifs
    · exact ih.cons_cons a
    · exact ih.cons a

theorem pairwise_addrs : (addrs a bs).Pairwise (· < ·) := by
  induction bs generalizing a with
  | nil => exact List.Pairwise.nil
  | cons b bs ih =>
    have hb := b.le_size
    refine List.Pairwise.cons (fun x hx => ?_) ih
    have hle := le_of_mem_addrs hx
    omega

theorem Laid.tiles (h : Laid m a bs link) : Tiles m a (a + total bs) (addrs a bs) := by
  induction bs generalizing a with
  | nil => rfl
  | cons b bs ih =>
    have hb := b.le_size
    refine ⟨rfl, ?_, ?_⟩
    · rw [h.1.size]
      omega
    · rw [h.1.size, total_cons, ← Nat.add_assoc]
      exact ih h.2

theorem Laid.freeChain (h : Laid m a bs 0) (ha : a ≠ 0) :
    FreeChain m (firstFree a bs 0) (freeAddrs a bs) := by
  induction bs generalizing a with
  | nil => rfl
  | cons b bs ih =>
    rw [firstFree, freeAddrs]
    split_ifs with hb
    · refine ⟨rfl, ha, ?_⟩
      rw [h.1.next hb]
      exact ih h.2 (by omega)
    · exact ih h.2 (by omega)

theorem Laid.sum_freeAddrs (h : Laid m a bs link) :
    ((freeAddrs a bs).map (blockSize m)).sum = freeTotal bs := by
  induction bs generalizing a with
  | nil => rfl
  | cons b bs ih =>
    rw [freeAddrs, freeTotal]
    split_ifs with hb
    · rw [List.map_cons, List.sum_cons, h.1.size, ih h.2]
    · rw [ih h.2, Nat.zero_add]

theorem not_headUsed_of_mem (h : a ∈ freeAddrs a bs) : ¬HeadUsed bs := by
  intro hused
  cases bs with
  | nil => cases h
  | cons b bs =>
    have hb := b.le_size
    rw [freeAddrs, if_neg (hused b rfl)] at h
    have hle := le_of_mem_addrs (freeAddrs_sublist.subset h)
    omega

theorem Laid.separate (h : Laid m a bs link) (hsep : Separated bs) :
    ∀ x ∈ freeAddrs a bs, ∀ y ∈ freeAddrs a bs, x + blockSize m x ≠ y := by
  induction bs generalizing a with
  | nil => exact fun x hx => by cases hx
  | cons b bs ih =>
    have hb := b.le_size
    have hcons : Separated ([] ++ b :: bs) := hsep
    intro x hx y hy heq
    rw [freeAddrs] at hx hy
    split_ifs at hx hy with hfree
    · obtain ⟨-, hbs, -, hhead⟩ := (separated_append_free hfree).1 hcons
      rcases List.mem_cons.1 hx with rfl | hx
      · rw [h.1.size] at heq
        rcases List.mem_cons.1 hy with rfl | hy
        · omega
        · rw [← heq] at hy
          exact not_headUsed_of_mem hy hhead
      · rcases List.mem_cons.1 hy with rfl | hy
        · have hle := le_of_mem_addrs (freeAddrs_sublist.subset hx)
          omega
        · exact ih h.2 hbs x hx y hy heq
    · exact ih h.2 ((separated_append_used hfree).1 hcons).2 x hx y hy heq

theorem freeAddrs_eq_filter
    (h : ∀ x ∈ addrs a bs, live (x + memBlockHeadSize) = liveAt a bs (x + memBlockHeadSize)) :
    freeAddrs a bs = (addrs a bs).filter fun x => live (x + memBlockHeadSize) = none := by
  induction bs generalizing a with
  | nil => rfl
  | cons b bs ih =>
    have hb := b.le_size
    obtain ⟨hhead, htail⟩ := List.forall_mem_cons.1 h
    rw [liveAt, if_pos rfl] at hhead
    have hrest := ih fun x hx => by
      have hle := le_of_mem_addrs hx
      rw [htail x hx, liveAt, if_neg (by omega)]
    rw [freeAddrs, addrs, List.filter_cons, hrest, hhead]
    split_ifs with hused hused hused <;> simp_all

theorem Laid.disjoint {ptr ptr' n n' : Nat} (h : Laid m a bs 0) (hlive : liveAt a bs ptr = some n)
    (hlive' : liveAt a bs ptr' = some n') (hne : ptr ≠ ptr') :
    ptr - memBlockHeadSize + blockSize m (ptr - memBlockHeadSize) ≤ ptr' - memBlockHeadSize ∨
      ptr' - memBlockHeadSize + blockSize m (ptr' - memBlockHeadSize) ≤
        ptr - memBlockHeadSize := by
  obtain ⟨xs, b, ys, rfl, -, rfl⟩ := exists_of_liveAt hlive
  rw [liveAt_append] at hlive'
  rw [Nat.add_sub_cancel, h.middle.size]
  split_ifs at hlive' with hlt
  · right
    obtain ⟨xs', b', ys', rfl, -, rfl⟩ := exists_of_liveAt hlive'
    rw [List.append_assoc] at h
    rw [Nat.add_sub_cancel, h.middle.size, total_append_cons]
    exact Nat.le_add_right _ _
  · left
    rw [liveAt, if_neg (Ne.symm hne)] at hlive'
    obtain ⟨xs', b', ys', rfl, -, rfl⟩ := exists_of_liveAt hlive'
    rw [Nat.add_sub_cancel]
    exact Nat.le_add_right _ _

theorem Inv.sound (h : Inv m heap live bs) : Sound m heap live := by
  refine ⟨addrs heap.start bs, freeAddrs heap.start bs, ?_⟩
  have hlive {ptr n : Nat} (hptr : heap.Holds ptr) (hlive : live ptr = some n) :
      liveAt heap.start bs ptr = some n := h.live_eq ptr hptr ▸ hlive
  refine ⟨?_, fun ptr n hptr hn => ?_, fun ptr ptr' n n' hptr hptr' hn hn' hne => ?_, ?_, ?_, ?_,
    h.laid.separate h.separated, ?_⟩
  · have htiles := h.laid.tiles
    rwa [h.tiles] at htiles
  · obtain ⟨xs, b, ys, rfl, hused, rfl⟩ := h.exists_block hptr hn
    rw [Nat.add_sub_cancel, h.laid.middle.size, addrs_append]
    refine ⟨List.mem_append_right _ List.mem_cons_self, ?_, b.used_le n hused⟩
    exact Nat.dvd_add (Nat.dvd_add h.placed.dvd_start dvd_total) (dvd_refl 4)
  · exact h.laid.disjoint (hlive hptr hn) (hlive hptr' hn') hne
  · rw [h.freeList]
    exact h.laid.freeChain h.placed.start_ne
  · refine freeAddrs_eq_filter fun x hx => h.live_eq _ ?_
    obtain ⟨xs, b, ys, rfl, rfl⟩ := exists_of_mem_addrs hx
    exact h.holds_block
  · exact pairwise_addrs.sublist freeAddrs_sublist
  · rw [h.free, h.laid.sum_freeAddrs]

/-! ### Runs -/

/-- The pointer is `NULL`, or it is in use and belongs to the heap of the handle. -/
def World.MayReturn (w : World) (handle : Option Nat) (ptr : Nat) : Prop :=
  ptr = 0 ∨ w.live ptr ≠ none ∧ w.state.Owns handle ptr

/-- What users may do: create heaps on regions of the address space that are apart from each other,
use the handles of heaps, give back pointers in use, and write inside the bytes they asked for and
outside the heaps. -/
def Permitted (w : World) : Event → Prop
  | .create startAddr size =>
    memHeapMinSize + memAlignNum ≤ size.toNat ∧ startAddr.toNat + size.toNat < 4294967296 ∧
      ∀ i, w.state.Active i →
        (w.state.heapList i).base + (w.state.heapList i).size ≤ startAddr.toNat ∨
          startAddr.toNat + size.toNat ≤ (w.state.heapList i).base
  | .malloc handle _ => w.state.Handle handle
  | .realloc handle ptr _ => w.state.Handle handle ∧ w.MayReturn handle ptr
  | .free handle ptr => w.state.Handle handle ∧ w.MayReturn handle ptr
  | .write addr _ =>
    (∃ ptr n, w.live ptr = some n ∧ ptr ≤ addr ∧ addr < ptr + n) ∨
      ∀ i, w.state.Active i → addr < (w.state.heapList i).base ∨
        (w.state.heapList i).base + (w.state.heapList i).size ≤ addr

def Unwrapped : Event → Prop
  | .realloc _ ptr size => ptr ≠ 0 → size.toNat < 4294967288
  | _ => True

def World.AllSound (w : World) : Prop :=
  ∀ i, w.state.Active i → Sound w.state.mem (w.state.heapList i) w.live

/-- The calls of a run return, and every heap is sound before the run and after each of its
events. -/
def SoundRun : World → List Event → Prop
  | w, [] => w.AllSound
  | w, ev :: evs => w.AllSound ∧ ∃ w', step w ev = some w' ∧ SoundRun w' evs

section Step

variable {w : World}

theorem WorldInv.allSound (h : WorldInv w.state w.live) : w.AllSound := by
  intro i hi
  obtain ⟨bs, hinv⟩ := h.layout i hi
  exact hinv.sound

theorem WorldInv.live_zero (h : WorldInv w.state w.live) : w.live 0 = none := by
  by_contra hne
  obtain ⟨n, hn⟩ := Option.ne_none_iff_exists'.1 hne
  obtain ⟨i, -, hholds⟩ := h.owned 0 n hn
  exact Nat.not_lt_zero _ hholds.1

theorem World.MayReturn.exists_live {handle : Option Nat} {ptr : Nat}
    (h : w.MayReturn handle ptr) (hptr : ptr ≠ 0) :
    ∃ n, w.live ptr = some n ∧ w.state.Owns handle ptr := by
  obtain ⟨hlive, howns⟩ := h.resolve_left hptr
  obtain ⟨n, hn⟩ := Option.ne_none_iff_exists'.1 hlive
  exact ⟨n, hn, howns⟩

theorem worldInv_malloc {handle : Option Nat} {size : UInt32} (h : WorldInv w.state w.live)
    (hp : Permitted w (.malloc handle size)) :
    ∃ w', step w (.malloc handle size) = some w' ∧ WorldInv w'.state w'.live := by
  rcases h.malloc hp size.toNat_lt (le_max_left _ 4) with heq | ⟨ptr, s', heq, halloc⟩
  · refine ⟨w, ?_, h⟩
    rw [step, heq]
    rfl
  · refine ⟨⟨s', Function.update w.live ptr (some size.toNat)⟩, ?_, halloc.inv⟩
    rw [step, heq]
    dsimp only
    rw [if_neg halloc.ne_zero]

theorem worldInv_realloc {handle : Option Nat} {ptr : Nat} {size : UInt32}
    (h : WorldInv w.state w.live) (hp : Permitted w (.realloc handle ptr size))
    (hu : Unwrapped (.realloc handle ptr size)) :
    ∃ w', step w (.realloc handle ptr size) = some w' ∧ WorldInv w'.state w'.live := by
  by_cases hptr : ptr = 0
  · subst hptr
    have hupdate : Function.update w.live 0 none = w.live :=
      Function.update_eq_self_iff.2 h.live_zero.symm
    have heq : step w (.realloc handle 0 size) = step w (.malloc handle size) := by
      rw [step, step, tuyaMemHeapRealloc, if_pos rfl, hupdate]
    rw [heq]
    exact worldInv_malloc h hp.1
  · obtain ⟨n, hn, howns⟩ := hp.2.exists_live hptr
    obtain ⟨ptr', s', heq, hinv⟩ := h.realloc hp.1 hptr howns hn (hu hptr)
    refine ⟨⟨s', if ptr' = 0 then w.live
      else Function.update (Function.update w.live ptr none) ptr' (some size.toNat)⟩, ?_, hinv⟩
    rw [step, heq]

theorem worldInv_free {handle : Option Nat} {ptr : Nat} (h : WorldInv w.state w.live)
    (hp : Permitted w (.free handle ptr)) :
    ∃ w', step w (.free handle ptr) = some w' ∧ WorldInv w'.state w'.live := by
  by_cases hptr : ptr = 0
  · subst hptr
    refine ⟨⟨w.state, Function.update w.live 0 none⟩, ?_, ?_⟩
    · rw [step, tuyaMemHeapFree_zero]
    · rwa [Function.update_eq_self_iff.2 h.live_zero.symm]
  · obtain ⟨n, hn, howns⟩ := hp.2.exists_live hptr
    obtain ⟨s', heq, hinv⟩ := h.free howns hn
    refine ⟨⟨s', Function.update w.live ptr none⟩, ?_, hinv⟩
    rw [step, heq]

theorem worldInv_write {addr : Nat} {v : UInt8} (h : WorldInv w.state w.live)
    (hp : Permitted w (.write addr v)) :
    ∃ w', step w (.write addr v) = some w' ∧ WorldInv w'.state w'.live :=
  ⟨_, rfl, h.of_heaps (h.heaps.writeByte hp) fun _ => rfl⟩

theorem worldInv_step {ev : Event} (h : WorldInv w.state w.live) (hp : Permitted w ev)
    (hu : Unwrapped ev) : ∃ w', step w ev = some w' ∧ WorldInv w'.state w'.live := by
  cases ev with
  | create startAddr size => exact ⟨_, rfl, h.create hp.1 hp.2.1 hp.2.2⟩
  | malloc handle size => exact worldInv_malloc h hp
  | realloc handle ptr size => exact worldInv_realloc h hp hu
  | free handle ptr => exact worldInv_free h hp
  | write addr v => exact worldInv_write h hp

theorem not_allSound_of_wrap {ev : Event} {w' : World} (h : WorldInv w.state w.live)
    (hp : Permitted w ev) (hu : ¬Unwrapped ev) (hstep : step w ev = some w') : ¬w'.AllSound := by
  cases ev with
  | realloc handle ptr size =>
    obtain ⟨hptr, hsize⟩ := Classical.not_imp.1 hu
    obtain ⟨n, hn, -⟩ := hp.2.exists_live hptr
    have heq : tuyaMemHeapRealloc w.state handle ptr size.toNat = some (ptr, w.state) :=
      h.heaps.realloc_of_wrap hptr hn (not_lt.1 hsize) size.toNat_lt
    rw [step, heq] at hstep
    dsimp only at hstep
    rw [if_neg hptr] at hstep
    obtain rfl := Option.some.inj hstep
    intro hsound
    obtain ⟨i, hi, hholds⟩ := h.owned ptr n hn
    obtain ⟨blocks, frees, hstructured⟩ := hsound i hi
    obtain ⟨-, -, hbytes⟩ :=
      hstructured.live_block ptr size.toNat hholds (Function.update_self _ _ _)
    dsimp only at hbytes
    have hlt := h.heaps.blockSize_lt hn
    have hhead : memBlockHeadSize = 4 := rfl
    omega
  | create startAddr size => exact absurd trivial hu
  | malloc handle size => exact absurd trivial hu
  | free handle ptr => exact absurd trivial hu
  | write addr v => exact absurd trivial hu

end Step

theorem soundRun_iff_of_worldInv {w : World} {evs : List Event} (h : WorldInv w.state w.live)
    (hp : Guarded next Permitted w evs) : SoundRun w evs ↔ ∀ ev ∈ evs, Unwrapped ev := by
  induction evs generalizing w with
  | nil => exact iff_of_true h.allSound (List.forall_mem_nil _)
  | cons ev evs ih =>
    obtain ⟨hev, hevs⟩ := hp
    rw [List.forall_mem_cons]
    by_cases hu : Unwrapped ev
    · obtain ⟨w', hstep, hinv⟩ := worldInv_step h hev hu
      have hnext : next w ev = w' := by rw [next, hstep, Option.getD_some]
      rw [hnext] at hevs
      constructor
      · rintro ⟨-, w'', hstep', hrun⟩
        rw [hstep] at hstep'
        obtain rfl := Option.some.inj hstep'
        exact ⟨hu, (ih hinv hevs).1 hrun⟩
      · rintro ⟨-, hrest⟩
        exact ⟨h.allSound, w', hstep, (ih hinv hevs).2 hrest⟩
    · refine iff_of_false ?_ fun hall => hu hall.1
      rintro ⟨-, w', hstep, hrun⟩
      have hsound : w'.AllSound := by
        cases evs with
        | nil => exact hrun
        | cons => exact hrun.1
      exact not_allSound_of_wrap h hev hu hstep hsound

theorem worldInv_init (m : Memory) : WorldInv (World.init m).state (World.init m).live := by
  have hnot (i : Nat) : ¬(World.init m).state.Active i := fun hi => hi.2 rfl
  exact ⟨fun i hi => absurd hi (hnot i), fun i _ hi => absurd hi (hnot i),
    fun i hi => absurd hi (hnot i), fun _ _ h => by cases h⟩

/-- **Soundness of the heaps.** From the memory before the first call on, along every run of
permitted calls and writes, every heap is sound after each event exactly when no reallocation asks
for a size that wraps. -/
theorem soundRun_init_iff (m : Memory) {evs : List Event}
    (hp : Guarded next Permitted (World.init m) evs) :
    SoundRun (World.init m) evs ↔ ∀ ev ∈ evs, Unwrapped ev :=
  soundRun_iff_of_worldInv (worldInv_init m) hp

/-- A heap of 64 bytes, a pointer to 4 bytes of it, and a larger reallocation that moves it. -/
theorem soundRun_init_iff_moved :
    Guarded next Permitted (World.init fun _ => 0)
        [.create 4096 64, .malloc (some 0) 4, .write 4152 1, .realloc none 4152 9] ∧
      SoundRun (World.init fun _ => 0)
        [.create 4096 64, .malloc (some 0) 4, .write 4152 1, .realloc none 4152 9] := by
  have hp : Guarded next Permitted (World.init fun _ => 0)
      [.create 4096 64, .malloc (some 0) 4, .write 4152 1, .realloc none 4152 9] := by
    refine ⟨⟨by decide, by decide, fun i hi => absurd rfl hi.2⟩, ?_, ?_, ⟨?_, ?_⟩, trivial⟩
    · rintro i hi
      cases hi
      exact ⟨by decide, by decide +kernel⟩
    · exact Or.inl ⟨4152, 4, by decide +kernel, by decide, by decide⟩
    · rintro i hi
      cases hi
    · refine Or.inr ⟨by decide +kernel, ?_⟩
      rintro i hi
      cases hi
  refine ⟨hp, (soundRun_init_iff _ hp).2 ?_⟩
  simp [Unwrapped]

/-- The pointer to 4 bytes is reallocated for `2 ^ 32 - 8` bytes. -/
theorem not_soundRun_of_wrap :
    ∃ m evs, Guarded next Permitted (World.init m) evs ∧ ¬SoundRun (World.init m) evs := by
  have hp : Guarded next Permitted (World.init fun _ => 0)
      [.create 4096 64, .malloc (some 0) 4, .realloc (some 0) 4152 4294967288] := by
    have hactive : (next (World.init fun _ => 0) (.create 4096 64)).state.Active 0 :=
      ⟨by decide, by decide +kernel⟩
    have hactive' : (next (next (World.init fun _ => 0) (.create 4096 64))
        (.malloc (some 0) 4)).state.Active 0 := ⟨by decide, by decide +kernel⟩
    refine ⟨⟨by decide, by decide, fun i hi => absurd rfl hi.2⟩, ?_, ⟨?_, ?_⟩, trivial⟩
    · rintro i hi
      cases hi
      exact hactive
    · rintro i hi
      cases hi
      exact hactive'
    · refine Or.inr ⟨by decide +kernel, ?_⟩
      rintro i hi
      cases hi
      exact ⟨hactive', by decide +kernel⟩
  refine ⟨_, _, hp, fun hrun => ?_⟩
  have hall := (soundRun_iff_of_worldInv (worldInv_init _) hp).1 hrun
  have hlt : (4294967288 : UInt32).toNat < 4294967288 :=
    hall (.realloc (some 0) 4152 4294967288) (by simp) (by decide)
  exact absurd hlt (by decide)

end TuyaOpen.MemHeap
