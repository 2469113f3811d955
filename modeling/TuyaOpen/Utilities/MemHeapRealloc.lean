import TuyaOpen.Utilities.MemHeapRegistry

/-!
# Reallocation

`tuya_mem_heap_realloc` keeps a block that is large enough. Otherwise it allocates a new block,
copies all bytes of the old one and gives the old one back. The size that it compares with the old
block may wrap. Without a handle the loop of `tuya_mem_heap_free` may not come to the heap of the
old block.
-/

namespace TuyaOpen.MemHeap

open Memory

variable {m m' : Memory} {heap : Heap} {live : Nat → Option Nat} {bs : List Block} {s : State}
  {i : Nat}

/-! ### Live pointers -/

/-- The block of a pointer is one of those that tile the region of a heap. It has the tag of a block
in use, it is not given back, and `n` bytes fit between its header and its tag. -/
structure InUse (m : Memory) (heap : Heap) (ptr n : Nat) : Prop where
  holds : heap.Holds ptr
  block : ∃ blocks, Tiles m (alignUp heap.base) (alignDown (heap.base + heap.size)) blocks ∧
    ptr - memBlockHeadSize ∈ blocks
  tag : m (memDogAddr m (ptr - memBlockHeadSize)) = memBlockStatUse
  not_givenBack : ¬GivenBack m heap ptr
  le_size : memBlockHeadSize + n + 1 ≤ blockSize m (ptr - memBlockHeadSize)

/-- A live pointer to `n` usable bytes. -/
def Usable (s : State) (ptr n : Nat) : Prop :=
  ∃ i, s.Active i ∧ InUse s.mem (s.heapList i) ptr n

theorem Inv.inUse {ptr n : Nat} (h : Inv m heap live bs) (hholds : heap.Holds ptr)
    (hlive : live ptr = some n) : InUse m heap ptr n := by
  have hnot := h.not_givenBack hholds hlive
  obtain ⟨xs, b, ys, rfl, hused, rfl⟩ := h.exists_block hholds hlive
  have hat := h.laid.middle
  refine ⟨hholds, ⟨addrs heap.start (xs ++ b :: ys), ?_, ?_⟩, ?_, hnot, ?_⟩
  · have htiles := h.laid.tiles
    rwa [h.tiles] at htiles
  · rw [Nat.add_sub_cancel, addrs_append]
    exact List.mem_append_right _ List.mem_cons_self
  · rw [Nat.add_sub_cancel, memDogAddr_eq hat, hat.tag, Block.tag_of_used (by simp [hused])]
  · rw [Nat.add_sub_cancel, hat.size]
    exact b.used_le n hused

theorem HeapsInv.usable {ptr n : Nat} (h : HeapsInv s live) (hlive : live ptr = some n) :
    Usable s ptr n := by
  obtain ⟨i, hi, hholds⟩ := h.owned ptr n hlive
  obtain ⟨bs, hinv⟩ := h.layout i hi
  exact ⟨i, hi, hinv.inUse hholds hlive⟩

theorem HeapsInv.not_givenBack {ptr n : Nat} (h : HeapsInv s live) (hlive : live ptr = some n)
    {j : Nat} (hj : s.Active j) : ¬GivenBack s.mem (s.heapList j) ptr := by
  obtain ⟨i, hi, hholds⟩ := h.owned ptr n hlive
  obtain ⟨bs, hinv⟩ := h.layout i hi
  by_cases hji : j = i
  · rw [hji]
    exact hinv.not_givenBack hholds hlive
  · rintro ⟨frees, block, hchain, hmem, hle, hlt⟩
    obtain ⟨bs', hinv'⟩ := h.layout j hj
    obtain ⟨xs, b, ys, rfl, -, rfl⟩ := hinv.exists_block hholds hlive
    obtain ⟨ws, f, us, rfl, -, rfl⟩ := (hinv'.mem_free_iff hchain).1 hmem
    rw [Nat.add_sub_cancel] at hle hlt
    rw [hinv'.laid.middle.size] at hlt
    have hb := b.le_size
    have h₁ := hinv.placed.base_le_start
    have h₂ := hinv.placed.stop_le
    have h₃ := hinv'.placed.base_le_start
    have h₄ := hinv'.placed.stop_le
    have htiles := hinv.tiles
    have htiles' := hinv'.tiles
    rw [total_append_cons] at htiles htiles'
    rcases h.apart j i hj hi hji with hapart | hapart <;> omega

/-! ### What should be true -/

/-- A reallocation of a pointer in use for `old` bytes returns `NULL` and keeps the block with its
bytes, or it returns a live pointer to enough bytes, the first of which are the old ones, and gives
the block back if it is another one. -/
def ReallocRight (w : World) : HeapEvent → Prop
  | .call (.realloc handle ptr size) => ∀ old, w.live ptr = some old →
    ∃ ptr' s', tuyaMemHeapRealloc w.state handle ptr size.toNat = some (ptr', s') ∧
      if ptr' = 0 then
        Usable s' ptr old ∧ ∀ k < old, s'.mem (ptr + k) = w.state.mem (ptr + k)
      else
        Usable s' ptr' size.toNat ∧
          (∀ k < min old size.toNat, s'.mem (ptr' + k) = w.state.mem (ptr + k)) ∧
          (ptr' ≠ ptr → ∃ i, s'.Active i ∧ GivenBack s'.mem (s'.heapList i) ptr)
  | _ => True

/-- The condition on a reallocation: its size does not wrap, and the loop of `tuya_mem_heap_free`
comes to the heap of the pointer, or the block is large enough, or no heap serves the request. -/
def ReallocCond (w : World) : HeapEvent → Prop
  | .call (.realloc handle ptr size) => ptr ≠ 0 → size.toNat < 4294967288 ∧
    (w.state.Reaches handle ptr ∨
      newSize (max size.toNat 4) ≤ blockSize w.state.mem (ptr - memBlockHeadSize) ∨
      ∀ k, ¬w.state.Serves (max size.toNat 4) k)
  | _ => True

theorem ReallocCond.unwrapped {w : World} {ev : HeapEvent} (h : ReallocCond w ev) :
    ev.Unwrapped := by
  cases ev with
  | delete handle => trivial
  | call ev =>
    cases ev with
    | realloc handle ptr size => exact fun hptr => (h hptr).1
    | create startAddr size => trivial
    | malloc handle size => trivial
    | free handle ptr => trivial
    | write addr v => trivial

section Step

variable {w : World} {handle : Option Nat} {ptr old : Nat} {size : UInt32}

theorem Tracked.not_reallocRight_of_wrap (h : Tracked w live) (hptr : ptr ≠ 0)
    (hlive : w.live ptr = some old) (hsize : 4294967288 ≤ size.toNat) :
    ¬ReallocRight w (.call (.realloc handle ptr size)) := by
  intro hright
  have hlive' := h.within ptr old hlive
  obtain ⟨ptr', s', heq, hcases⟩ := hright old hlive
  rw [h.heaps.realloc_of_wrap hptr hlive' hsize size.toNat_lt] at heq
  obtain ⟨rfl, rfl⟩ := Prod.mk.inj (Option.some.inj heq)
  rw [if_neg hptr] at hcases
  obtain ⟨⟨i, -, hinUse⟩, -⟩ := hcases
  have hle := hinUse.le_size
  have hlt := h.heaps.blockSize_lt hlive'
  have hhead : memBlockHeadSize = 4 := rfl
  omega

theorem Moved.right {size ptr' : Nat} {c : State} (h : Moved s live ptr old size ptr' c)
    (howns : s.Owns handle ptr) (hreaches : s.Reaches handle ptr)
    (hlive : live ptr = some old) :
    ∃ s', tuyaMemHeapFree c handle ptr = some s' ∧ Usable s' ptr' size ∧
      (∀ k < min old size, s'.mem (ptr' + k) = s.mem (ptr + k)) ∧
      ∃ i, s'.Active i ∧ GivenBack s'.mem (s'.heapList i) ptr := by
  obtain ⟨s', heq, hreleased⟩ := h.free howns hreaches hlive
  have hnew : Function.update live ptr' (some size) ptr' = some size := Function.update_self _ _ _
  refine ⟨s', heq, hreleased.inv.usable ((Function.update_of_ne (h.ne hlive) _ _).trans hnew),
    fun k hk => ?_, ?_⟩
  · have hsame := hreleased.same ptr' size (h.ne hlive) hnew
    obtain ⟨i, -, hinUse⟩ := h.inv.usable hnew
    have hle := hinUse.le_size
    have hhead : memBlockHeadSize = 4 := rfl
    rw [hsame (ptr' + k) (by omega) (by omega)]
    exact h.copied k (by omega)
  · have hold := h.live_eq hlive
    obtain ⟨i, hi, hholds⟩ := h.inv.owned ptr old hold
    exact ⟨i, (active_iff_of_size_eq hreleased.size_eq i).2 hi,
      hreleased.givenBack h.inv hi hholds hold⟩

/-- A reallocation that moves the bytes does what it should exactly when the loop of
`tuya_mem_heap_free` comes to the heap of the old block. -/
theorem Moved.reallocRight_iff {ptr' : Nat} {c : State}
    (h : Moved w.state live ptr old size.toNat ptr' c) (howns : w.state.Owns handle ptr)
    (hlive : w.live ptr = some old) (hlive' : live ptr = some old)
    (heq : ∀ s', tuyaMemHeapFree c handle ptr = some s' →
      tuyaMemHeapRealloc w.state handle ptr size.toNat = some (ptr', s')) :
    ReallocRight w (.call (.realloc handle ptr size)) ↔ w.state.Reaches handle ptr := by
  constructor
  · intro hright
    by_contra hreaches
    -- the old block stays in use
    have hfree := h.inv.free_of_not_reaches
      (mt (reaches_congr h.base_eq h.size_eq handle ptr).1 hreaches)
    obtain ⟨ptr'', s', heq', hcases⟩ := hright old hlive
    rw [heq c hfree] at heq'
    obtain ⟨rfl, rfl⟩ := Prod.mk.inj (Option.some.inj heq')
    rw [if_neg h.ne_zero] at hcases
    obtain ⟨i, hi, hgiven⟩ := hcases.2.2 (h.ne hlive')
    exact h.inv.not_givenBack (h.live_eq hlive') hi hgiven
  · intro hreaches old' hold
    obtain rfl := Option.some.inj (hlive.symm.trans hold)
    obtain ⟨s', hfree, husable, hcopied, hgiven⟩ := h.right howns hreaches hlive'
    refine ⟨ptr', s', heq s' hfree, ?_⟩
    rw [if_neg h.ne_zero]
    exact ⟨husable, hcopied, fun _ => hgiven⟩

theorem Tracked.reallocRight_iff (h : Tracked w live)
    (hp : Permitted w (.realloc handle ptr size)) :
    ReallocRight w (.call (.realloc handle ptr size)) ↔
      ReallocCond w (.call (.realloc handle ptr size)) := by
  by_cases hptr : ptr = 0
  · subst hptr
    refine iff_of_true (fun old hlive => ?_) fun hne => absurd rfl hne
    rw [h.live_zero] at hlive
    cases hlive
  obtain ⟨old, hlive, hlive', howns⟩ := h.exists_live hp.2 hptr
  by_cases hsize : size.toNat < 4294967288
  · have hmax : max size.toNat 4 < 4294967288 := max_lt hsize (by decide)
    rcases h.heaps.realloc hp.1 hptr hlive' hsize with
      ⟨hfits, heq, hinv⟩ | ⟨hnot, ⟨hnull, heq⟩ | ⟨ptr', s', c, hmalloc, hmoved, heq⟩⟩
    · -- the block is large enough
      refine iff_of_true (fun old' hold => ⟨ptr, w.state, heq, ?_⟩)
        fun _ => ⟨hsize, .inr (.inl hfits)⟩
      rw [if_neg hptr]
      exact ⟨hinv.usable (Function.update_self _ _ _), fun _ _ => rfl, fun hne => absurd rfl hne⟩
    · -- there is no new block
      refine iff_of_true (fun old' hold => ⟨0, w.state, heq, ?_⟩) fun _ => ⟨hsize, ?_⟩
      · rw [if_pos rfl]
        exact ⟨h.heaps.usable (h.within ptr old' hold), fun _ _ => rfl⟩
      · cases handle with
        | some i => exact .inl fun hnone => by cases hnone
        | none => exact .inr (.inr ((h.heaps.mallocAny_eq_zero_iff hmax).1 hnull))
    · rw [hmoved.reallocRight_iff howns hlive hlive' heq]
      refine ⟨fun hreaches _ => ⟨hsize, .inl hreaches⟩, fun hc => ?_⟩
      rcases (hc hptr).2 with hreaches | hfits | hnone
      · exact hreaches
      · exact absurd hfits (not_le.2 hnot)
      · rintro rfl
        have hnull := (h.heaps.mallocAny_eq_zero_iff hmax).2 hnone
        rw [hmalloc] at hnull
        exact absurd (Prod.mk.inj (Option.some.inj hnull)).1 hmoved.ne_zero
  · exact iff_of_false (h.not_reallocRight_of_wrap hptr hlive (not_lt.1 hsize))
      fun hc => hsize (hc hptr).1

theorem Tracked.right_iff {ev : HeapEvent} (h : Tracked w live) (hp : Allowed w ev) :
    ReallocRight w ev ↔ ReallocCond w ev := by
  cases ev with
  | delete handle => exact Iff.rfl
  | call ev =>
    cases ev with
    | realloc handle ptr size => exact h.reallocRight_iff hp
    | create startAddr size => exact Iff.rfl
    | malloc handle size => exact Iff.rfl
    | free handle ptr => exact Iff.rfl
    | write addr v => exact Iff.rfl

end Step

def ReallocInv (w : World) : Prop := ∃ live, Tracked w live

theorem ReallocInv.heapNext {w : World} {ev : HeapEvent} (h : ReallocInv w)
    (hev : Aligned ev ∧ Allowed w ev) (hcond : ReallocCond w ev) :
    ReallocInv (heapNext w ev) := by
  obtain ⟨live, h⟩ := h
  exact (h.heapNext hev.2 hev.1 hcond.unwrapped).2

/-- **Reallocation.** From the memory before the first call on, along every run of what users may
do, every reallocation does what it should exactly when every one meets the condition. -/
theorem reallocRight_iff_of_run (m : Memory) {evs : List HeapEvent}
    (hp : Guarded heapNext Allowed (World.init m) evs) (ha : ∀ ev ∈ evs, Aligned ev) :
    Guarded heapNext ReallocRight (World.init m) evs ↔
      Guarded heapNext ReallocCond (World.init m) evs := by
  have hinit : ReallocInv (World.init m) := ⟨_, tracked_init m⟩
  have hall := hp.and_of_forall_mem ha
  have hiff : Guarded heapNext
        (fun w ev => (Aligned ev ∧ Allowed w ev) ∧ ReallocRight w ev) (World.init m) evs ↔
      Guarded heapNext
        (fun w ev => (Aligned ev ∧ Allowed w ev) ∧ ReallocCond w ev) (World.init m) evs := by
    refine guarded_iff_of_invariant ?_ ?_ hinit
    · rintro w ev ⟨live, h⟩
      exact and_congr_right fun hev => h.right_iff hev.2
    · exact fun w ev h hev => h.heapNext hev.1 hev.2
  exact ⟨fun hright => (guarded_and.1 (hiff.1 (guarded_and.2 ⟨hall, hright⟩))).2,
    fun hcond => (guarded_and.1 (hiff.2 (guarded_and.2 ⟨hall, hcond⟩))).2⟩

/-- A pointer is moved to a larger block, after a heap has been deleted and another one created. -/
def movedRun : List HeapEvent :=
  [.call (.create 4096 64), .delete (some 0), .call (.create 8192 64), .call (.malloc none 4),
    .call (.realloc none 8248 9)]

theorem reallocRight_iff_of_run_movedRun :
    Guarded heapNext ReallocRight (World.init fun _ => 0) movedRun := by
  have hp : Guarded heapNext Allowed (World.init fun _ => 0) movedRun := by
    refine ⟨⟨by decide, by decide +kernel⟩, ?_, ⟨by decide, by decide +kernel⟩, ?_,
      ⟨by decide +kernel, .inr ⟨by decide +kernel, by decide +kernel⟩⟩, trivial⟩
    · change State.Handle _ _
      decide +kernel
    · change State.Handle _ _
      decide +kernel
  have ha : ∀ ev ∈ movedRun, Aligned ev := by simp [movedRun, Aligned]
  refine (reallocRight_iff_of_run _ hp ha).2
    ⟨trivial, trivial, trivial, trivial, fun _ => ⟨by decide, .inl fun _ => ?_⟩, trivial⟩
  decide +kernel

theorem not_guarded_of_not_cond {m : Memory} {evs : List HeapEvent} {ev : HeapEvent}
    (hp : Guarded heapNext Allowed (World.init m) (evs ++ [ev]))
    (ha : ∀ ev ∈ evs, Aligned ev) (hc : Guarded heapNext ReallocCond (World.init m) evs)
    (hnot : ¬ReallocCond (evs.foldl heapNext (World.init m)) ev) :
    ¬Guarded heapNext ReallocRight (World.init m) (evs ++ [ev]) := by
  obtain ⟨hevs, hev, -⟩ := guarded_append.1 hp
  have hinit : ReallocInv (World.init m) := ⟨_, tracked_init m⟩
  obtain ⟨live, h⟩ := Guarded.invariant (fun _ _ h hev => h.heapNext hev.1 hev.2) hinit
    (guarded_and.2 ⟨hevs.and_of_forall_mem ha, hc⟩)
  exact fun hright => hnot ((h.right_iff hev).1 (guarded_append.1 hright).2.1)

/-- A size that wraps: the block of 4 bytes is taken to be large enough. A pointer into the third
heap is moved to the first one while the second one is deleted: the old block stays in use. -/
theorem not_reallocRight_of_run :
    ¬Guarded heapNext ReallocRight (World.init fun _ => 0)
        ([.call (.create 4096 64), .call (.malloc (some 0) 4)] ++
          [.call (.realloc (some 0) 4152 4294967288)]) ∧
      ¬Guarded heapNext ReallocRight (World.init fun _ => 0)
        ([.call (.create 4096 64), .call (.create 8192 64), .call (.create 12288 64),
            .call (.malloc (some 2) 4), .delete (some 1)] ++
          [.call (.realloc none 12344 9)]) := by
  refine ⟨not_guarded_of_not_cond ⟨?_, ?_, ?_, trivial⟩ ?_ ⟨trivial, trivial, trivial⟩ ?_,
    not_guarded_of_not_cond ⟨?_, ?_, ?_, ?_, ?_, ?_, trivial⟩ ?_
      ⟨trivial, trivial, trivial, trivial, trivial, trivial⟩ ?_⟩
  · exact ⟨by decide, by decide +kernel⟩
  · change State.Handle _ _
    decide +kernel
  · exact ⟨by decide +kernel, .inr ⟨by decide +kernel, by decide +kernel⟩⟩
  · simp [Aligned]
  · exact fun hc => absurd (hc (by decide)).1 (by decide)
  · exact ⟨by decide, by decide +kernel⟩
  · exact ⟨by decide, by decide +kernel⟩
  · exact ⟨by decide, by decide +kernel⟩
  · change State.Handle _ _
    decide +kernel
  · change State.Handle _ _
    decide +kernel
  · exact ⟨by decide +kernel, .inr ⟨by decide +kernel, by decide +kernel⟩⟩
  · simp [Aligned]
  · intro hc
    rcases (hc (by decide)).2 with hreaches | hfits | hnone
    · have hleading := hreaches rfl 2 (by decide +kernel) (by decide +kernel)
      revert hleading
      decide +kernel
    · revert hfits
      decide +kernel
    · exact hnone 0 ⟨by decide +kernel, by decide +kernel, by decide, [4096], 4096,
        ⟨by decide +kernel, by decide, show _ = 0 by decide +kernel⟩, List.mem_cons_self,
        by decide +kernel⟩

end TuyaOpen.MemHeap
