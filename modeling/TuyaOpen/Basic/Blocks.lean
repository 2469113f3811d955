import Mathlib.Data.List.Basic
import Mathlib.Data.List.Nodup
import Mathlib.Data.UInt

/-!
# Heap blocks

The blocks of a heap, for a program of which only the calls of `malloc` and `free` matter. A block
is a number, a new one for every allocation, so that an old pointer never happens to name a new
block. Every call of `free` is recorded.

## Main results

* `Blocks.Sound.alloc`, `Blocks.Sound.free`: what keeps a heap sound.
* `Blocks.Extends`: what was live and is not passed to `free` stays live.
* `Blocks.Settles.free`, `Blocks.Settles.trans`: how programs settle their blocks.
-/

namespace TuyaOpen

/-- The blocks below `next` have been allocated, `freed` are those that have been passed to `free`,
the last one first. -/
structure Blocks where
  next : Nat
  freed : List Nat
  deriving DecidableEq

namespace Blocks

variable {h h₁ h₂ : Blocks} {b c : Nat} {keep keep' : Option Nat}

def empty : Blocks := ⟨0, []⟩

/-- `malloc`. The new block is `h.next`. -/
def alloc (h : Blocks) : Blocks := { h with next := h.next + 1 }

/-- `free`. -/
def free (h : Blocks) (b : Nat) : Blocks := { h with freed := b :: h.freed }

/-- `free` of a pointer that may be `NULL`. -/
def freeOpt (h : Blocks) : Option Nat → Blocks
  | none => h
  | some b => h.free b

def Live (h : Blocks) (b : Nat) : Prop := b < h.next ∧ b ∉ h.freed

/-- No block has been freed twice, or before it was allocated. -/
structure Sound (h : Blocks) : Prop where
  nodup : h.freed.Nodup
  lt_next : ∀ b ∈ h.freed, b < h.next

theorem sound_empty : Sound empty := ⟨List.nodup_nil, by rintro b ⟨⟩⟩

theorem Sound.alloc (hs : h.Sound) : h.alloc.Sound where
  nodup := hs.nodup
  lt_next b hb := Nat.lt_succ_of_lt (hs.lt_next b hb)

theorem Sound.free (hs : h.Sound) (hb : h.Live b) : (h.free b).Sound where
  nodup := List.nodup_cons.mpr ⟨hb.2, hs.nodup⟩
  lt_next c hc := by
    rcases List.mem_cons.mp hc with rfl | hc
    · exact hb.1
    · exact hs.lt_next c hc

theorem Sound.live_next (hs : h.Sound) : h.alloc.Live h.next :=
  ⟨Nat.lt_succ_self _, fun hmem => Nat.lt_irrefl _ (hs.lt_next _ hmem)⟩

theorem Live.alloc (hb : h.Live b) : h.alloc.Live b := ⟨Nat.lt_succ_of_lt hb.1, hb.2⟩

theorem Live.free (hb : h.Live b) (hne : b ≠ c) : (h.free c).Live b :=
  ⟨hb.1, fun hmem => (List.mem_cons.mp hmem).elim hne hb.2⟩

theorem Live.ne_next (hb : h.Live b) : b ≠ h.next := Nat.ne_of_lt hb.1

/-- From `h₁` to `h₂` no live block has been freed, except the one of `keep`. -/
def Extends (keep : Option Nat) (h₁ h₂ : Blocks) : Prop :=
  h₁.next ≤ h₂.next ∧ ∀ b, h₁.Live b → keep ≠ some b → h₂.Live b

theorem Extends.refl (keep : Option Nat) (h : Blocks) : Extends keep h h :=
  ⟨Nat.le_refl _, fun _ hb _ => hb⟩

theorem Extends.trans {h₃ : Blocks} (h12 : Extends keep h₁ h₂) (h23 : Extends keep h₂ h₃) :
    Extends keep h₁ h₃ :=
  ⟨Nat.le_trans h12.1 h23.1, fun b hb hne => h23.2 b (h12.2 b hb hne) hne⟩

theorem extends_alloc (keep : Option Nat) (h : Blocks) : Extends keep h h.alloc :=
  ⟨Nat.le_succ _, fun _ hb _ => hb.alloc⟩

theorem extends_free (b : Nat) (h : Blocks) : Extends (some b) h (h.free b) :=
  ⟨Nat.le_refl _, fun _ hc hne => hc.free fun heq => hne (congrArg some heq.symm)⟩

theorem extends_alloc_free (keep : Option Nat) (h : Blocks) :
    Extends keep h (h.alloc.free h.next) :=
  ⟨Nat.le_succ _, fun _ hb _ => hb.alloc.free hb.ne_next⟩

theorem Sound.alloc_free (hs : h.Sound) : (h.alloc.free h.next).Sound :=
  hs.alloc.free hs.live_next

theorem Extends.trans_fresh {h₃ : Blocks} (h12 : Extends none h₁ h₂)
    (h23 : Extends (some c) h₂ h₃) (hc : h₁.next ≤ c) : Extends none h₁ h₃ := by
  refine ⟨Nat.le_trans h12.1 h23.1, fun b hb hne => h23.2 b (h12.2 b hb hne) fun heq => ?_⟩
  have hlt : b < h₁.next := hb.1
  have hbc : c = b := Option.some.inj heq
  omega

/-- From `h₁` to `h₂` every new block has been freed once, except the one of `keep`, which is new
and has not been freed. No other block has been freed. -/
def Settles (keep : Option Nat) (h₁ h₂ : Blocks) : Prop :=
  ∃ freed, h₂.freed = freed ++ h₁.freed ∧ freed.Nodup ∧ h₁.next ≤ h₂.next ∧
    (∀ b, b ∈ freed ↔ h₁.next ≤ b ∧ b < h₂.next ∧ keep ≠ some b) ∧
    ∀ b, keep = some b → h₁.next ≤ b ∧ b < h₂.next

theorem settles_refl (h : Blocks) : Settles none h h := by
  refine ⟨[], rfl, List.nodup_nil, Nat.le_refl _, fun b => ?_, fun b hb => by cases hb⟩
  simp only [List.not_mem_nil, false_iff]
  omega

theorem settles_alloc (h : Blocks) : Settles (some h.next) h h.alloc := by
  refine ⟨[], rfl, List.nodup_nil, Nat.le_succ _, fun b => ?_, fun b hb => ?_⟩
  · simp only [List.not_mem_nil, false_iff, alloc, ne_eq, Option.some.injEq]
    omega
  · simp only [alloc, Option.some.injEq] at *
    omega

theorem settles_alloc_alloc (h : Blocks) :
    Settles (some h.alloc.next) h (h.alloc.alloc.free h.next) := by
  refine ⟨[h.next], rfl, List.nodup_singleton _, Nat.le_add_right _ 2, fun b => ?_, fun b hb => ?_⟩
  · simp only [List.mem_singleton, alloc, Blocks.free, ne_eq, Option.some.injEq]
    omega
  · simp only [alloc, Blocks.free, Option.some.injEq] at *
    omega

theorem Settles.free (hs : Settles (some b) h₁ h₂) : Settles none h₁ (h₂.free b) := by
  obtain ⟨freed, hfreed, hnodup, hle, hmem, hkeep⟩ := hs
  obtain ⟨hlow, hhigh⟩ := hkeep b rfl
  refine ⟨b :: freed, ?_, List.nodup_cons.2 ⟨fun hb => ((hmem b).1 hb).2.2 rfl, hnodup⟩, hle,
    fun c => ?_, fun c hc => by cases hc⟩
  · rw [Blocks.free, hfreed, List.cons_append]
  · rw [List.mem_cons, hmem]
    by_cases hc : c = b
    · simp [hc, hlow, Blocks.free, hhigh]
    · simp [hc, Ne.symm hc, Blocks.free]

theorem Settles.trans {h₃ : Blocks} (h12 : Settles none h₁ h₂) (h23 : Settles keep h₂ h₃) :
    Settles keep h₁ h₃ := by
  obtain ⟨freed, hfreed, hnodup, hle, hmem, -⟩ := h12
  obtain ⟨freed', hfreed', hnodup', hle', hmem', hkeep⟩ := h23
  refine ⟨freed' ++ freed, ?_, ?_, hle.trans hle', fun b => ?_, fun b hb => ?_⟩
  · rw [hfreed', hfreed, List.append_assoc]
  · refine hnodup'.append hnodup fun b hb' hb => ?_
    exact absurd ((hmem b).1 hb).2.1 (Nat.not_lt.2 ((hmem' b).1 hb').1)
  · rw [List.mem_append, hmem, hmem']
    constructor
    · rintro (⟨hlow, hhigh, hne⟩ | ⟨hlow, hhigh, -⟩)
      · exact ⟨hle.trans hlow, hhigh, hne⟩
      · refine ⟨hlow, hhigh.trans_le hle', fun hb => ?_⟩
        exact absurd (hkeep b hb).1 (Nat.not_le.2 hhigh)
    · rintro ⟨hlow, hhigh, hne⟩
      by_cases hb : b < h₂.next
      · exact Or.inr ⟨hlow, hb, fun h => by cases h⟩
      · exact Or.inl ⟨Nat.le_of_not_lt hb, hhigh, hne⟩
  · obtain ⟨hlow, hhigh⟩ := hkeep b hb
    exact ⟨hle.trans hlow, hhigh⟩

theorem Settles.trans_none {h₃ : Blocks} (h12 : Settles keep h₁ h₂) (h23 : Settles none h₂ h₃) :
    Settles keep h₁ h₃ := by
  obtain ⟨freed, hfreed, hnodup, hle, hmem, hkeep⟩ := h12
  obtain ⟨freed', hfreed', hnodup', hle', hmem', -⟩ := h23
  refine ⟨freed' ++ freed, ?_, ?_, hle.trans hle', fun b => ?_, fun b hb => ?_⟩
  · rw [hfreed', hfreed, List.append_assoc]
  · refine hnodup'.append hnodup fun b hb' hb => ?_
    exact absurd ((hmem b).1 hb).2.1 (Nat.not_lt.2 ((hmem' b).1 hb').1)
  · rw [List.mem_append, hmem, hmem']
    constructor
    · rintro (⟨hlow, hhigh, -⟩ | ⟨hlow, hhigh, hne⟩)
      · exact ⟨hle.trans hlow, hhigh, fun hb => absurd (hkeep b hb).2 (Nat.not_lt.2 hlow)⟩
      · exact ⟨hlow, hhigh.trans_le hle', hne⟩
    · rintro ⟨hlow, hhigh, hne⟩
      by_cases hb : b < h₂.next
      · exact Or.inr ⟨hlow, hb, hne⟩
      · exact Or.inl ⟨Nat.le_of_not_lt hb, hhigh, fun h => by cases h⟩
  · obtain ⟨hlow, hhigh⟩ := hkeep b hb
    exact ⟨hlow, hhigh.trans_le hle'⟩

theorem Settles.not_settles_alloc (hs : Settles keep h.alloc h₂) (hne : keep' ≠ some h.next) :
    ¬Settles keep' h h₂ := by
  rintro ⟨freed, hfreed, -, -, hmem, -⟩
  obtain ⟨freed', hfreed', -, hle, hmem', -⟩ := hs
  have hmem'' : h.next ∈ freed :=
    (hmem h.next).2 ⟨Nat.le_refl _, Nat.lt_of_succ_le hle, hne⟩
  have heq : freed' = freed := List.append_cancel_right (hfreed'.symm.trans hfreed)
  exact absurd ((hmem' h.next).1 (heq ▸ hmem'')).1 (Nat.not_succ_le_self _)

theorem Settles.keep_ne (hs : Settles keep h.alloc h₂) : keep ≠ some h.next := by
  obtain ⟨-, -, -, -, -, hkeep⟩ := hs
  intro heq
  exact Nat.not_succ_le_self _ (hkeep _ heq).1

theorem not_settles_free_free (hle : h₁.freed.length ≤ h₂.freed.length) (b : Nat)
    (keep : Option Nat) : ¬Settles keep h₁ ((h₂.free b).free b) := by
  rintro ⟨freed, hfreed, hnodup, -⟩
  match freed with
  | [] | [_] =>
    have hlen := congrArg List.length hfreed
    simp only [Blocks.free, List.length_cons, List.length_append, List.length_nil] at hlen
    omega
  | c :: d :: freed =>
    obtain ⟨hc, hrest⟩ := List.cons.inj hfreed
    obtain ⟨hd, -⟩ := List.cons.inj hrest
    rw [← hc, ← hd] at hnodup
    exact (List.nodup_cons.1 hnodup).1 List.mem_cons_self

theorem Settles.length_freed_le (hs : Settles keep h₁ h₂) : h₁.freed.length ≤ h₂.freed.length := by
  obtain ⟨freed, hfreed, -⟩ := hs
  rw [hfreed, List.length_append]
  exact Nat.le_add_left _ _

end Blocks

end TuyaOpen
