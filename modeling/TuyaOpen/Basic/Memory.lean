import TuyaOpen.Basic.Bytes

/-!
# Addressed memory

A memory gives a byte to every address. Words have four bytes, the least significant one first. A
program that keeps its own records inside a memory region reads and writes words and bytes of it,
and what it needs of a write is which bytes the write leaves alone.

## Main results

* `Memory.readWord_writeWord`: the word that was written is read back.
* `Memory.readWord_congr`: a word depends on its four bytes only.
* `Memory.Same.writeWord`, `Memory.Same.writeByte`: the bytes outside a write.
* `Memory.SameOff.same`: what a change inside a range leaves alone.
-/

namespace TuyaOpen

abbrev Memory := Nat → UInt8

namespace Memory

def readWord (m : Memory) (a : Nat) : Nat :=
  (m a).toNat + 256 * (m (a + 1)).toNat + 65536 * (m (a + 2)).toNat +
    16777216 * (m (a + 3)).toNat

def writeByte (m : Memory) (a : Nat) (v : UInt8) : Memory :=
  fun x => if x = a then v else m x

def writeWord (m : Memory) (a v : Nat) : Memory := fun x =>
  if x = a then UInt8.ofNat v
  else if x = a + 1 then UInt8.ofNat (v / 256)
  else if x = a + 2 then UInt8.ofNat (v / 65536)
  else if x = a + 3 then UInt8.ofNat (v / 16777216)
  else m x

/-- The memory after `n` bytes are copied from `src` to `dst`. The two ranges do not overlap. -/
def copy (m : Memory) (dst src n : Nat) : Memory :=
  fun x => if dst ≤ x ∧ x < dst + n then m (src + (x - dst)) else m x

/-- Two memories have the same bytes at the addresses from `lo` up to `hi`. -/
def Same (m m' : Memory) (lo hi : Nat) : Prop := ∀ x, lo ≤ x → x < hi → m' x = m x

/-- Two memories have the same bytes at all addresses except those from `lo` up to `hi`. -/
def SameOff (m m' : Memory) (lo hi : Nat) : Prop := ∀ x, x < lo ∨ hi ≤ x → m' x = m x

variable {m m' m'' : Memory} {a b v lo hi : Nat}

theorem readWord_writeWord (hv : v < 4294967296) : (m.writeWord a v).readWord a = v := by
  have h₀ : m.writeWord a v a = UInt8.ofNat v := if_pos rfl
  have h₁ : m.writeWord a v (a + 1) = UInt8.ofNat (v / 256) := by simp [writeWord]
  have h₂ : m.writeWord a v (a + 2) = UInt8.ofNat (v / 65536) := by simp [writeWord]
  have h₃ : m.writeWord a v (a + 3) = UInt8.ofNat (v / 16777216) := by simp [writeWord]
  rw [readWord, h₀, h₁, h₂, h₃]
  simp only [UInt8.toNat_ofNat']
  omega

@[simp] theorem writeByte_apply (v : UInt8) : m.writeByte a v a = v := if_pos rfl

/-! ### Bytes that stay -/

theorem Same.refl : Same m m lo hi := fun _ _ _ => rfl

theorem Same.trans (h : Same m m' lo hi) (h' : Same m' m'' lo hi) : Same m m'' lo hi :=
  fun x hlo hhi => (h' x hlo hhi).trans (h x hlo hhi)

theorem Same.mono {lo' hi' : Nat} (h : Same m m' lo hi) (hlo : lo ≤ lo') (hhi : hi' ≤ hi) :
    Same m m' lo' hi' :=
  fun x h₁ h₂ => h x (hlo.trans h₁) (h₂.trans_le hhi)

theorem readWord_congr (h : Same m m' lo hi) (hlo : lo ≤ a) (hhi : a + 4 ≤ hi) :
    m'.readWord a = m.readWord a := by
  rw [readWord, readWord, h a hlo (by omega), h (a + 1) (by omega) (by omega),
    h (a + 2) (by omega) (by omega), h (a + 3) (by omega) (by omega)]

theorem Same.writeWord (h : hi ≤ a ∨ a + 4 ≤ lo) : Same m (m.writeWord a v) lo hi := by
  intro x hlo hhi
  rw [Memory.writeWord, if_neg (by omega), if_neg (by omega), if_neg (by omega), if_neg (by omega)]

theorem Same.writeByte {v : UInt8} (h : hi ≤ a ∨ a < lo) : Same m (m.writeByte a v) lo hi := by
  intro x hlo hhi
  exact if_neg (by omega)

theorem readWord_writeWord_of_disjoint (h : b + 4 ≤ a ∨ a + 4 ≤ b) :
    (m.writeWord a v).readWord b = m.readWord b :=
  readWord_congr (Same.writeWord h) le_rfl le_rfl

theorem readWord_writeByte_of_disjoint {v : UInt8} (h : b + 4 ≤ a ∨ a < b) :
    (m.writeByte a v).readWord b = m.readWord b :=
  readWord_congr (Same.writeByte h) le_rfl le_rfl

theorem writeWord_apply_of_disjoint (h : b < a ∨ a + 4 ≤ b) : m.writeWord a v b = m b :=
  (Same.writeWord (by omega) : Same m _ b (b + 1)) b le_rfl (Nat.lt_succ_self b)

theorem writeByte_apply_of_ne {v : UInt8} (h : b ≠ a) : m.writeByte a v b = m b := if_neg h

/-! ### Changes inside a range -/

theorem SameOff.refl : SameOff m m lo hi := fun _ _ => rfl

theorem SameOff.trans (h : SameOff m m' lo hi) (h' : SameOff m' m'' lo hi) : SameOff m m'' lo hi :=
  fun x hx => (h' x hx).trans (h x hx)

theorem SameOff.mono {lo' hi' : Nat} (h : SameOff m m' lo hi) (hlo : lo' ≤ lo) (hhi : hi ≤ hi') :
    SameOff m m' lo' hi' :=
  fun x hx => h x (by omega)

theorem SameOff.same {lo' hi' : Nat} (h : SameOff m m' lo hi) (h' : hi' ≤ lo ∨ hi ≤ lo') :
    Same m m' lo' hi' :=
  fun x h₁ h₂ => h x (by omega)

theorem SameOff.writeWord (hlo : lo ≤ a) (hhi : a + 4 ≤ hi) :
    SameOff m (m.writeWord a v) lo hi := by
  rintro x hx
  exact writeWord_apply_of_disjoint (by omega)

theorem SameOff.writeByte {v : UInt8} (hlo : lo ≤ a) (hhi : a < hi) :
    SameOff m (m.writeByte a v) lo hi := by
  rintro x hx
  exact writeByte_apply_of_ne (by omega)

theorem SameOff.copy {dst src n : Nat} (hlo : lo ≤ dst) (hhi : dst + n ≤ hi) :
    SameOff m (m.copy dst src n) lo hi := by
  rintro x hx
  exact if_neg (by omega)

end Memory

end TuyaOpen
