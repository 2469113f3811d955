import TuyaOpen.Basic.Memory

/-!
# Words of any size in an addressed memory

A word of `n` bytes stands in a memory with its least significant byte first. Where a program runs
on machines with words of different sizes, its records are laid out in such words, and what a write
leaves alone depends on the size.

## Main results

* `Memory.readLe_writeLe`: the word that was written is read back.
* `Memory.readLe_congr`: a word depends on its bytes only.
* `Memory.writeLe_last`: the last byte of a word that was written.
* `Memory.readLe_four`: words of four bytes.
-/

namespace TuyaOpen.Memory

/-- The word of `n` bytes at an address, the least significant byte first. -/
def readLe (m : Memory) (a : Nat) : Nat → Nat
  | 0 => 0
  | n + 1 => (m a).toNat + 256 * readLe m (a + 1) n

/-- The memory after a word of `n` bytes is written. -/
def writeLe (m : Memory) (a n v : Nat) : Memory := fun x =>
  if a ≤ x ∧ x < a + n then UInt8.ofNat (v / 256 ^ (x - a)) else m x

variable {m m' : Memory} {a b n k v lo hi : Nat}

theorem readLe_eq_of_bytes (hm : ∀ i < n, m (a + i) = UInt8.ofNat (v / 256 ^ i))
    (hv : v < 256 ^ n) : m.readLe a n = v := by
  induction n generalizing a v with
  | zero =>
    rw [Nat.pow_zero] at hv
    rw [readLe]
    omega
  | succ n ih =>
    have hhead := hm 0 (Nat.zero_lt_succ n)
    rw [Nat.add_zero, Nat.pow_zero, Nat.div_one] at hhead
    have hrest : m.readLe (a + 1) n = v / 256 := by
      refine ih (fun i hi => ?_) ?_
      · have hbyte := hm (i + 1) (Nat.succ_lt_succ hi)
        rwa [Nat.pow_succ', ← Nat.div_div_eq_div_mul, Nat.add_comm i, ← Nat.add_assoc] at hbyte
      · rw [Nat.pow_succ] at hv
        exact Nat.div_lt_of_lt_mul (by omega)
    rw [readLe, hrest, hhead, UInt8.toNat_ofNat']
    omega

theorem writeLe_apply {i : Nat} (hi : i < n) :
    m.writeLe a n v (a + i) = UInt8.ofNat (v / 256 ^ i) := by
  rw [writeLe, if_pos ⟨by omega, by omega⟩, Nat.add_sub_cancel_left]

theorem readLe_writeLe (hv : v < 256 ^ n) : (m.writeLe a n v).readLe a n = v :=
  readLe_eq_of_bytes (fun _ hi => writeLe_apply hi) hv

theorem writeLe_last (hn : 0 < n) :
    m.writeLe a n v (a + n - 1) = UInt8.ofNat (v / 256 ^ (n - 1)) := by
  rw [Nat.add_sub_assoc hn, writeLe_apply (by omega)]

theorem readLe_four : m.readLe a 4 = m.readWord a := by
  simp only [readLe, readWord, Nat.add_assoc, Nat.reduceAdd]
  omega

theorem writeLe_four : m.writeLe a 4 v = m.writeWord a v := by
  funext x
  by_cases hin : a ≤ x ∧ x < a + 4
  · obtain ⟨i, rfl⟩ := Nat.exists_eq_add_of_le hin.1
    have hi : i = 0 ∨ i = 1 ∨ i = 2 ∨ i = 3 := by omega
    rw [writeLe_apply (by omega)]
    rcases hi with rfl | rfl | rfl | rfl
    all_goals simp [writeWord]
  · rw [writeLe, if_neg hin, writeWord, if_neg (by omega), if_neg (by omega), if_neg (by omega),
      if_neg (by omega)]

/-! ### Bytes that stay -/

theorem readLe_congr (h : Same m m' lo hi) (hlo : lo ≤ a) (hhi : a + n ≤ hi) :
    m'.readLe a n = m.readLe a n := by
  induction n generalizing a with
  | zero => rfl
  | succ n ih => rw [readLe, readLe, h a hlo (by omega), ih (by omega) (by omega)]

theorem Same.writeLe (h : hi ≤ a ∨ a + n ≤ lo) : Same m (m.writeLe a n v) lo hi := by
  intro x hlo hhi
  exact if_neg (by omega)

theorem readLe_writeLe_of_disjoint (h : b + k ≤ a ∨ a + n ≤ b) :
    (m.writeLe a n v).readLe b k = m.readLe b k :=
  readLe_congr (Same.writeLe h) le_rfl le_rfl

theorem readLe_writeByte_of_disjoint {u : UInt8} (h : b + k ≤ a ∨ a < b) :
    (m.writeByte a u).readLe b k = m.readLe b k :=
  readLe_congr (Same.writeByte h) le_rfl le_rfl

theorem writeLe_apply_of_disjoint (h : b < a ∨ a + n ≤ b) : m.writeLe a n v b = m b :=
  if_neg (by omega)

theorem SameOff.writeLe (hlo : lo ≤ a) (hhi : a + n ≤ hi) : SameOff m (m.writeLe a n v) lo hi := by
  rintro x hx
  exact writeLe_apply_of_disjoint (by omega)

end TuyaOpen.Memory
