import Mathlib.Algebra.Group.Fin.Basic
import Mathlib.Algebra.Group.Units.Equiv
import Mathlib.Data.List.FinRange
import Mathlib.Data.Nat.ModEq

/-!
# Windows in rotating buffers

A buffer of `N` elements that is written in rotation holds the last `N` elements of a sequence, in
an order that depends on the position. What is computed from the buffer without regard to the order
is computed from the last elements.

## Main results

* `Rotated.update`: one more write.
* `Rotated.perm_lastN`: what the buffer holds.
-/

namespace TuyaOpen

variable {α : Type*} {N : Nat} [NeZero N] {buffer : Fin N → α} {xs : List α}

/-- The last `n` elements. -/
def lastN (n : Nat) (xs : List α) : List α := xs.drop (xs.length - n)

theorem length_lastN (n : Nat) (xs : List α) : (lastN n xs).length = min xs.length n := by
  rw [lastN, List.length_drop]
  omega

theorem lastN_of_le {n : Nat} (h : xs.length ≤ n) : lastN n xs = xs := by
  rw [lastN, Nat.sub_eq_zero_of_le h, List.drop_zero]

/-- The elements of a sequence have been written to a buffer in rotation, from its start on. -/
def Rotated (buffer : Fin N → α) (xs : List α) : Prop :=
  ∀ (m : Nat) (h : m < xs.length), xs.length ≤ m + N → buffer (Fin.ofNat N m) = xs[m]

theorem rotated_nil : Rotated buffer [] := fun _ h => absurd h (Nat.not_lt_zero _)

theorem ofNat_ne_of_lt {m n : Nat} (hlt : m < n) (hle : n < m + N) :
    Fin.ofNat N m ≠ Fin.ofNat N n := by
  intro heq
  have hmod : m % N = n % N := congrArg Fin.val heq
  have hdvd : N ∣ n - m := (Nat.modEq_iff_dvd' hlt.le).1 hmod
  have hN := Nat.le_of_dvd (by omega) hdvd
  omega

theorem Rotated.update (h : Rotated buffer xs) (x : α) :
    Rotated (Function.update buffer (Fin.ofNat N xs.length) x) (xs ++ [x]) := by
  intro m hm hle
  rw [List.length_append, List.length_singleton] at hm hle
  by_cases hlast : m = xs.length
  · subst hlast
    rw [Function.update_self, List.getElem_concat_length rfl]
  · have hlt : m < xs.length := by omega
    rw [Function.update_of_ne (ofNat_ne_of_lt hlt (by omega)), List.getElem_append_left hlt]
    exact h m hlt (by omega)

/-- **Windows.** The elements of the buffer are the last ones of the sequence. -/
theorem Rotated.perm_lastN (h : Rotated buffer xs) :
    (((List.finRange N).take (min xs.length N)).map buffer).Perm (lastN N xs) := by
  by_cases hlen : xs.length ≤ N
  · -- no element has been overwritten
    rw [lastN_of_le hlen, Nat.min_eq_left hlen]
    refine List.Perm.of_eq (List.ext_getElem (by simpa using hlen) fun m h₁ h₂ => ?_)
    rw [List.getElem_map, List.getElem_take, List.getElem_finRange, ← h m h₂ (by omega)]
    congr 1
    ext
    exact (Nat.mod_eq_of_lt (h₂.trans_le hlen)).symm
  · -- the oldest element is somewhere in the buffer
    rw [Nat.min_eq_right (by omega), List.take_of_length_le (by simp)]
    have hwindow : lastN N xs = ((List.finRange N).map
        (Equiv.addLeft (Fin.ofNat N (xs.length - N)))).map buffer := by
      refine List.ext_getElem (by simp [length_lastN]; omega) fun m h₁ h₂ => ?_
      rw [length_lastN] at h₁
      have hpos : Fin.ofNat N (xs.length - N) + ⟨m, by omega⟩ =
          Fin.ofNat N (xs.length - N + m) := by
        ext
        simp [Fin.val_add]
      simp only [lastN, List.getElem_drop, List.getElem_map, List.getElem_finRange,
        Equiv.coe_addLeft, Fin.cast_mk]
      rw [hpos, h _ (by omega) (by omega)]
    rw [hwindow]
    exact (Equiv.Perm.map_finRange_perm _).symm.map buffer

end TuyaOpen
