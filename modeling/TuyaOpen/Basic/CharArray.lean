import TuyaOpen.Basic.Text

/-!
# Character arrays

An array of characters in a structure holds a string when the string and a terminator stand at its
start. `strncpy` writes a string into it, or the first characters of one, and clears the rest of
what it may write. It writes a terminator only if there is room for one.

## Main results

* `CharArray.holds_strncpy_iff`: the array is the destination.
* `CharArray.holds_strncpy_init_iff`: the array but its last character is the destination.
-/

namespace TuyaOpen

/-- An array of `n` characters. -/
structure CharArray (n : Nat) where
  mem : Bytes
  length_mem : mem.length = n
  deriving DecidableEq

namespace CharArray

variable {n k : Nat} {s : Bytes}

theorem length_zeros (n : Nat) : (List.replicate n (0 : UInt8)).length = n := List.length_replicate

def zero (n : Nat) : CharArray n := ⟨List.replicate n 0, length_zeros n⟩

/-- The characters that `strncpy` writes. -/
def padded (s : Bytes) (k : Nat) : Bytes := s.take k ++ List.replicate (k - s.length) 0

theorem length_padded (s : Bytes) (k : Nat) : (padded s k).length = k := by
  rw [padded, List.length_append, List.length_take, List.length_replicate]
  omega

/-- `strncpy(a, s, k)`. -/
def strncpy (a : CharArray n) (s : Bytes) (k : Nat) (hk : k ≤ n) : CharArray n where
  mem := padded s k ++ a.mem.drop k
  length_mem := by
    rw [List.length_append, length_padded, List.length_drop, a.length_mem]
    omega

/-- The array holds the string `s` with a terminator. -/
structure Holds (a : CharArray n) (s : Bytes) : Prop where
  terminated : 0 ∈ a.mem
  text : cString a.mem = s

theorem drop_strncpy (a : CharArray n) (s : Bytes) (hk : k ≤ n) :
    (a.strncpy s k hk).mem.drop k = a.mem.drop k :=
  List.drop_left' (length_padded s k)

theorem Holds.length_lt {a : CharArray n} (h : a.Holds s) : s.length < n := by
  rw [← h.text]
  exact (length_cString_lt h.terminated).trans_eq a.length_mem

theorem holds_of_append {a : CharArray n} (rest : Bytes) (hs : 0 ∉ s)
    (h : a.mem = s ++ 0 :: rest) : a.Holds s where
  terminated := by
    rw [h]
    exact List.mem_append_right _ List.mem_cons_self
  text := by rw [h, cString_append_zero hs]

theorem holds_strncpy_of_lt (a : CharArray n) (hs : 0 ∉ s) (hk : k ≤ n) (hlt : s.length < k) :
    (a.strncpy s k hk).Holds s := by
  obtain ⟨m, hm⟩ := Nat.exists_eq_succ_of_ne_zero (show k - s.length ≠ 0 by omega)
  refine holds_of_append (List.replicate m 0 ++ a.mem.drop k) hs ?_
  show padded s k ++ a.mem.drop k = _
  rw [padded, List.take_of_length_le hlt.le, hm, List.replicate_succ, List.append_assoc,
    List.cons_append]

theorem holds_strncpy_iff (a : CharArray n) (hs : 0 ∉ s) :
    (a.strncpy s n le_rfl).Holds s ↔ s.length < n :=
  ⟨Holds.length_lt, holds_strncpy_of_lt a hs le_rfl⟩

theorem holds_strncpy_init_iff (a : CharArray (k + 1)) (hlast : a.mem.drop k = [0]) (hs : 0 ∉ s) :
    (a.strncpy s k (Nat.le_succ k)).Holds s ↔ s.length ≤ k := by
  constructor
  · exact fun h => Nat.le_of_lt_succ h.length_lt
  · intro hle
    rcases Nat.lt_or_eq_of_le hle with hlt | heq
    · exact holds_strncpy_of_lt a hs (Nat.le_succ k) hlt
    · refine holds_of_append [] hs ?_
      show padded s k ++ a.mem.drop k = _
      rw [padded, List.take_of_length_le hle, heq, Nat.sub_self, List.replicate_zero,
        List.append_nil, hlast]

end CharArray

end TuyaOpen
