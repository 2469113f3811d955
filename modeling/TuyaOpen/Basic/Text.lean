import TuyaOpen.Basic.Bytes

/-!
# Texts in memory

The bytes of ASCII texts and of decimal numbers, the C string at the start of a memory object, and
the allocation of an object with arbitrary contents.

## Main results

* `length_decimal_le`: a number below `10 ^ k` has at most `k` digits.
* `cString_append_zero`: a text without NUL is read back.
-/

namespace TuyaOpen

def asciiBytes (cs : List Char) : Bytes := cs.map fun c => UInt8.ofNat c.toNat

def decimal (n : Nat) : Bytes := asciiBytes (Nat.toDigits 10 n)

def cString (mem : Bytes) : Bytes := mem.takeWhile (· ≠ 0)

def cText (mem : Bytes) : Option Bytes := if 0 ∈ mem then some (cString mem) else none

/-- An allocation function: a memory object of the size asked for, with whatever contents, or
none. -/
structure Allocator where
  malloc : Nat → Option Bytes
  length_malloc : ∀ {n mem}, malloc n = some mem → mem.length = n

@[simp] theorem length_asciiBytes (cs : List Char) : (asciiBytes cs).length = cs.length := by
  simp [asciiBytes]

theorem length_decimal_le {n k : Nat} (hk : 0 < k) (h : n < 10 ^ k) : (decimal n).length ≤ k := by
  rw [decimal, length_asciiBytes]
  exact (Nat.length_toDigits_le_iff (by decide) hk).mpr h

theorem zero_notMem_decimal (n : Nat) : 0 ∉ decimal n := by
  intro h
  obtain ⟨c, hc, hzero⟩ := List.mem_map.mp h
  have hdigit := Char.isDigit_iff_toNat.mp (Nat.isDigit_of_mem_toDigits (by decide) (by decide) hc)
  have hle : 48 ≤ c.toNat ∧ c.toNat ≤ 57 := hdigit
  have hval : (UInt8.ofNat c.toNat).toNat = c.toNat := by
    rw [UInt8.toNat_ofNat', Nat.mod_eq_of_lt (by omega)]
  rw [hzero] at hval
  have : (0 : UInt8).toNat = 0 := rfl
  omega

theorem zero_notMem_cString (mem : Bytes) : 0 ∉ cString mem := by
  intro h
  exact absurd (List.all_eq_true.mp List.all_takeWhile 0 h) (by decide)

theorem length_cString_lt {mem : Bytes} (hzero : 0 ∈ mem) : (cString mem).length < mem.length := by
  have hsub : (cString mem).Sublist mem := List.takeWhile_sublist _
  refine Nat.lt_of_le_of_ne hsub.length_le fun heq => zero_notMem_cString mem ?_
  rw [hsub.eq_of_length heq]
  exact hzero

theorem cString_cons (b : UInt8) (mem : Bytes) :
    cString (b :: mem) = if b = 0 then [] else b :: cString mem := by
  rw [cString, List.takeWhile_cons]
  by_cases hb : b = 0
  · rw [if_pos hb, if_neg (by simp [hb])]
  · rw [if_neg hb, if_pos (decide_eq_true hb)]
    rfl

theorem cString_append_zero {text : Bytes} (h : 0 ∉ text) (rest : Bytes) :
    cString (text ++ 0 :: rest) = text := by
  have hpos : ∀ b ∈ text, decide (b ≠ 0) = true := by
    intro b hb
    exact decide_eq_true fun hzero => h (hzero ▸ hb)
  rw [cString, List.takeWhile_append_of_pos hpos, List.takeWhile_cons_of_neg (by decide),
    List.append_nil]

theorem cString_of_notMem {text : Bytes} (h : 0 ∉ text) : cString text = text := by
  have hpos : ∀ b ∈ text, decide (b ≠ 0) = true := by
    intro b hb
    exact decide_eq_true fun hzero => h (hzero ▸ hb)
  have happend := @List.takeWhile_append_of_pos _ _ text [] hpos
  rwa [List.append_nil, List.takeWhile_nil, List.append_nil] at happend

theorem cText_eq_some_iff {mem text : Bytes} :
    cText mem = some text ↔ 0 ∈ mem ∧ text = cString mem := by
  rw [cText]
  split_ifs with hzero
  · rw [Option.some.injEq, eq_comm]
    exact (and_iff_right hzero).symm
  · exact iff_of_false (by simp) fun h => hzero h.1

theorem cString_of_cText {mem text : Bytes} (h : cText mem = some text) : text = cString mem :=
  (cText_eq_some_iff.1 h).2

theorem cText_append_zero {text : Bytes} (h : 0 ∉ text) : cText (text ++ [0]) = some text :=
  cText_eq_some_iff.2 ⟨by simp, (cString_append_zero h []).symm⟩

end TuyaOpen
