import Mathlib.Data.List.Basic
import Mathlib.Data.List.Induction
import Mathlib.Data.UInt

/-!
# Byte strings, memory spans and machine words

The vocabulary that a C program working on buffers needs: byte strings, the span of a memory
object that a `memcpy` reads, the write of a byte string into a memory object, big-endian
integers, and the unsigned arithmetic of 16 and 32 bits. A memory object is the list of all its
bytes, so its length is its size; a read or a write that leaves the object has no value.

## Main results

* `beNat_beBytes`: decoding an encoded integer gives it back modulo its width.
* `readSpan_append_left`: a span inside a prefix does not see what follows.
* `take_memcpy`: the bytes up to the end of a write.
* `memcpys_eq_of_append`: the object after writes that follow each other.
-/

namespace TuyaOpen

abbrev Bytes := List UInt8

/-! ### Unsigned words -/

/-- The value of a `uint16_t` that is assigned `n`. -/
@[irreducible] def u16 (n : Nat) : Nat := n % 65536

/-- The value of a `uint32_t` that is assigned `n`. -/
@[irreducible] def u32 (n : Nat) : Nat := n % 4294967296

/-- Subtraction of two `uint32_t` values. -/
@[irreducible] def u32Sub (a b : Nat) : Nat :=
  if u32 b ≤ u32 a then u32 a - u32 b else u32 a + 4294967296 - u32 b

theorem u16_of_lt {n : Nat} (h : n < 65536) : u16 n = n := by
  rw [u16, Nat.mod_eq_of_lt h]

theorem u32_of_lt {n : Nat} (h : n < 4294967296) : u32 n = n := by
  rw [u32, Nat.mod_eq_of_lt h]

theorem u32_le (n : Nat) : u32 n ≤ n := by
  rw [u32]
  exact Nat.mod_le _ _

theorem u32_lt (n : Nat) : u32 n < 4294967296 := by
  rw [u32]
  exact Nat.mod_lt _ (by decide)

theorem u32Sub_of_le {a b : Nat} (ha : a < 4294967296) (h : b ≤ a) : u32Sub a b = a - b := by
  rw [u32Sub, u32_of_lt ha, u32_of_lt (by omega), if_pos h]

theorem u32Sub_of_lt {a b : Nat} (hb : b < 4294967296) (h : a < b) :
    u32Sub a b = a + 4294967296 - b := by
  rw [u32Sub, u32_of_lt hb, u32_of_lt (by omega), if_neg (by omega)]

/-! ### Spans of a memory object -/

section Span

variable {α : Type*}

/-- The `n` elements of `mem` from position `off` on. -/
def slice (mem : List α) (off n : Nat) : List α := (mem.drop off).take n

/-- The bytes that a copy out of the object `mem` reads: none when the span leaves the object. -/
def readSpan (mem : List α) (off n : Nat) : Option (List α) :=
  if off + n ≤ mem.length then some (slice mem off n) else none

/-- The bytes that the copies out of a list of spans read, one after the other. -/
def readSpans (mem : List α) : List (Nat × Nat) → Option (List α)
  | [] => some []
  | s :: spans =>
    match readSpan mem s.1 s.2, readSpans mem spans with
    | some xs, some ys => some (xs ++ ys)
    | _, _ => none

/-- The object `mem` after a copy of `src` to position `off`: none when the copy leaves the
object. -/
def memcpy (mem : List α) (off : Nat) (src : List α) : Option (List α) :=
  if off + src.length ≤ mem.length then
    some (mem.take off ++ src ++ mem.drop (off + src.length))
  else none

/-- The object `mem` after a list of copies, each with its position. -/
def memcpys (mem : List α) : List (Nat × List α) → Option (List α)
  | [] => some mem
  | w :: ws =>
    match memcpy mem w.1 w.2 with
    | none => none
    | some mem => memcpys mem ws

/-- Copies that start at `off` and follow each other without a gap. -/
def Consecutive : Nat → List (Nat × List α) → Prop
  | _, [] => True
  | off, w :: ws => w.1 = off ∧ Consecutive (off + w.2.length) ws

theorem length_slice {mem : List α} {off n : Nat} (h : off + n ≤ mem.length) :
    (slice mem off n).length = n := by
  simp only [slice, List.length_take, List.length_drop]
  omega

theorem readSpan_of_le {mem : List α} {off n : Nat} (h : off + n ≤ mem.length) :
    readSpan mem off n = some (slice mem off n) := if_pos h

theorem readSpan_eq_none {mem : List α} {off n : Nat} (h : mem.length < off + n) :
    readSpan mem off n = none := if_neg (Nat.not_le.mpr h)

theorem length_of_readSpan {mem xs : List α} {off n : Nat} (h : readSpan mem off n = some xs) :
    xs.length = n := by
  unfold readSpan at h
  split_ifs at h with hle
  rw [← Option.some.inj h, length_slice hle]

theorem readSpan_isSome_iff {mem : List α} {off n : Nat} :
    (readSpan mem off n).isSome ↔ off + n ≤ mem.length := by
  unfold readSpan
  split_ifs with h <;> simp [h]

theorem slice_append_left {mem rest : List α} {off n : Nat} (h : off + n ≤ mem.length) :
    slice (mem ++ rest) off n = slice mem off n := by
  unfold slice
  rw [List.drop_append_of_le_length (by omega), List.take_append_of_le_length]
  rw [List.length_drop]
  omega

theorem readSpan_append_left {mem rest : List α} {off n : Nat} (h : off + n ≤ mem.length) :
    readSpan (mem ++ rest) off n = readSpan mem off n := by
  rw [readSpan_of_le h, readSpan_of_le (by rw [List.length_append]; omega), slice_append_left h]

theorem readSpans_append_left {mem rest : List α} {spans : List (Nat × Nat)}
    (h : ∀ s ∈ spans, s.1 + s.2 ≤ mem.length) :
    readSpans (mem ++ rest) spans = readSpans mem spans := by
  induction spans with
  | nil => rfl
  | cons s spans ih =>
    have hs := h s List.mem_cons_self
    have hspans := ih fun t ht => h t (List.mem_cons_of_mem _ ht)
    simp only [readSpans, readSpan_append_left hs, hspans]

theorem readSpans_isSome_iff {mem : List α} {spans : List (Nat × Nat)} :
    (readSpans mem spans).isSome ↔ ∀ s ∈ spans, s.1 + s.2 ≤ mem.length := by
  induction spans with
  | nil => simp [readSpans]
  | cons s spans ih =>
    rw [List.forall_mem_cons, ← ih, ← readSpan_isSome_iff]
    cases h1 : readSpan mem s.1 s.2 <;> cases h2 : readSpans mem spans <;>
      simp [readSpans, h1, h2]

theorem slice_append_right (pre mid rest : List α) :
    slice (pre ++ (mid ++ rest)) pre.length mid.length = mid := by
  simp [slice]

theorem slice_eq_of_append {mem mid : List α} {off n : Nat} (pre rest : List α)
    (h : mem = pre ++ (mid ++ rest)) (hoff : pre.length = off) (hn : mid.length = n) :
    slice mem off n = mid := by
  rw [h, ← hoff, ← hn, slice_append_right]

theorem slice_append_drop (mem : List α) (off n : Nat) :
    slice mem off n ++ mem.drop (off + n) = mem.drop off := by
  rw [slice, ← List.drop_drop, List.take_append_drop]

theorem exists_append_of_le (mem : List α) (off n : Nat) (h : off + n ≤ mem.length) :
    ∃ pre mid rest, mem = pre ++ (mid ++ rest) ∧ pre.length = off ∧ mid.length = n := by
  refine ⟨mem.take off, slice mem off n, mem.drop (off + n), ?_, ?_, length_slice h⟩
  · rw [slice_append_drop, List.take_append_drop]
  · rw [List.length_take]
    omega

theorem slice_add (mem : List α) (off m n : Nat) :
    slice mem off (m + n) = slice mem off m ++ slice mem (off + m) n := by
  rw [slice, slice, slice, List.take_add, List.drop_drop]

theorem slice_slice {mem : List α} {off m off' n : Nat} (h : off' + n ≤ m) :
    slice (slice mem off m) off' n = slice mem (off + off') n := by
  rw [slice, slice, slice, List.drop_take, List.drop_drop, List.take_take,
    Nat.min_eq_left (by omega)]

theorem slice_zero (mem : List α) (n : Nat) : slice mem 0 n = mem.take n := rfl

theorem memcpy_of_le {mem src : List α} {off : Nat} (h : off + src.length ≤ mem.length) :
    memcpy mem off src = some (mem.take off ++ src ++ mem.drop (off + src.length)) := if_pos h

theorem memcpy_eq_none {mem src : List α} {off : Nat} (h : mem.length < off + src.length) :
    memcpy mem off src = none := if_neg (Nat.not_le.mpr h)

theorem le_of_memcpy {mem src mem' : List α} {off : Nat} (h : memcpy mem off src = some mem') :
    off + src.length ≤ mem.length := by
  by_contra hlt
  rw [memcpy_eq_none (Nat.lt_of_not_le hlt)] at h
  cases h

theorem memcpy_eq_of_append {mem src : List α} {off : Nat} (pre mid rest : List α)
    (h : mem = pre ++ (mid ++ rest)) (hoff : pre.length = off) (hmid : mid.length = src.length) :
    memcpy mem off src = some (pre ++ (src ++ rest)) := by
  have hdrop : (pre ++ (mid ++ rest)).drop (off + src.length) = rest := by
    rw [← hoff, ← hmid, ← List.length_append, ← List.append_assoc, List.drop_left]
  rw [h, memcpy_of_le (by simp only [List.length_append]; omega), hdrop,
    List.take_left' hoff, List.append_assoc]

theorem memcpys_eq_of_append {mem : List α} {off : Nat} {ws : List (Nat × List α)}
    (pre mid rest : List α) (h : mem = pre ++ (mid ++ rest)) (hoff : pre.length = off)
    (hws : Consecutive off ws) (hmid : mid.length = ((ws.map (·.2)).flatten).length) :
    memcpys mem ws = some (pre ++ ((ws.map (·.2)).flatten ++ rest)) := by
  induction ws generalizing mem off pre mid with
  | nil =>
    have hnil : mid = [] := List.eq_nil_of_length_eq_zero hmid
    rw [memcpys, h, hnil]
    rfl
  | cons w ws ih =>
    obtain ⟨hw, hws⟩ := hws
    rw [List.map_cons, List.flatten_cons, List.length_append] at hmid
    obtain ⟨u, v, w', rfl, hu, hv⟩ :=
      exists_append_of_le mid w.2.length (ws.map (·.2)).flatten.length (by omega)
    have hw' : w' = [] := by
      rw [List.length_append, List.length_append] at hmid
      exact List.eq_nil_of_length_eq_zero (by omega)
    have hstep : memcpy mem w.1 w.2 = some (pre ++ (w.2 ++ (v ++ rest))) :=
      memcpy_eq_of_append pre u (v ++ rest)
        (by rw [h, hw', List.append_nil, List.append_assoc]) (hoff.trans hw.symm) hu
    rw [memcpys, hstep]
    simp only
    rw [ih (pre ++ w.2) v (by rw [List.append_assoc]) (by rw [List.length_append, hoff]) hws hv,
      List.map_cons, List.flatten_cons, List.append_assoc, List.append_assoc]

theorem length_of_memcpy {mem src mem' : List α} {off : Nat} (h : memcpy mem off src = some mem') :
    mem'.length = mem.length := by
  unfold memcpy at h
  split_ifs at h with hle
  obtain rfl := Option.some.inj h
  simp only [List.length_append, List.length_take, List.length_drop]
  omega

theorem take_memcpy {mem src mem' : List α} {off : Nat} (h : memcpy mem off src = some mem') :
    mem'.take (off + src.length) = mem.take off ++ src := by
  unfold memcpy at h
  split_ifs at h with hle
  obtain rfl := Option.some.inj h
  have hlen : (mem.take off ++ src).length = off + src.length := by
    simp only [List.length_append, List.length_take]
    omega
  rw [← hlen, List.take_left]

end Span

/-! ### Big-endian integers -/

/-- The `k` low bytes of `n`, the most significant first. -/
def beBytes : Nat → Nat → Bytes
  | 0, _ => []
  | k + 1, n => beBytes k (n / 256) ++ [UInt8.ofNat n]

/-- The integer whose bytes are `bs`, the most significant first. -/
def beNat (bs : Bytes) : Nat := bs.foldl (fun acc b => acc * 256 + b.toNat) 0

@[simp] theorem length_beBytes (k n : Nat) : (beBytes k n).length = k := by
  induction k generalizing n with
  | zero => rfl
  | succ k ih => simp [beBytes, ih]

@[simp] theorem beNat_append_singleton (bs : Bytes) (b : UInt8) :
    beNat (bs ++ [b]) = beNat bs * 256 + b.toNat := by
  simp [beNat]

theorem beNat_beBytes (k n : Nat) : beNat (beBytes k n) = n % 256 ^ k := by
  induction k generalizing n with
  | zero => simp [beBytes, beNat, Nat.mod_one]
  | succ k ih =>
    have hlow : (UInt8.ofNat n).toNat = n % 256 := UInt8.toNat_ofNat'
    have hsplit : n % 256 ^ (k + 1) = n % 256 + 256 * (n / 256 % 256 ^ k) := by
      rw [Nat.pow_succ', Nat.mod_mul]
    rw [beBytes, beNat_append_singleton, ih, hlow, hsplit]
    omega

theorem beNat_beBytes_of_lt {k n : Nat} (h : n < 256 ^ k) : beNat (beBytes k n) = n := by
  rw [beNat_beBytes, Nat.mod_eq_of_lt h]

theorem beNat_lt (bs : Bytes) : beNat bs < 256 ^ bs.length := by
  induction bs using List.reverseRecOn with
  | nil => simp [beNat]
  | append_singleton bs b ih =>
    rw [beNat_append_singleton, List.length_append, List.length_singleton, Nat.pow_succ]
    have hb : b.toNat < 256 := b.toNat_lt
    omega

end TuyaOpen
