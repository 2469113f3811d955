import TuyaOpen.Basic.Text

/-!
# Printing into a buffer

Code that builds a text piece by piece keeps a buffer and an offset, and calls `sprintf` at the
offset. Each call also writes a terminator, over which the next one prints. A piece that does not
fit with its terminator is a fault.

## Main results

* `PrintBuf.Holds.print`, `PrintBuf.Holds.put`: what a call adds.
* `PrintBuf.Holds.print_eq_none`: a call that does not fit.
* `PrintBuf.Prints.bind`, `PrintBuf.Prints.print`: one sequence of calls after another.
-/

namespace TuyaOpen

/-- A buffer, and the offset of the next piece. -/
structure PrintBuf where
  mem : Bytes
  offset : Nat
  deriving DecidableEq

namespace PrintBuf

variable {b b' : PrintBuf} {size : Nat} {text s : Bytes}

/-- `offset += sprintf(buf + offset, ...)` where the text is `s`. -/
def print (b : PrintBuf) (s : Bytes) : Option PrintBuf :=
  (memcpy b.mem b.offset (s ++ [0])).map fun mem => ⟨mem, b.offset + s.length⟩

/-- `buf[offset++] = c`. -/
def put (b : PrintBuf) (c : UInt8) : Option PrintBuf :=
  (memcpy b.mem b.offset [c]).map fun mem => ⟨mem, b.offset + 1⟩

/-- A buffer of `size` bytes that starts with `text`, at whose end the offset is. -/
structure Holds (b : PrintBuf) (size : Nat) (text : Bytes) : Prop where
  length_mem : b.mem.length = size
  offset : b.offset = text.length
  text : b.mem.take text.length = text

theorem Holds.init {mem : Bytes} (h : mem.length = size) : Holds ⟨mem, 0⟩ size [] := ⟨h, rfl, rfl⟩

theorem Holds.write (h : b.Holds size text) (t : Bytes) {mem : Bytes}
    (hmem : memcpy b.mem b.offset (s ++ t) = some mem) :
    Holds ⟨mem, b.offset + s.length⟩ size (text ++ s) where
  length_mem := (length_of_memcpy hmem).trans h.length_mem
  offset := by rw [List.length_append, h.offset]
  text := by
    have htake := take_memcpy hmem
    rw [h.offset, h.text, ← List.append_assoc, List.length_append, ← Nat.add_assoc,
      ← List.length_append] at htake
    have hprefix := congrArg (List.take (text ++ s).length) htake
    rwa [List.take_take, List.take_left, Nat.min_eq_left (Nat.le_add_right _ _)] at hprefix

theorem Holds.print (h : b.Holds size text) (hle : text.length + s.length + 1 ≤ size) :
    ∃ b', b.print s = some b' ∧ b'.Holds size (text ++ s) := by
  have hfit : b.offset + (s ++ [0]).length ≤ b.mem.length := by
    rw [h.offset, h.length_mem, List.length_append, List.length_singleton, ← Nat.add_assoc]
    exact hle
  refine ⟨_, ?_, h.write [0] (memcpy_of_le hfit)⟩
  rw [PrintBuf.print, memcpy_of_le hfit]
  rfl

theorem Holds.print_eq_none (h : b.Holds size text) (hlt : size < text.length + s.length + 1) :
    b.print s = none := by
  rw [PrintBuf.print, memcpy_eq_none]
  · rfl
  · rw [h.offset, h.length_mem, List.length_append, List.length_singleton, ← Nat.add_assoc]
    exact hlt

theorem Holds.of_print (h : b.Holds size text) (hb : b.print s = some b') :
    b'.Holds size (text ++ s) ∧ text.length + s.length + 1 ≤ size := by
  by_cases hle : text.length + s.length + 1 ≤ size
  · obtain ⟨b₁, hb₁, h₁⟩ := h.print hle
    rw [hb] at hb₁
    exact ⟨Option.some.inj hb₁ ▸ h₁, hle⟩
  · rw [h.print_eq_none (Nat.lt_of_not_le hle)] at hb
    cases hb

theorem Holds.put (h : b.Holds size text) (c : UInt8) (hle : text.length + 1 ≤ size) :
    ∃ b', b.put c = some b' ∧ b'.Holds size (text ++ [c]) := by
  have hfit : b.offset + [c].length ≤ b.mem.length := by
    rw [h.offset, h.length_mem, List.length_singleton]
    exact hle
  have hmem := memcpy_of_le hfit
  refine ⟨_, ?_, h.write (s := [c]) [] (by rw [List.append_nil]; exact hmem)⟩
  rw [PrintBuf.put, hmem]
  rfl

theorem Holds.terminate (h : b.Holds size text) (hle : text.length + 1 ≤ size) :
    ∃ mem, memcpy b.mem b.offset [0] = some mem ∧ Holds ⟨mem, b.offset⟩ size text ∧
      mem.take (b.offset + 1) = text ++ [0] := by
  have hfit : b.offset + ([0] : Bytes).length ≤ b.mem.length := by
    rw [h.offset, h.length_mem, List.length_singleton]
    exact hle
  have hmem := memcpy_of_le hfit
  have hholds := h.write (s := []) [0] hmem
  rw [List.append_nil] at hholds
  refine ⟨_, hmem, hholds, ?_⟩
  have htext : b.mem.take b.offset = text := by rw [h.offset, h.text]
  exact (take_memcpy hmem).trans (by rw [htext])

theorem Holds.overwrite (pre mid post : Bytes) (h : b.Holds size (pre ++ mid ++ post))
    (hmid : mid.length = s.length) :
    ∃ mem, memcpy b.mem pre.length s = some mem ∧
      Holds ⟨mem, b.offset⟩ size (pre ++ s ++ post) := by
  set rest := b.mem.drop (pre ++ mid ++ post).length
  have hsplit : b.mem = pre ++ (mid ++ (post ++ rest)) := by
    have hmem := List.take_append_drop (pre ++ mid ++ post).length b.mem
    rw [h.text, List.append_assoc, List.append_assoc] at hmem
    exact hmem.symm
  have hlen : (pre ++ s ++ post).length = (pre ++ mid ++ post).length := by
    simp only [List.length_append, hmid]
  have hmem := memcpy_eq_of_append pre mid (post ++ rest) hsplit rfl hmid
  refine ⟨_, hmem, (length_of_memcpy hmem).trans h.length_mem, h.offset.trans hlen.symm, ?_⟩
  rw [← List.append_assoc, ← List.append_assoc, List.take_left]

theorem cString_drop_of_memcpy {mem mem' : Bytes} {off : Nat} (hzero : 0 ∉ s)
    (h : memcpy mem off (s ++ [0]) = some mem') : cString (mem'.drop off) = s := by
  have hle := le_of_memcpy h
  rw [List.length_append] at hle
  rw [memcpy_of_le (le_of_memcpy h)] at h
  obtain rfl := Option.some.inj h
  have hoff : (mem.take off).length = off := by
    rw [List.length_take]
    omega
  rw [List.append_assoc, List.drop_left' hoff, List.append_assoc, List.singleton_append]
  exact cString_append_zero hzero _

theorem Holds.cString_of_print (h : b.Holds size text) (hb : b.print s = some b')
    (hzero : 0 ∉ text ++ s) : cString b'.mem = text ++ s := by
  obtain ⟨mem, hmem, rfl⟩ := Option.map_eq_some_iff.mp hb
  have htake := take_memcpy hmem
  rw [h.offset, h.text, ← List.append_assoc] at htake
  have hsplit := List.take_append_drop (text.length + (s ++ [0]).length) mem
  rw [htake, List.append_assoc, List.singleton_append] at hsplit
  rw [← hsplit]
  exact cString_append_zero hzero _

/-! ### Sequences of calls -/

/-- Calls that print `text` into a buffer of `size` bytes if it fits with its terminator, and that
print nothing else if they succeed. -/
structure Prints (o : Option PrintBuf) (size : Nat) (text : Bytes) : Prop where
  fits : text.length + 1 ≤ size → ∃ b, o = some b ∧ b.Holds size text
  holds : ∀ b, o = some b → b.Holds size text

variable {o : Option PrintBuf}

theorem Holds.prints (h : b.Holds size text) : Prints (some b) size text where
  fits _ := ⟨b, rfl, h⟩
  holds _ hb := Option.some.inj hb ▸ h

theorem Prints.bind {text' : Bytes} {k : PrintBuf → Option PrintBuf} (ho : Prints o size text)
    (hlen : text.length ≤ text'.length) (hk : ∀ b, b.Holds size text → Prints (k b) size text') :
    Prints (o.bind k) size text' where
  fits hfit := by
    obtain ⟨b, rfl, hb⟩ := ho.fits (by omega)
    exact (hk b hb).fits hfit
  holds b' hb' := by
    obtain ⟨b, rfl, hb⟩ := Option.bind_eq_some_iff.mp hb'
    exact (hk b (ho.holds b rfl)).holds b' hb

theorem Holds.prints_print (h : b.Holds size text) (s : Bytes) :
    Prints (b.print s) size (text ++ s) where
  fits hfit := h.print (by rw [List.length_append] at hfit; exact hfit)
  holds _ hb := (h.of_print hb).1

theorem Prints.print (ho : Prints o size text) (s : Bytes) :
    Prints (o.bind fun b => b.print s) size (text ++ s) :=
  ho.bind (by rw [List.length_append]; omega) fun _ hb => hb.prints_print s

end PrintBuf

end TuyaOpen
