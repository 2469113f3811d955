import TuyaOpen.Basic.Bytes
import TuyaOpen.Basic.Transition
import TuyaOpen.Common.OperateRet

/-!
# The ring buffer

`tuya_ringbuf.c`: bytes are stored between two positions that go around a buffer. The buffer is
empty when the positions are equal, so that one byte of it is never used.

A ring buffer is compared with a queue of bytes that has a capacity. A copy that leaves the buffer
is a fault.
-/

namespace TuyaOpen.Utilities

/-! ### The functions -/

/-- `__RINGBUFF_T`: `inPos` and `outPos` are its `in` and `out`. -/
structure RingBuff where
  inPos : Nat
  outPos : Nat
  len : Nat
  buff : Bytes
  deriving DecidableEq

inductive RingBuffCall
  | write (data : Bytes)
  | read (n : Nat)
  | peek (n : Nat)
  | reset
  | usedSizeGet
  | freeSizeGet

/-- A queue of bytes with a capacity. A write stores the longest part that fits. -/
def fifoStep (cap : Nat) (q : Bytes) : RingBuffCall → (Nat × Bytes) × Bytes
  | .write data =>
    ((min (cap - q.length) data.length, []), q ++ data.take (min (cap - q.length) data.length))
  | .read n => ((min q.length n, q.take n), q.drop n)
  | .peek n => ((min q.length n, q.take n), q)
  | .reset => ((0, []), [])
  | .usedSizeGet => ((q.length, []), q)
  | .freeSizeGet => ((cap - q.length, []), q)

/-! ### Where the bytes are -/

/-- The bytes `c` are stored in one piece. -/
structure Straight (r : RingBuff) (c pre post : Bytes) : Prop where
  buff : r.buff = pre ++ (c ++ post)
  outPos : r.outPos = pre.length
  inPos : r.inPos = pre.length + c.length
  post_ne : post ≠ []

/-- The bytes `c₁ ++ c₂` are stored in two pieces, and the second is at the start of the buffer. -/
structure Wrapped (r : RingBuff) (c₁ c₂ gap : Bytes) : Prop where
  buff : r.buff = c₂ ++ (gap ++ c₁)
  inPos : r.inPos = c₂.length
  outPos : r.outPos = c₂.length + gap.length
  gap_ne : gap ≠ []
  ne : c₁ ≠ []

/-- The ring buffer holds the bytes `c`. -/
structure Holds (r : RingBuff) (c : Bytes) : Prop where
  len_eq : r.len = r.buff.length
  len_lt : r.len < 4294967296
  place : (∃ pre post, Straight r c pre post) ∨ ∃ c₁ c₂ gap, c = c₁ ++ c₂ ∧ Wrapped r c₁ c₂ gap

theorem Straight.len_eq {r : RingBuff} {c pre post : Bytes} (h : Straight r c pre post)
    (hlen : r.len = r.buff.length) : r.len = pre.length + (c.length + post.length) := by
  rw [hlen, h.buff, List.length_append, List.length_append]

theorem Wrapped.len_eq {r : RingBuff} {c₁ c₂ gap : Bytes} (h : Wrapped r c₁ c₂ gap)
    (hlen : r.len = r.buff.length) : r.len = c₂.length + (gap.length + c₁.length) := by
  rw [hlen, h.buff, List.length_append, List.length_append]

section Holds

variable {r : RingBuff} {c : Bytes}

theorem Holds.bounds (h : Holds r c) :
    r.inPos < r.len ∧ r.outPos < r.len ∧ c.length < r.len := by
  obtain ⟨hlen, -, ⟨pre, post, h⟩ | ⟨c₁, c₂, gap, rfl, h⟩⟩ := h
  · have hpost := List.length_pos_of_ne_nil h.post_ne
    rw [h.len_eq hlen, h.inPos, h.outPos]
    omega
  · have hgap := List.length_pos_of_ne_nil h.gap_ne
    have hne := List.length_pos_of_ne_nil h.ne
    rw [h.len_eq hlen, h.inPos, h.outPos, List.length_append]
    omega

end Holds

/-! ### One call -/

section Call

variable {r : RingBuff} {c : Bytes}

end Call

/-! ### Runs -/

def Represents (len : Nat) (r : RingBuff) (q : Bytes) : Prop := r.len = len ∧ Holds r q

end TuyaOpen.Utilities
