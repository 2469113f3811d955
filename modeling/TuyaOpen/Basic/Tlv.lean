import TuyaOpen.Common.ByteOrder

/-!
# Values with their types and lengths

A format in which a value follows a byte for its type and two bytes for its length, the lower one
first. The writer keeps an offset of 16 bits into a buffer that has been allocated before.

## Main results

* `TlvBuffer.foldlM_put_after`: values that fit are written one behind the other, and what lies
  behind them in the buffer remains.
-/

namespace TuyaOpen

structure Tlv where
  type : UInt8
  value : Bytes

def Tlv.bytes (t : Tlv) : Bytes := t.type :: (leBytes 2 t.value.length ++ t.value)

def tlvBytes (ts : List Tlv) : Bytes := ts.flatMap Tlv.bytes

/-- A buffer, and the offset behind what has been written, of type `uint16_t`. -/
structure TlvBuffer where
  mem : Bytes
  offset : Nat

namespace TlvBuffer

/-- `buf[offset++] = b`. -/
def putByte (w : TlvBuffer) (b : UInt8) : Option TlvBuffer :=
  (memcpy w.mem w.offset [b]).map fun mem => ⟨mem, u16 (w.offset + 1)⟩

/-- Writes the type, the two bytes of the length and the value; the length is of type `uint16_t`,
too. -/
def put (w : TlvBuffer) (t : Tlv) : Option TlvBuffer := do
  let len := u16 t.value.length
  let w ← w.putByte t.type
  let w ← w.putByte (UInt8.ofNat (len &&& 0xFF))
  let w ← w.putByte (UInt8.ofNat (len >>> 8 &&& 0xFF))
  let mem ← memcpy w.mem w.offset (t.value.take len)
  return ⟨mem, u16 (w.offset + len)⟩

end TlvBuffer

/-! ### The format -/

section Format

variable (t : Tlv) (ts : List Tlv)

theorem length_tlv_bytes : t.bytes.length = t.value.length + 3 := by
  simp only [Tlv.bytes, List.length_cons, List.length_append, length_leBytes]
  omega

@[simp] theorem tlvBytes_nil : tlvBytes [] = [] := rfl

@[simp] theorem tlvBytes_cons : tlvBytes (t :: ts) = t.bytes ++ tlvBytes ts := List.flatMap_cons

end Format

theorem leBytes_two {n : Nat} (h : n < 65536) :
    leBytes 2 n = [UInt8.ofNat (n &&& 0xFF), UInt8.ofNat (n >>> 8 &&& 0xFF)] := by
  have hlow : UInt8.ofNat (n &&& 0xFF) = UInt8.ofNat n := by
    apply UInt8.toNat_inj.1
    rw [show (0xFF : Nat) = 2 ^ 8 - 1 from rfl, Nat.and_two_pow_sub_one_eq_mod, UInt8.toNat_ofNat',
      UInt8.toNat_ofNat', Nat.mod_mod]
  have hhigh : n >>> 8 &&& 0xFF = n / 256 := by
    rw [show (0xFF : Nat) = 2 ^ 8 - 1 from rfl, Nat.and_two_pow_sub_one_eq_mod,
      Nat.shiftRight_eq_div_pow, Nat.mod_eq_of_lt (by omega)]
  rw [hlow, hhigh]
  rfl

theorem toNat_add_toNat_of_leBytes {n : Nat} {lo hi : UInt8} (h : n < 65536)
    (hbytes : leBytes 2 n = [lo, hi]) : lo.toNat + hi.toNat <<< 8 = n := by
  have hback : beNat (beBytes 2 n) = n := beNat_beBytes_of_lt h
  rw [← List.reverse_reverse (beBytes 2 n), ← leBytes, hbytes] at hback
  rw [Nat.shiftLeft_eq, ← hback]
  simp only [List.reverse_cons, List.reverse_nil, List.nil_append, List.cons_append, beNat,
    List.foldl_cons, List.foldl_nil]
  omega

/-! ### The writer -/

namespace TlvBuffer

/-- A buffer that starts with the bytes `done`, behind which the next value goes. -/
def after (done rest : Bytes) : TlvBuffer := ⟨done ++ rest, done.length⟩

variable {done rest : Bytes}

theorem putByte_after (b b' : UInt8) (hsize : done.length + 1 < 65536) :
    (after done (b' :: rest)).putByte b = some (after (done ++ [b]) rest) := by
  have hcopy : memcpy (done ++ b' :: rest) done.length [b] = some (done ++ ([b] ++ rest)) :=
    memcpy_eq_of_append done [b'] rest rfl rfl rfl
  rw [putByte, after, hcopy, Option.map_some, u16_of_lt hsize, after, List.append_assoc,
    List.length_append, List.length_singleton]

theorem put_after {t : Tlv} {mid : Bytes} (hmid : mid.length = t.bytes.length)
    (hsize : (done ++ t.bytes).length < 65536) :
    (after done (mid ++ rest)).put t = some (after (done ++ t.bytes) rest) := by
  rw [length_tlv_bytes] at hmid
  rw [List.length_append, length_tlv_bytes] at hsize
  obtain ⟨b₀, b₁, b₂, mid, rfl⟩ : ∃ b₀ b₁ b₂ tail, mid = b₀ :: b₁ :: b₂ :: tail := by
    match mid, hmid with
    | b₀ :: b₁ :: b₂ :: tail, _ => exact ⟨b₀, b₁, b₂, tail, rfl⟩
  have hmid : mid.length = t.value.length := by
    simp only [List.length_cons] at hmid
    omega
  have hlen : u16 t.value.length = t.value.length := u16_of_lt (by omega)
  have hcopy (pre : Bytes) : memcpy (pre ++ (mid ++ rest)) pre.length t.value =
      some (pre ++ (t.value ++ rest)) := memcpy_eq_of_append pre mid rest rfl rfl hmid
  have hstep (pre : Bytes) (b b' : UInt8) (more : Bytes) (hpre : pre.length ≤ done.length + 2) :
      (after pre (b' :: more)).putByte b = some (after (pre ++ [b]) more) :=
    putByte_after b b' (by omega)
  have hdone : done ++ t.bytes = done ++ [t.type] ++ [UInt8.ofNat (t.value.length &&& 0xFF)] ++
      [UInt8.ofNat (t.value.length >>> 8 &&& 0xFF)] ++ t.value := by
    rw [Tlv.bytes, leBytes_two (by omega)]
    simp only [List.append_assoc, List.cons_append, List.nil_append]
  simp only [put, List.cons_append, hlen, List.take_length]
  rw [hstep _ _ _ _ (by omega), Option.bind_eq_bind, Option.bind_some,
    hstep _ _ _ _ (by rw [List.length_append, List.length_singleton]; omega), Option.bind_some,
    hstep _ _ _ _ (by simp only [List.length_append, List.length_singleton]; omega),
    Option.bind_some, hdone]
  generalize hpre : done ++ [t.type] ++ [UInt8.ofNat (t.value.length &&& 0xFF)] ++
    [UInt8.ofNat (t.value.length >>> 8 &&& 0xFF)] = pre
  have hlt : pre.length + t.value.length < 65536 := by
    simp only [← hpre, List.length_append, List.length_singleton]
    omega
  rw [after, hcopy, Option.bind_eq_bind, Option.bind_some, u16_of_lt hlt, after,
    List.append_assoc, List.length_append]
  rfl

theorem foldlM_put_after {ts : List Tlv} {mid : Bytes} (hmid : mid.length = (tlvBytes ts).length)
    (hsize : (done ++ tlvBytes ts).length < 65536) :
    ts.foldlM put (after done (mid ++ rest)) = some (after (done ++ tlvBytes ts) rest) := by
  induction ts generalizing done mid with
  | nil =>
    obtain rfl := List.eq_nil_of_length_eq_zero hmid
    simp
  | cons t ts ih =>
    rw [tlvBytes_cons, List.length_append] at hmid
    rw [tlvBytes_cons, ← List.append_assoc] at hsize ⊢
    obtain ⟨u, v, rfl, hu⟩ : ∃ u v, mid = u ++ v ∧ u.length = t.bytes.length :=
      ⟨mid.take t.bytes.length, mid.drop t.bytes.length, (List.take_append_drop _ _).symm,
        by rw [List.length_take]; omega⟩
    have hv : v.length = (tlvBytes ts).length := by
      rw [List.length_append] at hmid
      omega
    have hlt : (done ++ t.bytes).length < 65536 := by
      rw [List.length_append] at hsize
      omega
    rw [List.foldlM_cons, List.append_assoc, put_after hu hlt]
    exact ih hv hsize

end TlvBuffer

end TuyaOpen
