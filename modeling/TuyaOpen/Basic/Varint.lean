import TuyaOpen.Basic.Bytes

/-!
# Integers of seven bits a byte

The usual variable-length encoding of a natural number: seven bits in a byte, the least
significant first, and the top bit set in every byte but the last. Both directions are bounded by
a number of bytes. An encoder drops the bits that do not fit; a decoder that has read the last
byte it may read stops there whatever its top bit says, and has no value when the bytes run out
before.

## Main results

* `Varint.decode_encode`: decoding gives the number back, whatever follows.
* `Varint.exists_of_decode`: a decoder has read a front part of its input.
-/

namespace TuyaOpen.Varint

/-- The encoding of `n` in at most `k` bytes. -/
def encode : Nat → Nat → Bytes
  | 0, _ => []
  | k + 1, n =>
    if n / 128 = 0 then [UInt8.ofNat (n % 128)]
    else UInt8.ofNat (n % 128 + 128) :: encode k (n / 128)

/-- The number at the start of a byte string, read from at most `k` bytes, and what follows it. -/
def decode : Nat → Bytes → Option (Nat × Bytes)
  | 0, bs => some (0, bs)
  | _ + 1, [] => none
  | k + 1, b :: bs =>
    if b.toNat < 128 then some (b.toNat, bs)
    else
      match decode k bs with
      | none => none
      | some (n, rest) => some (b.toNat % 128 + 128 * n, rest)

theorem length_encode_le (k n : Nat) : (encode k n).length ≤ k := by
  induction k generalizing n with
  | zero => exact Nat.le_refl 0
  | succ k ih =>
    rw [encode]
    split_ifs
    · simp
    · exact Nat.succ_le_succ (ih (n / 128))

theorem length_encode_pos (k n : Nat) : 0 < (encode (k + 1) n).length := by
  rw [encode]
  split_ifs
  · exact Nat.one_pos
  · exact Nat.succ_pos _

theorem length_encode_mono (k : Nat) {m n : Nat} (h : m ≤ n) :
    (encode k m).length ≤ (encode k n).length := by
  induction k generalizing m n with
  | zero => exact Nat.le_refl 0
  | succ k ih =>
    have hdiv : m / 128 ≤ n / 128 := Nat.div_le_div_right h
    by_cases hm : m / 128 = 0
    · rw [encode, if_pos hm]
      exact length_encode_pos k n
    · rw [encode, encode, if_neg hm, if_neg (by omega)]
      exact Nat.succ_le_succ (ih hdiv)

theorem decode_encode {k n : Nat} (h : n < 128 ^ k) (rest : Bytes) :
    decode k (encode k n ++ rest) = some (n, rest) := by
  induction k generalizing n with
  | zero =>
    obtain rfl : n = 0 := by simpa using h
    rfl
  | succ k ih =>
    rw [encode]
    by_cases hlast : n / 128 = 0
    · have hbyte : (UInt8.ofNat (n % 128)).toNat = n := by
        rw [UInt8.toNat_ofNat']
        omega
      rw [if_pos hlast, List.singleton_append, decode, hbyte, if_pos (by omega)]
    · have hbyte : (UInt8.ofNat (n % 128 + 128)).toNat = n % 128 + 128 := by
        rw [UInt8.toNat_ofNat']
        omega
      have hrest : n / 128 < 128 ^ k := by
        rw [Nat.pow_succ] at h
        omega
      rw [if_neg hlast, List.cons_append, decode, hbyte, if_neg (by omega), ih hrest]
      simp only [Option.some.injEq, Prod.mk.injEq, and_true]
      omega

theorem exists_of_decode {k n : Nat} {bs rest : Bytes} (h : decode k bs = some (n, rest)) :
    ∃ pre, bs = pre ++ rest ∧ pre.length ≤ k ∧ n < 128 ^ k := by
  induction k generalizing bs n with
  | zero =>
    obtain ⟨rfl, rfl⟩ := Prod.mk.inj (Option.some.inj h)
    exact ⟨[], rfl, Nat.le_refl 0, by decide⟩
  | succ k ih =>
    cases bs with
    | nil => cases h
    | cons b bs =>
      rw [decode] at h
      by_cases hlast : b.toNat < 128
      · rw [if_pos hlast] at h
        obtain ⟨rfl, rfl⟩ := Prod.mk.inj (Option.some.inj h)
        have hpow : 128 ≤ 128 ^ (k + 1) := Nat.le_pow (Nat.succ_pos k)
        exact ⟨[b], rfl, by simp, by omega⟩
      · rw [if_neg hlast] at h
        split at h
        · cases h
        · next m rest' hm =>
          obtain ⟨rfl, rfl⟩ := Prod.mk.inj (Option.some.inj h)
          obtain ⟨pre, rfl, hlen, hlt⟩ := ih hm
          refine ⟨b :: pre, rfl, Nat.succ_le_succ hlen, ?_⟩
          rw [Nat.pow_succ]
          omega

theorem length_lt_of_decode {k n : Nat} {bs rest : Bytes}
    (h : decode (k + 1) bs = some (n, rest)) : rest.length < bs.length := by
  cases bs with
  | nil => cases h
  | cons b bs =>
    rw [decode] at h
    split_ifs at h
    · obtain ⟨-, rfl⟩ := Prod.mk.inj (Option.some.inj h)
      exact Nat.lt_succ_self _
    · split at h
      · cases h
      · next m rest' hm =>
        obtain ⟨-, rfl⟩ := Prod.mk.inj (Option.some.inj h)
        obtain ⟨pre, rfl, -, -⟩ := exists_of_decode hm
        rw [List.length_cons, List.length_append]
        omega

end TuyaOpen.Varint
