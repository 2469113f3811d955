import TuyaOpen.Basic.Bytes

/-!
# Byte order

The macros `WORD_SWAP`, `DWORD_SWAP` and `DDWORD_SWAP` of `tuya_cloud_types.h`, to which
`UNI_HTONS`, `UNI_NTOHS` and their relatives come down on a little-endian target. There an integer
has its lowest byte first in memory, and the bytes of a swapped integer are those of the integer in
network order.
-/

namespace TuyaOpen

/-- The `k` low bytes of `n`, the least significant first. -/
def leBytes (k n : Nat) : Bytes := (beBytes k n).reverse

/-- The integer whose bytes are `bs`, the least significant first. -/
def leNat (bs : Bytes) : Nat := beNat bs.reverse

/-- `WORD_SWAP`, for a `uint16_t`. -/
def wordSwap (x : Nat) : Nat := (x <<< 8 ||| x >>> 8) &&& 0xFFFF

/-- `DWORD_SWAP`, for a `uint32_t` or an `unsigned long` below `2 ^ 32`. -/
def dwordSwap (x : Nat) : Nat :=
  (x &&& 0xff) <<< 24 + (x &&& 0xff00) <<< 8 + (x &&& 0xff0000) >>> 8 + (x &&& 0xff000000) >>> 24

/-- `DDWORD_SWAP`, for a `uint64_t`. -/
def ddwordSwap (x : Nat) : Nat :=
  let tempLow := dwordSwap (x &&& 0xffffffff)
  let tempHigh := dwordSwap (x >>> 32)
  tempLow <<< 32 ||| tempHigh

/-! ### Bytes -/

@[simp] theorem length_leBytes (k n : Nat) : (leBytes k n).length = k := by
  rw [leBytes, List.length_reverse, length_beBytes]

theorem beBytes_beNat (bs : Bytes) : beBytes bs.length (beNat bs) = bs := by
  induction bs using List.reverseRecOn with
  | nil => rfl
  | append_singleton bs b ih =>
    have hb : b.toNat < 256 := b.toNat_lt
    have hdiv : (beNat bs * 256 + b.toNat) / 256 = beNat bs := by omega
    have hlow : UInt8.ofNat (beNat bs * 256 + b.toNat) = b := by
      apply UInt8.toNat_inj.mp
      rw [UInt8.toNat_ofNat']
      omega
    rw [List.length_append, List.length_singleton, beBytes, beNat_append_singleton, hdiv, ih, hlow]

theorem leNat_append_zeros (bs : Bytes) (n : Nat) :
    leNat (bs ++ List.replicate n 0) = leNat bs := by
  have hzeros (cs : Bytes) : beNat (List.replicate n 0 ++ cs) = beNat cs := by
    induction n with
    | zero => rfl
    | succ n ih => rw [List.replicate_succ, List.cons_append, beNat, List.foldl_cons]; exact ih
  rw [leNat, leNat, List.reverse_append, List.reverse_replicate, hzeros]

theorem and_byte (x i : Nat) : x &&& 0xff <<< i = (x >>> i % 256) <<< i := by
  apply Nat.eq_of_testBit_eq
  intro j
  rw [Nat.testBit_and, Nat.testBit_shiftLeft, Nat.testBit_shiftLeft,
    show (256 : Nat) = 2 ^ 8 from rfl, Nat.testBit_mod_two_pow, Nat.testBit_shiftRight,
    show (0xff : Nat) = 2 ^ 8 - 1 from rfl, Nat.testBit_two_pow_sub_one]
  by_cases hj : i ≤ j
  · simp [hj, Bool.and_comm]
  · simp [hj]

theorem wordSwap_beNat {bs : Bytes} (h : bs.length = 2) :
    wordSwap (beNat bs) = beNat bs.reverse := by
  match bs, h with
  | [a, b], _ =>
    have ha : a.toNat < 256 := a.toNat_lt
    have hb : b.toNat < 256 := b.toNat_lt
    have hx : beNat [a, b] = a.toNat * 256 + b.toNat := by simp [beNat]
    have hr : beNat [a, b].reverse = b.toNat * 256 + a.toNat := by simp [beNat]
    have hlow : (beNat [a, b]) >>> 8 = a.toNat := by
      rw [hx, Nat.shiftRight_eq_div_pow]
      omega
    rw [wordSwap, hlow, ← Nat.shiftLeft_add_eq_or_of_lt (by omega),
      show (0xFFFF : Nat) = 2 ^ 16 - 1 from rfl, Nat.and_two_pow_sub_one_eq_mod,
      Nat.shiftLeft_eq, hx, hr]
    omega

theorem dwordSwap_beNat {bs : Bytes} (h : bs.length = 4) :
    dwordSwap (beNat bs) = beNat bs.reverse := by
  match bs, h with
  | [a, b, c, d], _ =>
    have ha : a.toNat < 256 := a.toNat_lt
    have hb : b.toNat < 256 := b.toNat_lt
    have hc : c.toNat < 256 := c.toNat_lt
    have hd : d.toNat < 256 := d.toNat_lt
    have hx : beNat [a, b, c, d] =
        a.toNat * 16777216 + b.toNat * 65536 + c.toNat * 256 + d.toNat := by
      simp only [beNat, List.foldl_cons, List.foldl_nil]
      omega
    have hr : beNat [a, b, c, d].reverse =
        d.toNat * 16777216 + c.toNat * 65536 + b.toNat * 256 + a.toNat := by
      simp only [List.reverse_cons, List.reverse_nil, List.nil_append, List.cons_append, beNat,
        List.foldl_cons, List.foldl_nil]
      omega
    rw [dwordSwap, show (0xff00 : Nat) = 0xff <<< 8 from rfl,
      show (0xff0000 : Nat) = 0xff <<< 16 from rfl, show (0xff000000 : Nat) = 0xff <<< 24 from rfl,
      and_byte, and_byte, and_byte, show (0xff : Nat) = 2 ^ 8 - 1 from rfl,
      Nat.and_two_pow_sub_one_eq_mod, hr]
    have h0 : beNat [a, b, c, d] % 256 = d.toNat := by omega
    have h1 : beNat [a, b, c, d] / 256 = (a.toNat * 256 + b.toNat) * 256 + c.toNat := by omega
    have h2 : beNat [a, b, c, d] / 65536 = a.toNat * 256 + b.toNat := by omega
    have h3 : beNat [a, b, c, d] / 16777216 = a.toNat := by omega
    have hdigit (q r : Nat) (hr : r < 256) : (q * 256 + r) % 256 = r := by omega
    simp only [Nat.shiftLeft_eq, Nat.shiftRight_eq_div_pow, Nat.reducePow, h0, h1, h2, h3,
      hdigit _ _ hb, hdigit _ _ hc, Nat.mod_eq_of_lt ha]
    omega

theorem beNat_append (bs cs : Bytes) :
    beNat (bs ++ cs) = beNat bs * 256 ^ cs.length + beNat cs := by
  induction cs using List.reverseRecOn with
  | nil => simp [beNat]
  | append_singleton cs c ih =>
    rw [← List.append_assoc, beNat_append_singleton, ih, beNat_append_singleton, List.length_append,
      List.length_singleton, Nat.pow_succ, Nat.add_mul, Nat.mul_assoc, Nat.add_assoc]

theorem ddwordSwap_beNat {bs : Bytes} (h : bs.length = 8) :
    ddwordSwap (beNat bs) = beNat bs.reverse := by
  obtain ⟨hi, lo, rfl, hhi, hlo⟩ : ∃ hi lo, bs = hi ++ lo ∧ hi.length = 4 ∧ lo.length = 4 :=
    ⟨bs.take 4, bs.drop 4, (List.take_append_drop 4 bs).symm, by rw [List.length_take]; omega,
      by rw [List.length_drop]; omega⟩
  have hltlo := beNat_lt lo
  have hlthi := beNat_lt hi.reverse
  rw [List.length_reverse, hhi] at hlthi
  rw [hlo] at hltlo
  have hx : beNat (hi ++ lo) = beNat hi * 2 ^ 32 + beNat lo := by
    rw [beNat_append, hlo]
    rfl
  have hlow : beNat (hi ++ lo) &&& 0xffffffff = beNat lo := by
    rw [show (0xffffffff : Nat) = 2 ^ 32 - 1 from rfl, Nat.and_two_pow_sub_one_eq_mod, hx]
    omega
  have hhigh : beNat (hi ++ lo) >>> 32 = beNat hi := by
    rw [Nat.shiftRight_eq_div_pow, hx]
    omega
  rw [ddwordSwap, hlow, hhigh, dwordSwap_beNat hlo, dwordSwap_beNat hhi,
    ← Nat.shiftLeft_add_eq_or_of_lt hlthi, Nat.shiftLeft_eq, List.reverse_append, beNat_append,
    List.length_reverse, hhi, show (256 : Nat) ^ 4 = 2 ^ 32 from rfl]

/-! ### Memory -/

section Memory

variable {bs : Bytes} {x : Nat}

theorem wordSwap_leNat (h : bs.length = 2) : wordSwap (leNat bs) = beNat bs := by
  rw [leNat, wordSwap_beNat (by rwa [List.length_reverse]), List.reverse_reverse]

theorem dwordSwap_leNat (h : bs.length = 4) : dwordSwap (leNat bs) = beNat bs := by
  rw [leNat, dwordSwap_beNat (by rwa [List.length_reverse]), List.reverse_reverse]

theorem ddwordSwap_leNat (h : bs.length = 8) : ddwordSwap (leNat bs) = beNat bs := by
  rw [leNat, ddwordSwap_beNat (by rwa [List.length_reverse]), List.reverse_reverse]

theorem leBytes_of_reverse {k y : Nat} (hy : y = beNat (beBytes k x).reverse) :
    leBytes k y = beBytes k x := by
  have hback := beBytes_beNat (beBytes k x).reverse
  rw [List.length_reverse, length_beBytes] at hback
  rw [leBytes, hy, hback, List.reverse_reverse]

theorem leBytes_wordSwap (h : x < 65536) : leBytes 2 (wordSwap x) = beBytes 2 x :=
  leBytes_of_reverse (by rw [← wordSwap_beNat (length_beBytes 2 x), beNat_beBytes_of_lt h])

theorem leBytes_dwordSwap (h : x < 4294967296) : leBytes 4 (dwordSwap x) = beBytes 4 x :=
  leBytes_of_reverse (by rw [← dwordSwap_beNat (length_beBytes 4 x), beNat_beBytes_of_lt h])

theorem leBytes_ddwordSwap (h : x < 18446744073709551616) :
    leBytes 8 (ddwordSwap x) = beBytes 8 x :=
  leBytes_of_reverse (by rw [← ddwordSwap_beNat (length_beBytes 8 x), beNat_beBytes_of_lt h])

end Memory

end TuyaOpen
