import TuyaOpen.Basic.Bytes

/-!
# Compressed IDs

`tuya_ble_id_compress` of `ble_cryption.c`. The 20 characters of an ID are digits and letters. Each
is given a value below 62, which takes six bits, and the values of four characters are packed into
three bytes. A last byte `0xFF` makes 16.
-/

namespace TuyaOpen.Ble

/-- What is stored for a character in an element of `temp`, which stays as it was when the character
is neither a digit nor a letter. -/
def idSymbol (temp c : UInt8) : UInt8 :=
  if 0x30 ≤ c ∧ c ≤ 0x39 then c - 0x30
  else if 0x41 ≤ c ∧ c ≤ 0x5A then c - 0x41 + 36
  else if 0x61 ≤ c ∧ c ≤ 0x7A then c - 0x61 + 10
  else temp

/-- The array `temp`. -/
structure IdTemp where
  t0 : UInt8
  t1 : UInt8
  t2 : UInt8
  t3 : UInt8

def IdTemp.read (temp : IdTemp) (c₀ c₁ c₂ c₃ : UInt8) : IdTemp :=
  ⟨idSymbol temp.t0 c₀, idSymbol temp.t1 c₁, idSymbol temp.t2 c₂, idSymbol temp.t3 c₃⟩

def packGroup (temp : IdTemp) : Bytes :=
  [((temp.t0 &&& 0x3F) <<< 2) ||| ((temp.t1 >>> 4) &&& 0x03),
    ((temp.t1 &&& 0x0F) <<< 4) ||| ((temp.t2 >>> 2) &&& 0x0F),
    ((temp.t2 &&& 0x03) <<< 6) ||| (temp.t3 &&& 0x3F)]

/-- The outer loop, with a number of rounds left: none when the input is too short. -/
def idGroups : Nat → IdTemp → Bytes → Option Bytes
  | 0, _, _ => some []
  | k + 1, temp, c₀ :: c₁ :: c₂ :: c₃ :: rest =>
    (idGroups k (temp.read c₀ c₁ c₂ c₃) rest).map (packGroup (temp.read c₀ c₁ c₂ c₃) ++ ·)
  | _ + 1, _, _ => none

/-- `tuya_ble_id_compress`, with what is on the stack in the place of `temp`. -/
def tuyaBleIdCompress (temp : IdTemp) (input : Bytes) : Option Bytes :=
  (idGroups 5 temp input).map (· ++ [0xFF])

def IsSymbol (c : UInt8) : Prop :=
  (0x30 ≤ c ∧ c ≤ 0x39) ∨ (0x41 ≤ c ∧ c ≤ 0x5A) ∨ (0x61 ≤ c ∧ c ≤ 0x7A)

instance instDecidableIsSymbol (c : UInt8) : Decidable (IsSymbol c) :=
  inferInstanceAs (Decidable (_ ∨ _ ∨ _))

structure IsId (input : Bytes) : Prop where
  length_eq : input.length = 20
  symbols : ∀ c ∈ input, IsSymbol c

/-! ### Values -/

theorem toNat_idSymbol {temp c : UInt8} (h : IsSymbol c) :
    (idSymbol temp c).toNat =
      if c.toNat ≤ 0x39 then c.toNat - 48 else if c.toNat ≤ 0x5A then c.toNat - 29
      else c.toNat - 87 := by
  simp only [IsSymbol, UInt8.le_iff_toNat_le, UInt8.reduceToNat] at h
  simp only [idSymbol, UInt8.le_iff_toNat_le, UInt8.reduceToNat]
  rcases h with ⟨hge, hle⟩ | ⟨hge, hle⟩ | ⟨hge, hle⟩
  · rw [if_pos ⟨hge, hle⟩, if_pos hle, UInt8.toNat_sub_of_le _ _ hge]
    rfl
  · rw [if_neg (by omega), if_pos ⟨hge, hle⟩, if_neg (by omega), if_pos hle, UInt8.toNat_add,
      UInt8.toNat_sub_of_le _ _ hge]
    simp only [UInt8.reduceToNat]
    omega
  · rw [if_neg (by omega), if_neg (by omega), if_pos ⟨hge, hle⟩, if_neg (by omega),
      if_neg (by omega), UInt8.toNat_add, UInt8.toNat_sub_of_le _ _ hge]
    simp only [UInt8.reduceToNat]
    omega

theorem idSymbol_lt {temp c : UInt8} (h : IsSymbol c) : (idSymbol temp c).toNat < 64 := by
  rw [toNat_idSymbol h]
  rw [IsSymbol] at h
  simp only [UInt8.le_iff_toNat_le, UInt8.reduceToNat] at h
  split_ifs <;> omega

theorem eq_of_idSymbol_eq {temp temp' c c' : UInt8} (h : IsSymbol c) (h' : IsSymbol c')
    (heq : idSymbol temp c = idSymbol temp' c') : c = c' := by
  have hnat := congrArg UInt8.toNat heq
  rw [toNat_idSymbol h, toNat_idSymbol h'] at hnat
  rw [IsSymbol] at h h'
  simp only [UInt8.le_iff_toNat_le, UInt8.reduceToNat] at h h'
  refine UInt8.toNat_inj.1 ?_
  split_ifs at hnat <;> omega

/-! ### Packing -/

theorem toNat_pack : ∀ a b : Fin 64,
    (((UInt8.ofNat a &&& 0x3F) <<< 2) ||| ((UInt8.ofNat b >>> 4) &&& 0x03)).toNat =
        4 * a + b / 16 ∧
      (((UInt8.ofNat a &&& 0x0F) <<< 4) ||| ((UInt8.ofNat b >>> 2) &&& 0x0F)).toNat =
        16 * (a % 16) + b / 4 ∧
      (((UInt8.ofNat a &&& 0x03) <<< 6) ||| (UInt8.ofNat b &&& 0x3F)).toNat =
        64 * (a % 4) + b := by
  decide +kernel

structure IdTemp.Small (temp : IdTemp) : Prop where
  t0 : temp.t0.toNat < 64
  t1 : temp.t1.toNat < 64
  t2 : temp.t2.toNat < 64
  t3 : temp.t3.toNat < 64

theorem map_toNat_packGroup {temp : IdTemp} (h : temp.Small) :
    (packGroup temp).map UInt8.toNat =
      [4 * temp.t0.toNat + temp.t1.toNat / 16, 16 * (temp.t1.toNat % 16) + temp.t2.toNat / 4,
        64 * (temp.t2.toNat % 4) + temp.t3.toNat] := by
  have h₀ := (toNat_pack ⟨temp.t0.toNat, h.t0⟩ ⟨temp.t1.toNat, h.t1⟩).1
  have h₁ := (toNat_pack ⟨temp.t1.toNat, h.t1⟩ ⟨temp.t2.toNat, h.t2⟩).2.1
  have h₂ := (toNat_pack ⟨temp.t2.toNat, h.t2⟩ ⟨temp.t3.toNat, h.t3⟩).2.2
  dsimp only at h₀ h₁ h₂
  rw [UInt8.ofNat_toNat, UInt8.ofNat_toNat] at h₀ h₁ h₂
  rw [packGroup, List.map_cons, List.map_cons, List.map_cons, List.map_nil, h₀, h₁, h₂]

theorem packGroup_injective {temp temp' : IdTemp} (h : temp.Small) (h' : temp'.Small)
    (heq : packGroup temp = packGroup temp') : temp = temp' := by
  have hmap := congrArg (List.map UInt8.toNat) heq
  rw [map_toNat_packGroup h, map_toNat_packGroup h'] at hmap
  obtain ⟨h₀, h₁, h₂, -⟩ := by simpa only [List.cons.injEq] using hmap
  obtain ⟨b₀, b₁, b₂, b₃⟩ := h
  obtain ⟨b₀', b₁', b₂', b₃'⟩ := h'
  have ht₀ : temp.t0 = temp'.t0 := UInt8.toNat_inj.1 (by omega)
  have ht₁ : temp.t1 = temp'.t1 := UInt8.toNat_inj.1 (by omega)
  have ht₂ : temp.t2 = temp'.t2 := UInt8.toNat_inj.1 (by omega)
  have ht₃ : temp.t3 = temp'.t3 := UInt8.toNat_inj.1 (by omega)
  cases temp
  cases temp'
  simp only at ht₀ ht₁ ht₂ ht₃
  rw [ht₀, ht₁, ht₂, ht₃]

/-! ### The loop -/

section Loop

variable {temp temp' : IdTemp} {input input' out : Bytes} {k : Nat}

theorem exists_of_length_succ (h : input.length = 4 * (k + 1)) :
    ∃ c₀ c₁ c₂ c₃ rest, input = c₀ :: c₁ :: c₂ :: c₃ :: rest ∧ rest.length = 4 * k := by
  match input, h with
  | c₀ :: c₁ :: c₂ :: c₃ :: rest, h =>
    refine ⟨c₀, c₁, c₂, c₃, rest, rfl, ?_⟩
    simp only [List.length_cons] at h
    omega

theorem small_read (temp : IdTemp) {c₀ c₁ c₂ c₃ : UInt8} (h₀ : IsSymbol c₀) (h₁ : IsSymbol c₁)
    (h₂ : IsSymbol c₂) (h₃ : IsSymbol c₃) : (temp.read c₀ c₁ c₂ c₃).Small :=
  ⟨idSymbol_lt h₀, idSymbol_lt h₁, idSymbol_lt h₂, idSymbol_lt h₃⟩

theorem exists_idGroups_eq (h : input.length = 4 * k) (temp : IdTemp) :
    ∃ out, idGroups k temp input = some out ∧ out.length = 3 * k := by
  induction k generalizing temp input with
  | zero => exact ⟨[], rfl, rfl⟩
  | succ k ih =>
    obtain ⟨c₀, c₁, c₂, c₃, rest, rfl, hrest⟩ := exists_of_length_succ h
    obtain ⟨out, hout, hlen⟩ := ih hrest (temp.read c₀ c₁ c₂ c₃)
    refine ⟨packGroup (temp.read c₀ c₁ c₂ c₃) ++ out, ?_, ?_⟩
    · rw [idGroups, hout, Option.map_some]
    · rw [List.length_append, hlen, packGroup, List.length_cons, List.length_cons,
        List.length_cons, List.length_nil]
      omega

theorem eq_of_idGroups_eq (h : input.length = 4 * k) (h' : input'.length = 4 * k)
    (hs : ∀ c ∈ input, IsSymbol c) (hs' : ∀ c ∈ input', IsSymbol c)
    (heq : idGroups k temp input = idGroups k temp' input') : input = input' := by
  induction k generalizing temp temp' input input' with
  | zero => rw [List.length_eq_zero_iff.1 h, List.length_eq_zero_iff.1 h']
  | succ k ih =>
    obtain ⟨c₀, c₁, c₂, c₃, rest, rfl, hrest⟩ := exists_of_length_succ h
    obtain ⟨c₀', c₁', c₂', c₃', rest', rfl, hrest'⟩ := exists_of_length_succ h'
    simp only [List.forall_mem_cons] at hs hs'
    obtain ⟨hs₀, hs₁, hs₂, hs₃, hs⟩ := hs
    obtain ⟨hs₀', hs₁', hs₂', hs₃', hs'⟩ := hs'
    obtain ⟨out, hout, -⟩ := exists_idGroups_eq hrest (temp.read c₀ c₁ c₂ c₃)
    obtain ⟨out', hout', -⟩ := exists_idGroups_eq hrest' (temp'.read c₀' c₁' c₂' c₃')
    rw [idGroups, idGroups, hout, hout', Option.map_some, Option.map_some] at heq
    obtain ⟨hgroup, rfl⟩ := List.append_inj (Option.some.inj heq) rfl
    have hread := packGroup_injective (small_read temp hs₀ hs₁ hs₂ hs₃)
      (small_read temp' hs₀' hs₁' hs₂' hs₃') hgroup
    obtain ⟨h₀, h₁, h₂, h₃⟩ := IdTemp.mk.inj hread
    rw [eq_of_idSymbol_eq hs₀ hs₀' h₀, eq_of_idSymbol_eq hs₁ hs₁' h₁,
      eq_of_idSymbol_eq hs₂ hs₂' h₂, eq_of_idSymbol_eq hs₃ hs₃' h₃,
      ih hrest hrest' hs hs' (hout.trans hout'.symm)]

/-- **Compressed IDs.** IDs with the same 16 bytes are equal, whatever has been on the stack. -/
theorem eq_of_tuyaBleIdCompress_eq (h : IsId input) (h' : IsId input')
    (heq : tuyaBleIdCompress temp input = tuyaBleIdCompress temp' input') : input = input' := by
  obtain ⟨out, hout, -⟩ := @exists_idGroups_eq input 5 h.length_eq temp
  obtain ⟨out', hout', -⟩ := @exists_idGroups_eq input' 5 h'.length_eq temp'
  rw [tuyaBleIdCompress, tuyaBleIdCompress, hout, hout', Option.map_some, Option.map_some] at heq
  have hout_eq : out = out' := List.append_cancel_right (Option.some.inj heq)
  rw [← hout_eq] at hout'
  exact eq_of_idGroups_eq h.length_eq h'.length_eq h.symbols h'.symbols (hout.trans hout'.symm)

end Loop

/-- The ID `tuya0123456789ABCxyz`. -/
def sampleId : Bytes :=
  [0x74, 0x75, 0x79, 0x61, 0x30, 0x31, 0x32, 0x33, 0x34, 0x35, 0x36, 0x37, 0x38, 0x39, 0x41, 0x42,
    0x43, 0x78, 0x79, 0x7A]

theorem isId_sampleId : IsId sampleId := ⟨rfl, by decide +kernel⟩

theorem eq_of_tuyaBleIdCompress_eq_sampleId :
    tuyaBleIdCompress ⟨0, 0, 0, 0⟩ sampleId = tuyaBleIdCompress ⟨1, 2, 3, 4⟩ sampleId ∧
      sampleId = sampleId := by
  have heq : tuyaBleIdCompress ⟨0, 0, 0, 0⟩ sampleId =
      tuyaBleIdCompress ⟨1, 2, 3, 4⟩ sampleId := by decide
  exact ⟨heq, eq_of_tuyaBleIdCompress_eq isId_sampleId isId_sampleId heq⟩

end TuyaOpen.Ble
