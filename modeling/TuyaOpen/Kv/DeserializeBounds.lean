import TuyaOpen.Kv.SerializeBuffer

/-!
# What `kv_deserialize` writes

The bytes that `kv_deserialize` writes at `val`, for records of every type and every length. A
string is compared with the length of its record. A number is compared with the range of its type
and not with the length, and raw bytes are decoded from base64 at `val` without any comparison.
-/

namespace TuyaOpen.Kv

open TuyaOpen.Utilities

/-! ### The function -/

namespace KvRecord

def key : KvRecord → Bytes
  | typed e => e.key
  | untyped key _ => key

def len : KvRecord → UInt16
  | typed e => e.len
  | untyped _ len => len

end KvRecord

/-- The bytes written for a number in the range of a type of `size` bytes. -/
def storedInt (json : Json) (lo hi : ℤ) (size : Nat) : Except OperateRet Nat :=
  match json with
  | .number mantissa exponent =>
    let v := valueint mantissa exponent
    if v < lo ∨ hi < v then .error oprtComError else .ok size
  | _ => .error oprtCjsonGetErr

/-- The bytes that are written at `val` from the member with the key of a record, or an error. -/
def stored (e : KvDb) (json : Json) : Except OperateRet Nat :=
  match e.val with
  | .char _ => storedInt json (-128) 127 1
  | .byte _ => storedInt json 0 255 1
  | .short _ => storedInt json (-32768) 32767 2
  | .ushort _ => storedInt json 0 65535 2
  -- no check is made, and `valueint` is in the range
  | .int _ => storedInt json (-2147483648) 2147483647 4
  | .bool _ =>
    match json with
    | .bool _ => .ok 4
    | _ => .error oprtCjsonGetErr
  | .string _ =>
    match json with
    | .null => .ok 1
    | .string s =>
      if e.len.toNat < (cString s).length + 1 then .error oprtComError
      else .ok ((cString s).length + 1)
    | _ => .error oprtCjsonGetErr
  | .raw _ =>
    match json with
    | .null => .ok 0
    | .string s => .ok (tuyaBase64Decode (cString s)).length
    | _ => .error oprtCjsonGetErr

def storedRecord (r : KvRecord) : (json : Option Json) → Except OperateRet Nat
  | none => .ok r.len.toNat
  | some json =>
    match r with
    | .typed e => stored e json
    | .untyped _ _ => .error oprtComError

/-- The records that the loop of `kv_deserialize` writes, each with the number of bytes. -/
def storesLoop (root : Json) : List KvRecord → List (KvRecord × Nat)
  | [] => []
  | r :: db =>
    match storedRecord r (getObjectItem root r.key) with
    | .error _ => []
    | .ok n => (r, n) :: storesLoop root db

/-- The records that `kv_deserialize` writes. -/
def kvStores (strict : Bool) (text : Bytes) (db : List KvRecord) : List (KvRecord × Nat) :=
  match Json.parse strict text with
  | none => []
  | some root => storesLoop root db

/-- At most `len` bytes are written at `val`, for every record. -/
def Within (strict : Bool) (text : Bytes) (db : List KvRecord) : Prop :=
  ∀ w ∈ kvStores strict text db, w.2 ≤ w.1.len.toNat

/-! ### The condition -/

def inRange (json : Json) (lo hi : ℤ) : Bool :=
  match json with
  | .number mantissa exponent => lo ≤ valueint mantissa exponent ∧ valueint mantissa exponent ≤ hi
  | _ => false

def accepts (e : KvDb) (json : Json) : Bool :=
  match e.val with
  | .char _ => inRange json (-128) 127
  | .byte _ => inRange json 0 255
  | .short _ => inRange json (-32768) 32767
  | .ushort _ => inRange json 0 65535
  | .int _ => inRange json (-2147483648) 2147483647
  | .bool _ =>
    match json with
    | .bool _ => true
    | _ => false
  | .string _ =>
    match json with
    | .null => true
    | .string s => (cString s).length + 1 ≤ e.len.toNat
    | _ => false
  | .raw _ =>
    match json with
    | .null => true
    | .string _ => true
    | _ => false

def passes (root : Json) (r : KvRecord) : Bool :=
  match getObjectItem root r.key, r with
  | none, _ => true
  | some json, .typed e => accepts e json
  | some _, .untyped _ _ => false

def KvVal.size : KvVal → Nat
  | char _ => 1
  | byte _ => 1
  | short _ => 2
  | ushort _ => 2
  | int _ => 4
  | bool _ => 4
  | string _ => 0
  | raw _ => 0

/-- The length of a record covers what its member is stored as: the size of the type, one byte for a
string that is `null`, and what the text of raw bytes is decoded to. -/
def Fits (e : KvDb) (json : Json) : Prop :=
  match e.val with
  | .string _ => json = .null → 1 ≤ e.len.toNat
  | .raw _ => ∀ s, json = .string s → (tuyaBase64Decode (cString s)).length ≤ e.len.toNat
  | val => val.size ≤ e.len.toNat

/-- Every record that the loop gets past has a length that covers its member. -/
def AllFit (root : Json) (db : List KvRecord) : Prop :=
  ∀ e, .typed e ∈ db.takeWhile (passes root) →
    ∀ json, getObjectItem root e.key = some json → Fits e json

/-! ### One record -/

theorem storedInt_eq (json : Json) (lo hi : ℤ) (size : Nat) :
    (∃ rt, storedInt json lo hi size = .error rt ∧ inRange json lo hi = false) ∨
      (storedInt json lo hi size = .ok size ∧ inRange json lo hi = true) := by
  cases json with
  | number mantissa exponent =>
    rw [storedInt, inRange]
    by_cases h : valueint mantissa exponent < lo ∨ hi < valueint mantissa exponent
    · exact .inl ⟨_, if_pos h, decide_eq_false (by omega)⟩
    · exact .inr ⟨if_neg h, decide_eq_true (by omega)⟩
  | _ => exact .inl ⟨_, rfl, rfl⟩

/-- A member that does not pass the checks is an error, and one that passes is stored within the
length exactly when it fits. -/
theorem stored_spec (e : KvDb) (json : Json) :
    (∃ rt, stored e json = .error rt ∧ accepts e json = false) ∨
      ∃ n, stored e json = .ok n ∧ accepts e json = true ∧ (n ≤ e.len.toNat ↔ Fits e json) := by
  obtain ⟨key, val, len⟩ := e
  have hint {lo hi : ℤ} {size : Nat} (h : stored ⟨key, val, len⟩ json = storedInt json lo hi size)
      (h' : accepts ⟨key, val, len⟩ json = inRange json lo hi)
      (hfits : Fits ⟨key, val, len⟩ json ↔ size ≤ len.toNat) :
      (∃ rt, stored ⟨key, val, len⟩ json = .error rt ∧ accepts ⟨key, val, len⟩ json = false) ∨
        ∃ n, stored ⟨key, val, len⟩ json = .ok n ∧ accepts ⟨key, val, len⟩ json = true ∧
          (n ≤ len.toNat ↔ Fits ⟨key, val, len⟩ json) := by
    rw [h, h']
    rcases storedInt_eq json lo hi size with hs | ⟨hs, hr⟩
    · exact .inl hs
    · exact .inr ⟨size, hs, hr, hfits.symm⟩
  cases val with
  | bool b =>
    cases json with
    | bool b' => exact .inr ⟨4, rfl, rfl, Iff.rfl⟩
    | _ => exact .inl ⟨_, rfl, rfl⟩
  | string mem =>
    cases json with
    | null => exact .inr ⟨1, rfl, rfl, ⟨fun h _ => h, fun h => h rfl⟩⟩
    | string s =>
      by_cases hlen : len.toNat < (cString s).length + 1
      · exact .inl ⟨_, if_pos hlen, decide_eq_false (Nat.not_le.mpr hlen)⟩
      · exact .inr ⟨_, if_neg hlen, decide_eq_true (Nat.not_lt.mp hlen),
          ⟨fun _ h => (by cases h), fun _ => Nat.not_lt.mp hlen⟩⟩
    | _ => exact .inl ⟨_, rfl, rfl⟩
  | raw mem =>
    cases json with
    | null => exact .inr ⟨0, rfl, rfl, ⟨fun _ s h => (by cases h), fun _ => Nat.zero_le _⟩⟩
    | string s =>
      refine .inr ⟨_, rfl, rfl, ⟨fun h s' hs => ?_, fun h => h s rfl⟩⟩
      rw [← Json.string.inj hs]
      exact h
    | _ => exact .inl ⟨_, rfl, rfl⟩
  | char v => exact hint rfl rfl Iff.rfl
  | byte v => exact hint rfl rfl Iff.rfl
  | short v => exact hint rfl rfl Iff.rfl
  | ushort v => exact hint rfl rfl Iff.rfl
  | int v => exact hint rfl rfl Iff.rfl

/-! ### All records -/

theorem allFit_nil (root : Json) : AllFit root [] := fun _ h => by cases h

theorem allFit_of_not_passes {root : Json} {r : KvRecord} {db : List KvRecord}
    (h : passes root r = false) : AllFit root (r :: db) := by
  intro e he
  rw [List.takeWhile_cons, h] at he
  cases he

theorem allFit_cons {root : Json} {r : KvRecord} {db : List KvRecord} (h : passes root r = true) :
    AllFit root (r :: db) ↔
      (∀ e, r = .typed e → ∀ json, getObjectItem root e.key = some json → Fits e json) ∧
        AllFit root db := by
  simp only [AllFit, List.takeWhile_cons, h, if_true, List.mem_cons]
  constructor
  · exact fun hall => ⟨fun e he => hall e (.inl he.symm), fun e he => hall e (.inr he)⟩
  · rintro ⟨hhead, htail⟩ e (he | he)
    · exact hhead e he.symm
    · exact htail e he

theorem storesLoop_within_iff (root : Json) (db : List KvRecord) :
    (∀ w ∈ storesLoop root db, w.2 ≤ w.1.len.toNat) ↔ AllFit root db := by
  induction db with
  | nil => exact ⟨fun _ => allFit_nil root, fun _ _ h => by cases h⟩
  | cons r db ih =>
    cases hitem : getObjectItem root r.key with
    | none =>
      have hpass : passes root r = true := by simp [passes, hitem]
      have hhead : ∀ e, r = .typed e → ∀ json, getObjectItem root e.key = some json →
          Fits e json := by
        rintro e rfl json hjson
        rw [show getObjectItem root e.key = none from hitem] at hjson
        cases hjson
      rw [storesLoop, hitem, storedRecord, List.forall_mem_cons, ih, allFit_cons hpass]
      exact and_congr_left' (iff_of_true le_rfl hhead)
    | some json =>
      cases r with
      | untyped key len =>
        have hpass : passes root (.untyped key len) = false := by simp [passes, hitem]
        rw [storesLoop, hitem]
        exact iff_of_true (fun _ h => by cases h) (allFit_of_not_passes hpass)
      | typed e =>
        rcases stored_spec e json with ⟨rt, hstored, haccepts⟩ | ⟨n, hstored, haccepts, hfits⟩
        · have hpass : passes root (.typed e) = false := by simp [passes, hitem, haccepts]
          rw [storesLoop, hitem, storedRecord, hstored]
          exact iff_of_true (fun _ h => by cases h) (allFit_of_not_passes hpass)
        · have hpass : passes root (.typed e) = true := by simp [passes, hitem, haccepts]
          have hhead : (∀ e', KvRecord.typed e = .typed e' → ∀ json,
              getObjectItem root e'.key = some json → Fits e' json) ↔ Fits e json := by
            refine ⟨fun h => h e rfl json hitem, ?_⟩
            rintro h e' heq json' hjson
            obtain rfl := KvRecord.typed.inj heq
            rw [show getObjectItem root e.key = some json from hitem] at hjson
            exact Option.some.inj hjson ▸ h
          rw [storesLoop, hitem, storedRecord, hstored, List.forall_mem_cons, ih,
            allFit_cons hpass, hhead, ← hfits]
          rfl

/-- **The writes stay in the lengths** exactly when the length of every record that the loop gets
past covers what its member is stored as. -/
theorem kvStores_within_iff (strict : Bool) (text : Bytes) (db : List KvRecord) :
    Within strict text db ↔
      ∀ root, Json.parse strict text = some root → AllFit root db := by
  rw [Within, kvStores]
  cases Json.parse strict text with
  | none => exact iff_of_true (fun _ h => by cases h) (fun _ h => by cases h)
  | some root =>
    rw [storesLoop_within_iff]
    exact ⟨fun h root' hroot => Option.some.inj hroot ▸ h, fun h => h root rfl⟩

/-- Four digits are decoded to three bytes, and the record has one. -/
theorem not_within_raw :
    ¬ Within true ([0x7b, 0x22, 0x72, 0x22, 0x3a] ++ quoted (asciiBytes ['A', 'A', 'A', 'A']) ++
      [0x7d]) [.typed ⟨[0x72], .raw [0], 1⟩] := by
  have hstores : kvStores true ([0x7b, 0x22, 0x72, 0x22, 0x3a] ++
      quoted (asciiBytes ['A', 'A', 'A', 'A']) ++ [0x7d]) [.typed ⟨[0x72], .raw [0], 1⟩] =
        [(.typed ⟨[0x72], .raw [0], 1⟩, 3)] := by
    decide +kernel
  intro h
  have hle := h (.typed ⟨[0x72], .raw [0], 1⟩, 3) (by rw [hstores]; exact List.mem_cons_self)
  exact absurd hle (by decide)

/-! ### Faults -/

section Faults

variable {e : KvDb} {root : Json}

theorem clear_isSome (he : e.WellFormed) : (e.val.clear e.len.toNat).isSome = true := by
  obtain ⟨key, val, len⟩ := e
  cases val with
  | string mem =>
    have hlen : mem.length = len.toNat := (he.string mem rfl).2
    rw [KvVal.clear, memcpy_of_le (by rw [List.length_replicate, Nat.zero_add]; exact hlen.ge)]
    rfl
  | raw mem =>
    have hlen : mem.length = len.toNat := he.raw mem rfl
    rw [KvVal.clear, memcpy_of_le (by rw [List.length_replicate, Nat.zero_add]; exact hlen.ge)]
    rfl
  | _ => rfl

theorem restoreInt_of_storedInt (e : KvDb) (json : Json) (lo hi : ℤ) (size : Nat)
    (val : ℤ → KvVal) :
    (∃ rt, storedInt json lo hi size = .error rt ∧ restoreInt e json lo hi val = .error rt) ∨
      ∃ r, storedInt json lo hi size = .ok size ∧ restoreInt e json lo hi val = .ok r := by
  cases json with
  | number mantissa exponent =>
    rw [storedInt, restoreInt]
    by_cases h : valueint mantissa exponent < lo ∨ hi < valueint mantissa exponent
    · exact .inl ⟨_, if_pos h, if_pos h⟩
    · exact .inr ⟨_, if_neg h, if_neg h⟩
  | _ => exact .inl ⟨_, rfl, rfl⟩

/-- The result of the function that restores a value and the number of bytes that are stored: both
have the same error, or the bytes do not fit into the memory, or the value is restored. -/
def StoresLike (len : Nat) (stored : Except OperateRet Nat)
    (restored : Option (Except OperateRet (KvVal × UInt16))) : Prop :=
  (∃ rt, stored = .error rt ∧ restored = some (.error rt)) ∨
    (∃ n, stored = .ok n ∧ len < n ∧ restored = none) ∨
    ∃ n r, stored = .ok n ∧ n ≤ len ∧ restored = some (.ok r)

theorem storesLike_int (e : KvDb) (json : Json) (lo hi : ℤ) {size len : Nat} (val : ℤ → KvVal)
    (hle : size ≤ len) :
    StoresLike len (storedInt json lo hi size) (some (restoreInt e json lo hi val)) := by
  rcases restoreInt_of_storedInt e json lo hi size val with ⟨rt, hs, hr⟩ | ⟨r, hs, hr⟩
  · exact .inl ⟨rt, hs, congrArg some hr⟩
  · exact .inr (.inr ⟨size, r, hs, hle, congrArg some hr⟩)

theorem storesLike_memcpy {mem : Bytes} {len : Nat} (src : Bytes) (f : Bytes → KvVal × UInt16)
    (hmem : mem.length = len) :
    StoresLike len (.ok src.length) ((memcpy mem 0 src).map fun mem => .ok (f mem)) := by
  subst hmem
  by_cases hle : src.length ≤ mem.length
  · rw [memcpy_of_le (by omega)]
    exact .inr (.inr ⟨_, _, rfl, hle, rfl⟩)
  · rw [memcpy_eq_none (by omega)]
    exact .inr (.inl ⟨_, rfl, Nat.not_le.mp hle, rfl⟩)

theorem restore_of_stored (json : Json) (he : e.WellFormed) (hsize : e.val.size ≤ e.len.toNat) :
    StoresLike e.len.toNat (stored e json) (restore e json) := by
  obtain ⟨key, val, len⟩ := e
  cases val with
  | bool b =>
    cases json with
    | bool b' => exact .inr (.inr ⟨4, _, rfl, hsize, rfl⟩)
    | _ => exact .inl ⟨_, rfl, rfl⟩
  | string mem =>
    have hmem : mem.length = len.toNat := (he.string mem rfl).2
    cases json with
    | null => exact storesLike_memcpy [0] (fun mem => (.string mem, len)) hmem
    | string s =>
      by_cases hlen : len.toNat < (cString s).length + 1
      · exact .inl ⟨_, if_pos hlen, if_pos hlen⟩
      · have hcopy := storesLike_memcpy (cString s ++ [0]) (fun mem => (.string mem, len)) hmem
        rw [List.length_append, List.length_singleton] at hcopy
        rw [stored, restore_string, if_neg hlen, if_neg hlen]
        exact hcopy
    | _ => exact .inl ⟨_, rfl, rfl⟩
  | raw mem =>
    have hmem : mem.length = len.toNat := he.raw mem rfl
    cases json with
    | null => exact .inr (.inr ⟨0, _, rfl, Nat.zero_le _, rfl⟩)
    | string s => exact storesLike_memcpy _ _ hmem
    | _ => exact .inl ⟨_, rfl, rfl⟩
  | char v => exact storesLike_int _ json _ _ _ hsize
  | byte v => exact storesLike_int _ json _ _ _ hsize
  | short v => exact storesLike_int _ json _ _ _ hsize
  | ushort v => exact storesLike_int _ json _ _ _ hsize
  | int v => exact storesLike_int _ json _ _ _ hsize

theorem deserializeLoop_isSome_iff {db : List KvDb} (hdb : ∀ e ∈ db, e.WellFormed)
    (hsize : ∀ e ∈ db, e.val.size ≤ e.len.toNat) :
    (deserializeLoop root db).isSome = true ↔
      ∀ w ∈ storesLoop root (db.map .typed), w.2 ≤ w.1.len.toNat := by
  induction db with
  | nil => exact iff_of_true rfl fun _ h => by cases h
  | cons e db ih =>
    obtain ⟨he, hdb⟩ := List.forall_mem_cons.1 hdb
    obtain ⟨hlen, hsize⟩ := List.forall_mem_cons.1 hsize
    have ih := ih hdb hsize
    rw [List.map_cons, deserializeLoop, storesLoop]
    cases hitem : getObjectItem root e.key with
    | none =>
      obtain ⟨val, hval⟩ := Option.isSome_iff_exists.1 (clear_isSome he)
      rw [show getObjectItem root (KvRecord.typed e).key = none from hitem, storedRecord,
        List.forall_mem_cons, ← ih]
      dsimp only
      rw [hval, Option.bind_some, Option.isSome_map]
      exact (and_iff_right le_rfl).symm
    | some json =>
      rw [show getObjectItem root (KvRecord.typed e).key = some json from hitem, storedRecord]
      rcases restore_of_stored json he hlen with
        ⟨rt, hstored, hrestore⟩ | ⟨n, hstored, hlt, hrestore⟩ | ⟨n, r, hstored, hle, hrestore⟩
      · rw [hstored]
        dsimp only
        rw [hrestore]
        exact iff_of_true rfl fun _ h => by cases h
      · rw [hstored]
        dsimp only
        rw [hrestore]
        refine iff_of_false Bool.false_ne_true fun h => ?_
        exact absurd (h _ List.mem_cons_self) (Nat.not_le.mpr hlt)
      · rw [hstored, List.forall_mem_cons, ← ih]
        dsimp only
        rw [hrestore]
        dsimp only
        rw [Option.isSome_map]
        exact (and_iff_right hle).symm

/-- In records whose memory is as long as they say, `kv_deserialize` runs without a fault exactly
when its writes stay in the lengths. -/
theorem kvDeserialize_isSome_iff_within (strict : Bool) (text : Bytes) {db : List KvDb}
    (hdb : ∀ e ∈ db, e.WellFormed) (hsize : ∀ e ∈ db, e.val.size ≤ e.len.toNat) :
    (kvDeserialize strict text db).isSome = true ↔ Within strict text (db.map .typed) := by
  rw [kvDeserialize, Within, kvStores]
  cases Json.parse strict text with
  | none => exact iff_of_true rfl fun _ h => by cases h
  | some root => exact deserializeLoop_isSome_iff hdb hsize

end Faults

end TuyaOpen.Kv
