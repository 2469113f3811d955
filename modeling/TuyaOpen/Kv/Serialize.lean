import TuyaOpen.Basic.Json
import TuyaOpen.Common.OperateRet
import TuyaOpen.Utilities.Base64
import Mathlib.Data.List.Forall2

/-!
# Records as JSON texts

`kv_serialize` and `kv_deserialize` of `kv_serialize.c`: records with typed values are printed as
the members of a JSON object, and are read back with cJSON.

cJSON is a correct JSON parser. What it does with control characters that stand in a string without
an escape is a parameter, and so is whether `char` has a sign.

## Main results

* `length_kvText_lt`: the buffer is large enough.
* `parse_kvText`: the text of records is the text of an object.
* `restores_iff`: when records are read back.
-/

namespace TuyaOpen.Kv

open TuyaOpen.Utilities

/-! ### Records -/

/-- The memory of a value, with the type of the record. -/
inductive KvVal
  | char (v : UInt8)
  | byte (v : UInt8)
  | short (v : Int16)
  | ushort (v : UInt16)
  | int (v : Int32)
  | bool (v : Int32)
  | string (mem : Bytes)
  | raw (mem : Bytes)
  deriving DecidableEq

/-- `kv_db_t`, with a type that is one of the supported ones. -/
structure KvDb where
  key : Bytes
  val : KvVal
  len : UInt16
  deriving DecidableEq

/-! ### Printing -/

/-- The value of a `char`. -/
def charInt (charSigned : Bool) (v : UInt8) : ℤ :=
  if charSigned = true ∧ 128 ≤ v.toNat then v.toNat - 256 else v.toNat

def quoted (s : Bytes) : Bytes := 0x22 :: (s ++ [0x22])

/-- The text `null`. -/
def nullText : Bytes := asciiBytes ['n', 'u', 'l', 'l']

def valueText (charSigned : Bool) (e : KvDb) : Bytes :=
  match e.val with
  | .char v => Json.intText (charInt charSigned v)
  | .byte v => Json.intText v.toNat
  | .short v => Json.intText v.toInt
  | .ushort v => Json.intText v.toNat
  | .int v => Json.intText v.toInt
  | .bool v =>
    if v = 0 then asciiBytes ['f', 'a', 'l', 's', 'e'] else asciiBytes ['t', 'r', 'u', 'e']
  | .string mem => if mem.headD 0 = 0 then nullText else quoted (cString mem)
  | .raw mem =>
    if e.len = 0 then nullText else quoted (tuyaBase64Encode (mem.take e.len.toNat))

def entryText (charSigned : Bool) (e : KvDb) : Bytes :=
  quoted e.key ++ 0x3a :: valueText charSigned e

def valueLen (e : KvDb) : Nat :=
  match e.val with
  | .bool _ => 6 + 6
  | .string mem => if mem.headD 0 = 0 then e.len.toNat + 4 + 4 else e.len.toNat + 6
  | .raw _ =>
    e.len.toNat / 3 * 4 + (if e.len.toNat % 3 = 0 then 0 else 4) +
      if e.len = 0 then 4 + 4 else 6
  | _ => 11 + 6

def entryLen (e : KvDb) : Nat := valueLen e + (e.key.length + 2)

def bufLen (db : List KvDb) : Nat := (db.map entryLen).sum + 3

def kvText (charSigned : Bool) (db : List KvDb) : Bytes :=
  let buf := 0x7b :: db.flatMap fun e => entryText charSigned e ++ [0x2c]
  (if db = [] then buf else buf.dropLast ++ [0x20]) ++ [0x7d]

/-- `kv_serialize`: a fault, an error, or the text. -/
def kvSerialize (charSigned malloc : Bool) (db : List KvDb) : Option (Except OperateRet Bytes) :=
  if malloc = false then some (.error oprtMallocFailed)
  else if u32 (bufLen db) < (kvText charSigned db).length + 1 then none
  else some (.ok (kvText charSigned db))

/-! ### Reading -/

def toLower (b : UInt8) : UInt8 := if 65 ≤ b.toNat ∧ b.toNat ≤ 90 then b + 32 else b

/-- `cJSON_GetObjectItem`: the first member whose name is the key, but for upper and lower case. -/
def getObjectItem (root : Json) (key : Bytes) : Option Json :=
  match root with
  | .object members =>
    (members.find? fun m => (cString m.1).map toLower = key.map toLower).map Prod.snd
  | _ => none

/-- `valueint`: the integer part, or the nearest `int`. -/
def valueint (mantissa exponent : ℤ) : ℤ :=
  let v := if 0 ≤ exponent then mantissa * 10 ^ exponent.toNat
    else mantissa.tdiv (10 ^ (-exponent).toNat)
  max (-2147483648) (min 2147483647 v)

/-- The number `n` in memory, when its first `len` bytes have been set to zero. -/
def clearBytes (len n : Nat) : Nat := n / 256 ^ len * 256 ^ len

/-- A value when its first `len` bytes have been set to zero. -/
def KvVal.clear (len : Nat) : KvVal → Option KvVal
  | char v => some (char (UInt8.ofNat (clearBytes len v.toNat)))
  | byte v => some (byte (UInt8.ofNat (clearBytes len v.toNat)))
  | short v => some (short (UInt16.ofNat (clearBytes len v.toUInt16.toNat)).toInt16)
  | ushort v => some (ushort (UInt16.ofNat (clearBytes len v.toNat)))
  | int v => some (int (UInt32.ofNat (clearBytes len v.toUInt32.toNat)).toInt32)
  | bool v => some (bool (UInt32.ofNat (clearBytes len v.toUInt32.toNat)).toInt32)
  | string mem => (memcpy mem 0 (List.replicate len 0)).map string
  | raw mem => (memcpy mem 0 (List.replicate len 0)).map raw

def restoreInt (e : KvDb) (json : Json) (lo hi : ℤ) (val : ℤ → KvVal) :
    Except OperateRet (KvVal × UInt16) :=
  match json with
  | .number mantissa exponent =>
    let v := valueint mantissa exponent
    if v < lo ∨ hi < v then .error oprtComError else .ok (val v, e.len)
  | _ => .error oprtCjsonGetErr

/-- The value of a record and its length, from the member with its key: a fault, an error, or the
value and the length. -/
def restore (e : KvDb) (json : Json) : Option (Except OperateRet (KvVal × UInt16)) :=
  match e.val with
  | .char _ => some (restoreInt e json (-128) 127 fun v => .char (Int8.ofInt v).toUInt8)
  | .byte _ => some (restoreInt e json 0 255 fun v => .byte (UInt8.ofNat v.toNat))
  | .short _ => some (restoreInt e json (-32768) 32767 fun v => .short (Int16.ofInt v))
  | .ushort _ => some (restoreInt e json 0 65535 fun v => .ushort (UInt16.ofNat v.toNat))
  -- no check is made, and `valueint` is in the range
  | .int _ => some (restoreInt e json (-2147483648) 2147483647 fun v => .int (Int32.ofInt v))
  | .bool _ =>
    match json with
    | .bool b => some (.ok (.bool (if b then 1 else 0), e.len))
    | _ => some (.error oprtCjsonGetErr)
  | .string mem =>
    match json with
    | .null => (memcpy mem 0 [0]).map fun mem => .ok (.string mem, e.len)
    | .string s =>
      if e.len.toNat < (cString s).length + 1 then some (.error oprtComError)
      else (memcpy mem 0 (cString s ++ [0])).map fun mem => .ok (.string mem, e.len)
    | _ => some (.error oprtCjsonGetErr)
  | .raw mem =>
    match json with
    | .null => some (.ok (.raw mem, 0))
    | .string s =>
      (memcpy mem 0 (tuyaBase64Decode (cString s))).map fun mem => .ok (.raw mem, e.len)
    | _ => some (.error oprtCjsonGetErr)

/-- The loop of `kv_deserialize` over the records. -/
def deserializeLoop (root : Json) : List KvDb → Option (OperateRet × List KvDb)
  | [] => some (oprtOk, [])
  | e :: db =>
    match getObjectItem root e.key with
    | none =>
      (e.val.clear e.len.toNat).bind fun val =>
        (deserializeLoop root db).map fun r => (r.1, { e with val := val } :: r.2)
    | some json =>
      match restore e json with
      | none => none
      | some (.error rt) => some (rt, e :: db)
      | some (.ok (val, len)) =>
        (deserializeLoop root db).map fun r => (r.1, { e with val := val, len := len } :: r.2)

/-- `kv_deserialize`: a fault, or what it returns and the records. -/
def kvDeserialize (strict : Bool) (text : Bytes) (db : List KvDb) :
    Option (OperateRet × List KvDb) :=
  match Json.parse strict text with
  | none => some (oprtCjsonParseErr, db)
  | some root => deserializeLoop root db

/-! ### Round trips -/

/-- A record with a key that is a C string, and a value that fits into its length. -/
structure KvDb.WellFormed (e : KvDb) : Prop where
  key : 0 ∉ e.key
  string : ∀ mem, e.val = .string mem → 0 ∈ mem ∧ mem.length = e.len.toNat
  raw : ∀ mem, e.val = .raw mem → mem.length = e.len.toNat

def SameType : KvVal → KvVal → Prop
  | .char _, .char _ => True
  | .byte _, .byte _ => True
  | .short _, .short _ => True
  | .ushort _, .ushort _ => True
  | .int _, .int _ => True
  | .bool _, .bool _ => True
  | .string mem, .string mem' => mem'.length = mem.length
  | .raw mem, .raw mem' => mem'.length = mem.length
  | _, _ => False

def SameShape (e e' : KvDb) : Prop := e'.key = e.key ∧ e'.len = e.len ∧ SameType e.val e'.val

theorem SameShape.refl (e : KvDb) : SameShape e e := by
  obtain ⟨key, val, len⟩ := e
  refine ⟨rfl, rfl, ?_⟩
  cases val with
  | string mem => rfl
  | raw mem => rfl
  | _ => trivial

def SameValue (e e' : KvDb) : Prop :=
  e'.key = e.key ∧ e'.len = e.len ∧
    match e.val, e'.val with
    | .string mem, .string mem' => cString mem' = cString mem
    | .raw mem, .raw mem' => mem'.take e.len.toNat = mem.take e.len.toNat
    | v, v' => v' = v

/-- The records are written, and are read back into every array of the same keys, types and
lengths. -/
def Restores (charSigned strict : Bool) (db : List KvDb) : Prop :=
  ∃ text, kvSerialize charSigned true db = some (.ok text) ∧
    ∀ db', List.Forall₂ SameShape db db' →
      ∃ db'', kvDeserialize strict text db' = some (oprtOk, db'') ∧ List.Forall₂ SameValue db db''

def DistinctKeys (db : List KvDb) : Prop :=
  db.Pairwise fun e e' => e.key.map toLower ≠ e'.key.map toLower

def PlainKeys (strict : Bool) (db : List KvDb) : Prop :=
  ∀ e ∈ db, ∀ b ∈ e.key, Json.Plain strict b

/-- The condition on a value: a `char` is not above 127, a boolean is 0 or 1, and a string can be
printed without escapes. -/
def ValueOk (charSigned strict : Bool) (e : KvDb) : Prop :=
  match e.val with
  | .char v => charSigned = true ∨ v.toNat < 128
  | .bool v => v = 0 ∨ v = 1
  | .string mem => ∀ b ∈ cString mem, Json.Plain strict b
  | _ => True

def ValueParses (strict : Bool) (e : KvDb) : Prop :=
  ∀ mem, e.val = .string mem → ∀ b ∈ cString mem, Json.Plain strict b

/-! ### The buffer -/

theorem length_quoted (s : Bytes) : (quoted s).length = s.length + 2 := by
  rw [quoted, List.length_cons, List.length_append]
  rfl

theorem length_intText_le {v : ℤ} (h : v.natAbs < 10 ^ 10) : (Json.intText v).length ≤ 11 := by
  have hdecimal := length_decimal_le (by decide) h
  rw [Json.intText]
  split_ifs
  · rw [List.length_cons]
    omega
  · omega

def KvDb.Terminated (e : KvDb) : Prop := ∀ mem, e.val = .string mem → 0 ∈ mem.take e.len.toNat

theorem KvDb.WellFormed.terminated {e : KvDb} (he : e.WellFormed) : e.Terminated := by
  intro mem hval
  obtain ⟨hmem, hlen⟩ := he.string mem hval
  rwa [List.take_of_length_le hlen.le]

theorem length_cString_lt_of_mem_take {mem : Bytes} {n : Nat} (h : 0 ∈ mem.take n) :
    (cString mem).length < n := by
  have hlen := Json.length_cString_append_of_mem h (mem.drop n)
  rw [List.take_append_drop, List.length_take] at hlen
  omega

theorem length_valueText_le (charSigned : Bool) {e : KvDb} (he : e.Terminated) :
    (valueText charSigned e).length + 2 ≤ valueLen e := by
  obtain ⟨key, val, len⟩ := e
  have hint {v : ℤ} (h : v.natAbs < 10 ^ 10) : (Json.intText v).length + 2 ≤ 11 + 6 :=
    (Nat.add_le_add_right (length_intText_le h) 2).trans (by decide)
  rw [valueText, valueLen]
  cases val with
  | char v =>
    refine hint ?_
    have := v.toNat_lt
    rw [charInt]
    split_ifs
    · omega
    · omega
  | byte v => exact hint (by have := v.toNat_lt; omega)
  | short v => exact hint (by have := v.toInt_lt; have := v.le_toInt; omega)
  | ushort v => exact hint (by have := v.toNat_lt; omega)
  | int v => exact hint (by have := v.toInt_lt; have := v.le_toInt; omega)
  | bool v =>
    dsimp only
    split_ifs
    · decide
    · decide
  | string mem =>
    have hlt : (cString mem).length < len.toNat := length_cString_lt_of_mem_take (he mem rfl)
    dsimp only
    split_ifs
    · rw [nullText, length_asciiBytes, List.length_cons, List.length_cons, List.length_cons,
        List.length_singleton]
      omega
    · rw [length_quoted]
      omega
  | raw mem =>
    have hlen : (mem.take len.toNat).length ≤ len.toNat := List.length_take_le _ _
    dsimp only
    by_cases hzero : len = 0
    · rw [if_pos hzero, if_pos hzero, nullText, length_asciiBytes]
      simp only [List.length_cons, List.length_nil]
      omega
    · rw [if_neg hzero, if_neg hzero, length_quoted, tuyaBase64Encode, length_encode]
      split_ifs
      all_goals omega

theorem length_entryText_lt (charSigned : Bool) {e : KvDb} (he : e.Terminated) :
    (entryText charSigned e).length + 1 ≤ entryLen e := by
  have hvalue := length_valueText_le charSigned he
  rw [entryText, List.length_append, List.length_cons, length_quoted, entryLen]
  omega

theorem length_kvText_lt (charSigned : Bool) {db : List KvDb} (hdb : ∀ e ∈ db, e.WellFormed) :
    (kvText charSigned db).length + 1 ≤ bufLen db := by
  have hentries : (db.flatMap fun e => entryText charSigned e ++ [0x2c]).length ≤
      (db.map entryLen).sum := by
    induction db with
    | nil => exact le_rfl
    | cons e db ih =>
      obtain ⟨he, hdb⟩ := List.forall_mem_cons.1 hdb
      have hentry := length_entryText_lt charSigned he.terminated
      have hrest := ih hdb
      rw [List.flatMap_cons, List.map_cons, List.sum_cons, List.length_append, List.length_append,
        List.length_singleton]
      omega
  rw [kvText, bufLen]
  split_ifs with hnil
  · rw [List.length_append, List.length_cons, List.length_singleton]
    omega
  · rw [List.length_append, List.length_append, List.length_dropLast, List.length_cons,
      List.length_singleton, List.length_singleton]
    omega

/-! ### The text as JSON -/

def jsonOf (charSigned : Bool) (e : KvDb) : Json :=
  match e.val with
  | .char v => .number (charInt charSigned v) 0
  | .byte v => .number v.toNat 0
  | .short v => .number v.toInt 0
  | .ushort v => .number v.toNat 0
  | .int v => .number v.toInt 0
  | .bool v => .bool (v ≠ 0)
  | .string mem => if cString mem = [] then .null else .string (cString mem)
  | .raw mem => if e.len = 0 then .null else .string (tuyaBase64Encode (mem.take e.len.toNat))

theorem headD_eq_zero_iff (mem : Bytes) : mem.headD 0 = 0 ↔ cString mem = [] := by
  cases mem with
  | nil => exact iff_of_true rfl rfl
  | cons b mem =>
    rw [cString, List.takeWhile_cons]
    by_cases hb : b = 0
    · simp [hb]
    · simp [hb]

section Parsing

variable {charSigned strict : Bool} {fuel : Nat} {rest : Bytes} {e : KvDb}

theorem plain_encode (bindata : Bytes) : ∀ b ∈ tuyaBase64Encode bindata, Json.Plain strict b := by
  intro b hb
  obtain ⟨hle, hslash⟩ := mem_encode b hb
  refine ⟨?_, hslash, fun _ => by omega⟩
  rintro rfl
  exact absurd hle (by decide)

theorem parseValue_quoted {s : Bytes} (hs : ∀ b ∈ s, Json.Plain strict b) :
    Json.parseValue strict (fuel + 1) (quoted s ++ rest) = some (.string s, rest) := by
  rw [quoted, List.cons_append, List.append_assoc, Json.parseValue_string]
  exact congrArg _ (Json.parseString_plain hs)

theorem parseValue_valueText (he : ValueParses strict e) (hrest : Json.EndsNumber rest) :
    Json.parseValue strict (fuel + 1) (valueText charSigned e ++ rest) =
      some (jsonOf charSigned e, rest) := by
  obtain ⟨key, val, len⟩ := e
  rw [valueText, jsonOf]
  cases val with
  | char v => exact Json.parseValue_intText _ hrest
  | byte v => exact Json.parseValue_intText _ hrest
  | short v => exact Json.parseValue_intText _ hrest
  | ushort v => exact Json.parseValue_intText _ hrest
  | int v => exact Json.parseValue_intText _ hrest
  | bool v =>
    dsimp only
    by_cases hv : v = 0
    · rw [if_pos hv, decide_eq_false (not_not.2 hv)]
      exact Json.parseValue_false
    · rw [if_neg hv, decide_eq_true hv]
      exact Json.parseValue_true
  | string mem =>
    dsimp only
    by_cases hmem : cString mem = []
    · rw [if_pos ((headD_eq_zero_iff mem).2 hmem), if_pos hmem]
      exact Json.parseValue_null
    · rw [if_neg fun h => hmem ((headD_eq_zero_iff mem).1 h), if_neg hmem]
      exact parseValue_quoted (he mem rfl)
  | raw mem =>
    dsimp only
    split_ifs with hlen
    · exact Json.parseValue_null
    · exact parseValue_quoted (plain_encode _)

def membersText (charSigned : Bool) : KvDb → List KvDb → Bytes
  | e, [] => entryText charSigned e ++ [0x20, 0x7d]
  | e, e' :: db => entryText charSigned e ++ 0x2c :: membersText charSigned e' db

theorem kvText_cons (e : KvDb) (db : List KvDb) :
    kvText charSigned (e :: db) = 0x7b :: membersText charSigned e db := by
  have hflat : ((e :: db).flatMap fun e => entryText charSigned e ++ [0x2c]).dropLast ++
      [0x20, 0x7d] = membersText charSigned e db := by
    induction db generalizing e with
    | nil =>
      rw [List.flatMap_cons, List.flatMap_nil, List.append_nil, List.dropLast_concat]
      rfl
    | cons e' db ih =>
      rw [List.flatMap_cons, List.dropLast_append_of_ne_nil (by simp), List.append_assoc, ih e',
        membersText, List.append_assoc]
      rfl
  rw [kvText, if_neg (by simp), List.dropLast_cons_of_ne_nil (by simp), List.cons_append,
    List.cons_append, List.append_assoc]
  exact congrArg _ hflat

def memberOf (charSigned : Bool) (e : KvDb) : Bytes × Json := (e.key, jsonOf charSigned e)

theorem parseMembers_entryText (hkey : ∀ b ∈ e.key, Json.Plain strict b) (rest : Bytes) :
    Json.parseMembers strict (fuel + 1) (entryText charSigned e ++ rest) =
      (Json.parseValue strict fuel (valueText charSigned e ++ rest)).bind fun v =>
        match Json.expect 0x7d (Json.skipWs v.2) with
        | some bs => some ([(e.key, v.1)], bs)
        | none =>
          (Json.expect 0x2c (Json.skipWs v.2)).bind fun bs =>
            (Json.parseMembers strict fuel bs).map fun r => ((e.key, v.1) :: r.1, r.2) := by
  have htext : entryText charSigned e ++ rest =
      0x22 :: (e.key ++ 0x22 :: 0x3a :: (valueText charSigned e ++ rest)) := by
    rw [entryText, quoted, List.append_assoc, List.cons_append, List.append_assoc]
    rfl
  rw [htext]
  exact Json.parseMembers_name hkey _

theorem endsNumber_close : Json.EndsNumber [0x20, 0x7d] := by
  rintro b ⟨⟩
  decide

theorem endsNumber_comma (bs : Bytes) : Json.EndsNumber (0x2c :: bs) := by
  rintro b ⟨⟩
  decide

theorem parseMembers_last (hkey : ∀ b ∈ e.key, Json.Plain strict b) (he : ValueParses strict e) :
    Json.parseMembers strict (fuel + 2) (membersText charSigned e []) =
      some ([memberOf charSigned e], []) := by
  rw [membersText, parseMembers_entryText hkey, parseValue_valueText he endsNumber_close]
  rfl

theorem parseMembers_cons (hkey : ∀ b ∈ e.key, Json.Plain strict b) (he : ValueParses strict e)
    (e' : KvDb) (db : List KvDb) :
    Json.parseMembers strict (fuel + 2) (membersText charSigned e (e' :: db)) =
      (Json.parseMembers strict (fuel + 1) (membersText charSigned e' db)).map fun r =>
        (memberOf charSigned e :: r.1, r.2) := by
  rw [membersText, parseMembers_entryText hkey, parseValue_valueText he (endsNumber_comma _)]
  rfl

theorem parseMembers_membersText {db : List KvDb} (hkeys : PlainKeys strict (e :: db))
    (hdb : ∀ e' ∈ e :: db, ValueParses strict e') (hfuel : db.length + 1 < fuel) :
    Json.parseMembers strict fuel (membersText charSigned e db) =
      some ((e :: db).map (memberOf charSigned), []) := by
  induction db generalizing e fuel with
  | nil =>
    obtain ⟨k, rfl⟩ := Nat.exists_eq_add_of_le' (show 2 ≤ fuel from hfuel)
    exact parseMembers_last (hkeys e List.mem_cons_self) (hdb e List.mem_cons_self)
  | cons e' db ih =>
    obtain ⟨hkey, hkeys⟩ := List.forall_mem_cons.1 hkeys
    obtain ⟨he, hdb⟩ := List.forall_mem_cons.1 hdb
    rw [List.length_cons] at hfuel
    obtain ⟨k, rfl⟩ := Nat.exists_eq_add_of_le' (show 2 ≤ fuel by omega)
    rw [parseMembers_cons hkey he, ih hkeys hdb (by omega)]
    rfl

theorem length_lt_length_membersText (e : KvDb) (db : List KvDb) :
    db.length + 1 < (membersText charSigned e db).length := by
  induction db generalizing e with
  | nil =>
    rw [membersText, List.length_append]
    exact Nat.lt_add_left _ (by decide)
  | cons e' db ih =>
    have := ih e'
    rw [membersText, List.length_append, List.length_cons, entryText, List.length_append,
      List.length_cons, List.length_cons]
    omega

theorem exists_membersText_eq_cons (e : KvDb) (db : List KvDb) :
    ∃ bs, membersText charSigned e db = 0x22 :: bs := by
  cases db with
  | nil => exact ⟨_, rfl⟩
  | cons e' db => exact ⟨_, rfl⟩

theorem parse_kvText_cons (e : KvDb) (db : List KvDb) :
    Json.parse strict (kvText charSigned (e :: db)) =
      (Json.parseMembers strict ((membersText charSigned e db).length + 1)
        (membersText charSigned e db)).map fun r => .object r.1 := by
  obtain ⟨bs, hbs⟩ := @exists_membersText_eq_cons charSigned e db
  rw [kvText_cons, Json.parse, List.length_cons, hbs, Json.parseValue_members, Option.map_map]
  rfl

theorem parse_kvText (charSigned : Bool) {db : List KvDb} (hkeys : PlainKeys strict db)
    (hdb : ∀ e ∈ db, ValueParses strict e) :
    Json.parse strict (kvText charSigned db) =
      some (.object (db.map (memberOf charSigned))) := by
  cases db with
  | nil => rfl
  | cons e db =>
    have hlen := @length_lt_length_membersText charSigned e db
    rw [parse_kvText_cons, parseMembers_membersText hkeys hdb (by omega)]
    rfl

/-! ### A string that cannot be read -/

theorem parseChars_end (fuel : Nat) :
    Json.parseChars strict fuel [0x20, 0x7d] = none := by
  match fuel with
  | 0 => rfl
  | 1 => cases strict <;> rfl
  | 2 => cases strict <;> rfl
  | fuel + 3 => cases strict <;> rfl

theorem exists_membersText_eq (e : KvDb) (db : List KvDb) :
    ∃ rest, membersText charSigned e db = entryText charSigned e ++ rest ∧
      ∀ fuel r, Json.parseChars strict fuel rest = some r → r.1 = [0x2c] := by
  cases db with
  | nil =>
    refine ⟨[0x20, 0x7d], rfl, fun fuel r h => ?_⟩
    rw [parseChars_end] at h
    cases h
  | cons e' db =>
    obtain ⟨bs, hbs⟩ := @exists_membersText_eq_cons charSigned e' db
    refine ⟨0x2c :: membersText charSigned e' db, rfl, ?_⟩
    rw [hbs]
    exact Json.parseChars_after bs

theorem exists_of_parseMembers_string {mem : Bytes} (hval : e.val = .string mem)
    (hmem : ¬∀ b ∈ cString mem, Json.Plain strict b) (hkey : ∀ b ∈ e.key, Json.Plain strict b)
    {db : List KvDb} {r : List (Bytes × Json) × Bytes}
    (h : Json.parseMembers strict fuel (membersText charSigned e db) = some r) :
    ∃ d more, r.1 = (e.key, .string d) :: more ∧ cString d ≠ cString mem := by
  obtain ⟨rest, htext, hrest⟩ := @exists_membersText_eq charSigned strict e db
  have hvalue : valueText charSigned e = quoted (cString mem) := by
    have hne : cString mem ≠ [] := fun hnil => hmem (hnil ▸ fun _ h => by cases h)
    rw [valueText, hval]
    exact if_neg fun h => hne ((headD_eq_zero_iff mem).1 h)
  have hmembers : membersText charSigned e db =
      0x22 :: (e.key ++ 0x22 :: 0x3a :: 0x22 :: (cString mem ++ 0x22 :: rest)) := by
    rw [htext, entryText, hvalue]
    simp [quoted]
  rw [hmembers] at h
  exact Json.exists_of_parseMembers_ne hkey hmem hrest h

theorem exists_of_not_valueParses (h : ¬ValueParses strict e) :
    ∃ mem, e.val = .string mem ∧ ¬∀ b ∈ cString mem, Json.Plain strict b := by
  simpa only [ValueParses, not_forall, exists_prop] using h

theorem exists_of_parseMembers {db : List KvDb} (hkeys : PlainKeys strict (e :: db))
    (hbad : ¬∀ e' ∈ e :: db, ValueParses strict e') {r : List (Bytes × Json) × Bytes}
    (h : Json.parseMembers strict fuel (membersText charSigned e db) = some r) :
    ∃ pre e₁ post mem d more, e :: db = pre ++ e₁ :: post ∧ e₁.val = .string mem ∧
      r.1 = pre.map (memberOf charSigned) ++ (e₁.key, .string d) :: more ∧
      cString d ≠ cString mem := by
  induction db generalizing e fuel r with
  | nil =>
    have he : ¬ValueParses strict e := fun he => hbad fun e' he' => by
      rw [List.mem_singleton.1 he']
      exact he
    obtain ⟨mem, hval, hmem⟩ := exists_of_not_valueParses he
    obtain ⟨d, more, hr, hne⟩ :=
      exists_of_parseMembers_string hval hmem (hkeys e List.mem_cons_self) h
    exact ⟨[], e, [], mem, d, more, rfl, hval, hr, hne⟩
  | cons e' db ih =>
    obtain ⟨hkey, hkeys⟩ := List.forall_mem_cons.1 hkeys
    by_cases he : ValueParses strict e
    · have hbad' : ¬∀ e₂ ∈ e' :: db, ValueParses strict e₂ :=
        fun hall => hbad (List.forall_mem_cons.2 ⟨he, hall⟩)
      match fuel, h with
      | 0, h => cases h
      | 1, h =>
        rw [membersText, parseMembers_entryText hkey] at h
        cases h
      | fuel + 2, h =>
        rw [parseMembers_cons hkey he] at h
        obtain ⟨r', hr', rfl⟩ := Option.map_eq_some_iff.1 h
        obtain ⟨pre, e₁, post, mem, d, more, heq, hval, hr, hne⟩ := ih hkeys hbad' hr'
        refine ⟨e :: pre, e₁, post, mem, d, more, congrArg (e :: ·) heq, hval, ?_, hne⟩
        exact congrArg (memberOf charSigned e :: ·) hr
    · obtain ⟨mem, hval, hmem⟩ := exists_of_not_valueParses he
      obtain ⟨d, more, hr, hne⟩ := exists_of_parseMembers_string hval hmem hkey h
      exact ⟨[], e, e' :: db, mem, d, more, rfl, hval, hr, hne⟩

end Parsing

/-! ### Members -/

theorem getObjectItem_append {charSigned : Bool} {pre post : List KvDb} {e : KvDb}
    (hdistinct : DistinctKeys (pre ++ e :: post)) (hdb : ∀ e' ∈ pre ++ e :: post, e'.WellFormed)
    (json : Json) (more : List (Bytes × Json)) :
    getObjectItem (.object (pre.map (memberOf charSigned) ++ (e.key, json) :: more)) e.key =
      some json := by
  have hself : e ∈ pre ++ e :: post := List.mem_append_right _ List.mem_cons_self
  have hpre : (pre.map (memberOf charSigned)).find?
      (fun m => (cString m.1).map toLower = e.key.map toLower) = none := by
    rw [List.find?_eq_none]
    intro m hm
    obtain ⟨e', he', rfl⟩ := List.mem_map.1 hm
    have hne := (List.pairwise_append.1 hdistinct).2.2 e' he' e List.mem_cons_self
    rw [decide_eq_true_iff, memberOf, cString_of_notMem (hdb e' (List.mem_append_left _ he')).key]
    exact hne
  rw [getObjectItem, List.find?_append, hpre, Option.none_or, List.find?_cons_of_pos]
  · rfl
  · rw [decide_eq_true_iff, cString_of_notMem (hdb e hself).key]

/-! ### Values -/

theorem valueint_of_range {v : ℤ} (h : -2147483648 ≤ v ∧ v ≤ 2147483647) : valueint v 0 = v := by
  rw [valueint, if_pos le_rfl, Int.toNat_zero, pow_zero, mul_one]
  omega

theorem restoreInt_number (t : KvDb) {v lo hi : ℤ} (val : ℤ → KvVal) (hlo : lo ≤ v) (hhi : v ≤ hi)
    (hrange : -2147483648 ≤ v ∧ v ≤ 2147483647) :
    restoreInt t (.number v 0) lo hi val = .ok (val v, t.len) := by
  rw [restoreInt, valueint_of_range hrange]
  exact if_neg (not_or.2 ⟨not_lt.2 hlo, not_lt.2 hhi⟩)

theorem exists_memcpy_cString {s mem : Bytes} (hs : 0 ∉ s) (hlen : s.length + 1 ≤ mem.length) :
    ∃ mem', memcpy mem 0 (s ++ [0]) = some mem' ∧ cString mem' = s := by
  have hle : 0 + (s ++ [0]).length ≤ mem.length := by
    rw [List.length_append, List.length_singleton]
    omega
  refine ⟨_, memcpy_of_le hle, ?_⟩
  rw [List.take_zero, List.nil_append, List.append_assoc]
  exact cString_append_zero hs _

theorem memcpy_of_length_eq {s mem : Bytes} (hlen : s.length = mem.length) :
    memcpy mem 0 s = some s := by
  rw [memcpy_of_le (by omega), List.take_zero, List.nil_append, Nat.zero_add, hlen,
    List.drop_length, List.append_nil]

theorem charInt_of_ok {charSigned : Bool} {v : UInt8} (h : charSigned = true ∨ v.toNat < 128) :
    -128 ≤ charInt charSigned v ∧ charInt charSigned v ≤ 127 ∧
      (Int8.ofInt (charInt charSigned v)).toUInt8 = v := by
  have hv := v.toNat_lt
  have hbyte {x : ℤ} (hx : x % 256 = v.toNat) : (Int8.ofInt x).toUInt8 = v := by
    apply UInt8.toNat_inj.1
    show (BitVec.ofInt 8 x).toNat = v.toNat
    rw [BitVec.toNat_ofInt]
    show (x % 256).toNat = v.toNat
    rw [hx, Int.toNat_natCast]
  rw [charInt]
  split_ifs with hsign
  · exact ⟨by omega, by omega, hbyte (by omega)⟩
  · have hlt : v.toNat < 128 := by
      rcases h with hc | hlt
      · exact not_le.1 fun hle => hsign ⟨hc, hle⟩
      · exact hlt
    exact ⟨by omega, by omega, hbyte (by omega)⟩

section Values

variable {charSigned strict : Bool} {e t : KvDb}

theorem restore_string_null (key mem : Bytes) (len : UInt16) :
    restore ⟨key, .string mem, len⟩ .null =
      (memcpy mem 0 [0]).map fun mem => .ok (.string mem, len) := rfl

theorem restore_string (key mem : Bytes) (len : UInt16) (s : Bytes) :
    restore ⟨key, .string mem, len⟩ (.string s) =
      if len.toNat < (cString s).length + 1 then some (.error oprtComError)
      else (memcpy mem 0 (cString s ++ [0])).map fun mem => .ok (.string mem, len) := rfl

theorem restore_raw (key mem : Bytes) (len : UInt16) (s : Bytes) :
    restore ⟨key, .raw mem, len⟩ (.string s) =
      (memcpy mem 0 (tuyaBase64Decode (cString s))).map fun mem => .ok (.raw mem, len) := rfl

theorem exists_restore_string (key : Bytes) {mem mem' : Bytes} {len : UInt16}
    (hlt : (cString mem).length < mem'.length) (hlen : mem'.length = len.toNat) :
    ∃ mem'', restore ⟨key, .string mem', len⟩ (jsonOf charSigned ⟨key, .string mem, len⟩) =
        some (.ok (.string mem'', len)) ∧ cString mem'' = cString mem := by
  obtain ⟨mem'', hcopy, hstring⟩ :=
    exists_memcpy_cString (zero_notMem_cString mem) (Nat.succ_le_of_lt hlt)
  refine ⟨mem'', ?_, hstring⟩
  rw [jsonOf]
  dsimp only
  split_ifs with hnil
  · rw [hnil, List.nil_append] at hcopy
    rw [restore_string_null, hcopy]
    rfl
  · rw [restore_string, cString_of_notMem (zero_notMem_cString mem), if_neg (by omega), hcopy]
    rfl

theorem exists_restore_raw {key mem mem' : Bytes} {len : UInt16} (hlen : mem.length = len.toNat)
    (hlen' : mem'.length = mem.length) :
    ∃ v len', restore ⟨key, .raw mem', len⟩ (jsonOf charSigned ⟨key, .raw mem, len⟩) =
        some (.ok (v, len')) ∧
      SameValue ⟨key, .raw mem, len⟩ ⟨key, v, len'⟩ := by
  rw [jsonOf]
  dsimp only
  split_ifs with hzero
  · refine ⟨.raw mem', 0, rfl, rfl, hzero.symm, ?_⟩
    rw [hzero]
    rfl
  · have htext : 0 ∉ tuyaBase64Encode (mem.take len.toNat) :=
      fun hmem => absurd (mem_encode 0 hmem).1 (by decide)
    refine ⟨.raw mem, len, ?_, rfl, rfl, rfl⟩
    rw [restore_raw, cString_of_notMem htext, tuyaBase64Decode_encode,
      List.take_of_length_le hlen.le, memcpy_of_length_eq hlen'.symm]
    rfl

theorem exists_restore_eq (he : e.WellFormed) (hok : ValueOk charSigned strict e)
    (hshape : SameShape e t) :
    ∃ v len, restore t (jsonOf charSigned e) = some (.ok (v, len)) ∧
      SameValue e { t with val := v, len := len } := by
  obtain ⟨key, val, len⟩ := e
  obtain ⟨tkey, tval, tlen⟩ := t
  obtain ⟨hkey, hlen, htype⟩ := hshape
  dsimp only at hkey hlen htype
  subst hkey hlen
  cases val with
  | char v =>
    cases tval with
    | char w =>
      obtain ⟨hlo, hhi, hbyte⟩ := charInt_of_ok hok
      refine ⟨_, _, congrArg some (restoreInt_number _ _ hlo hhi (by omega)), rfl, rfl, ?_⟩
      exact congrArg KvVal.char hbyte
    | _ => exact htype.elim
  | byte v =>
    cases tval with
    | byte w =>
      have hv := v.toNat_lt
      refine ⟨_, _, congrArg some (restoreInt_number _ _ (by omega) (by omega) (by omega)), ?_⟩
      exact ⟨rfl, rfl, by simp⟩
    | _ => exact htype.elim
  | short v =>
    cases tval with
    | short w =>
      have hv := v.toInt_lt
      have hv' := v.le_toInt
      refine ⟨_, _, congrArg some (restoreInt_number _ _ (by omega) (by omega) (by omega)), ?_⟩
      exact ⟨rfl, rfl, by simp⟩
    | _ => exact htype.elim
  | ushort v =>
    cases tval with
    | ushort w =>
      have hv := v.toNat_lt
      refine ⟨_, _, congrArg some (restoreInt_number _ _ (by omega) (by omega) (by omega)), ?_⟩
      exact ⟨rfl, rfl, by simp⟩
    | _ => exact htype.elim
  | int v =>
    cases tval with
    | int w =>
      have hv := v.toInt_lt
      have hv' := v.le_toInt
      refine ⟨_, _, congrArg some (restoreInt_number _ _ (by omega) (by omega) (by omega)), ?_⟩
      exact ⟨rfl, rfl, by simp⟩
    | _ => exact htype.elim
  | bool v =>
    cases tval with
    | bool w =>
      refine ⟨_, _, rfl, rfl, rfl, ?_⟩
      rcases (hok : v = 0 ∨ v = 1) with rfl | rfl
      · rfl
      · rfl
    | _ => exact htype.elim
  | string mem =>
    cases tval with
    | string mem' =>
      obtain ⟨hmem, hlen⟩ := he.string mem rfl
      have hlt := length_cString_lt hmem
      have hlen' : mem'.length = mem.length := htype
      obtain ⟨mem'', heq, hstring⟩ :=
        exists_restore_string tkey (by rwa [hlen']) (hlen'.trans hlen)
      exact ⟨.string mem'', tlen, heq, rfl, rfl, hstring⟩
    | _ => exact htype.elim
  | raw mem =>
    cases tval with
    | raw mem' =>
      have hlen : mem.length = tlen.toNat := he.raw mem rfl
      exact exists_restore_raw hlen htype
    | _ => exact htype.elim

theorem valueOk_of_restore (hparses : ValueParses strict e) {v : KvVal} {len : UInt16}
    (h : restore e (jsonOf charSigned e) = some (.ok (v, len)))
    (hsame : SameValue e { e with val := v, len := len }) : ValueOk charSigned strict e := by
  obtain ⟨key, val, elen⟩ := e
  cases val with
  | char c =>
    by_contra hok
    obtain ⟨hsigned, hc⟩ := not_or.1 (show ¬(charSigned = true ∨ c.toNat < 128) from hok)
    have hlt := c.toNat_lt
    have hint : charInt charSigned c = c.toNat := if_neg fun hc => hsigned hc.1
    have hnumber : restoreInt ⟨key, .char c, elen⟩ (.number (charInt charSigned c) 0) (-128) 127
        (fun v => .char (Int8.ofInt v).toUInt8) = .error oprtComError := by
      rw [restoreInt, valueint_of_range (by omega)]
      exact if_pos (.inr (by omega))
    have hrestore : restore ⟨key, .char c, elen⟩ (jsonOf charSigned ⟨key, .char c, elen⟩) =
        some (.error oprtComError) := congrArg some hnumber
    rw [hrestore] at h
    cases h
  | bool b =>
    have hv : (some (.ok (.bool (if decide (b ≠ 0) then 1 else 0), elen)) :
        Option (Except OperateRet (KvVal × UInt16))) = some (.ok (v, len)) := h
    obtain ⟨rfl, rfl⟩ := Prod.mk.inj (Except.ok.inj (Option.some.inj hv))
    have hb : KvVal.bool (if decide (b ≠ 0) then 1 else 0) = .bool b := hsame.2.2
    by_cases hzero : b = 0
    · exact .inl hzero
    · rw [decide_eq_true hzero, if_pos rfl] at hb
      exact .inr (KvVal.bool.inj hb).symm
  | string mem => exact hparses mem rfl
  | byte _ => trivial
  | short _ => trivial
  | ushort _ => trivial
  | int _ => trivial
  | raw _ => trivial

theorem not_sameValue_of_restore {mem d : Bytes} (hval : e.val = .string mem)
    (hd : cString d ≠ cString mem) {v : KvVal} {len : UInt16}
    (h : restore e (.string d) = some (.ok (v, len))) :
    ¬SameValue e { e with val := v, len := len } := by
  obtain ⟨key, val, elen⟩ := e
  obtain rfl : val = .string mem := hval
  rw [restore_string] at h
  split_ifs at h with hlen
  · cases h
  obtain ⟨mem', hcopy, heq⟩ := Option.map_eq_some_iff.1 h
  obtain ⟨rfl, rfl⟩ := Prod.mk.inj (Except.ok.inj heq)
  intro hsame
  have hstring : cString mem' = cString mem := hsame.2.2
  have hle : (cString d).length + 1 ≤ mem.length := by
    by_contra hlt
    rw [memcpy_eq_none (by rw [List.length_append, List.length_singleton]; omega)] at hcopy
    cases hcopy
  obtain ⟨mem'', hcopy', hd'⟩ := exists_memcpy_cString (zero_notMem_cString d) hle
  rw [hcopy] at hcopy'
  obtain rfl := Option.some.inj hcopy'
  exact hd (hd'.symm.trans hstring)

theorem restoreInt_error_ne_ok {json : Json} {lo hi : ℤ} {val : ℤ → KvVal} {rt : OperateRet}
    (h : restoreInt t json lo hi val = .error rt) : rt ≠ oprtOk := by
  cases json with
  | number mantissa exponent =>
    rw [restoreInt] at h
    split_ifs at h
    rw [← Except.error.inj h]
    exact oprtComError_ne_ok
  | _ =>
    rw [← Except.error.inj h]
    exact oprtCjsonGetErr_ne_ok

theorem map_ok_ne_error {o : Option Bytes} {f : Bytes → KvVal × UInt16} {rt : OperateRet}
    (h : (o.map fun mem => Except.ok (f mem)) = some (.error rt)) : False := by
  obtain ⟨mem, -, hmem⟩ := Option.map_eq_some_iff.1 h
  cases hmem

theorem restore_error_ne_ok {json : Json} {rt : OperateRet}
    (h : restore t json = some (.error rt)) : rt ≠ oprtOk := by
  obtain ⟨key, val, len⟩ := t
  have hget (h : (some (.error oprtCjsonGetErr) : Option (Except OperateRet (KvVal × UInt16))) =
      some (.error rt)) : rt ≠ oprtOk := by
    rw [← Except.error.inj (Option.some.inj h)]
    exact oprtCjsonGetErr_ne_ok
  cases val with
  | bool b =>
    cases json with
    | bool b' => cases h
    | _ => exact hget h
  | string mem =>
    cases json with
    | null => exact (map_ok_ne_error h).elim
    | string s =>
      rw [restore_string] at h
      split_ifs at h
      · rw [← Except.error.inj (Option.some.inj h)]
        exact oprtComError_ne_ok
      · exact (map_ok_ne_error h).elim
    | _ => exact hget h
  | raw mem =>
    cases json with
    | null => cases h
    | string s => exact (map_ok_ne_error h).elim
    | _ => exact hget h
  | _ => exact restoreInt_error_ne_ok (Option.some.inj h)

end Values

/-! ### Records -/

section Records

variable {charSigned strict : Bool} {db : List KvDb} {root : Json}

theorem deserializeLoop_of_restore {db' : List KvDb}
    (h : List.Forall₂ (fun e t => ∃ json v len, getObjectItem root t.key = some json ∧
      restore t json = some (.ok (v, len)) ∧ SameValue e { t with val := v, len := len }) db db') :
    ∃ db'', deserializeLoop root db' = some (oprtOk, db'') ∧ List.Forall₂ SameValue db db'' := by
  induction h with
  | nil => exact ⟨[], rfl, List.Forall₂.nil⟩
  | cons he _ ih =>
    obtain ⟨json, v, len, hitem, hrestore, hsame⟩ := he
    obtain ⟨db'', hloop, hdb⟩ := ih
    refine ⟨_, ?_, List.Forall₂.cons hsame hdb⟩
    rw [deserializeLoop, hitem]
    dsimp only
    rw [hrestore]
    dsimp only
    rw [hloop]
    rfl

theorem forall₂_of_deserializeLoop {db' db'' : List KvDb}
    (h : deserializeLoop root db' = some (oprtOk, db'')) :
    List.Forall₂ (fun t t' => ∀ json, getObjectItem root t.key = some json →
      ∃ v len, restore t json = some (.ok (v, len)) ∧ t' = { t with val := v, len := len })
      db' db'' := by
  induction db' generalizing db'' with
  | nil =>
    cases h
    exact List.Forall₂.nil
  | cons t db' ih =>
    rw [deserializeLoop] at h
    cases hitem : getObjectItem root t.key with
    | none =>
      rw [hitem] at h
      obtain ⟨val, -, h⟩ := Option.bind_eq_some_iff.1 h
      obtain ⟨r, hr, heq⟩ := Option.map_eq_some_iff.1 h
      obtain ⟨hrt, rfl⟩ := Prod.mk.inj heq
      refine List.Forall₂.cons (fun json hjson => ?_) (ih (hr.trans ?_))
      · rw [hitem] at hjson
        cases hjson
      · rw [← hrt]
    | some json =>
      rw [hitem] at h
      dsimp only at h
      cases hrestore : restore t json with
      | none =>
        rw [hrestore] at h
        cases h
      | some result =>
        rw [hrestore] at h
        cases result with
        | error rt =>
          exact absurd (congrArg Prod.fst (Option.some.inj h)) (restore_error_ne_ok hrestore)
        | ok r =>
          obtain ⟨r', hr', heq⟩ := Option.map_eq_some_iff.1 h
          obtain ⟨hrt, rfl⟩ := Prod.mk.inj heq
          refine List.Forall₂.cons (fun json' hjson => ?_) (ih (hr'.trans ?_))
          · rw [hitem] at hjson
            obtain rfl := Option.some.inj hjson
            exact ⟨r.1, r.2, hrestore, rfl⟩
          · rw [← hrt]

theorem exists_restore_of_deserializeLoop {db'' : List KvDb}
    (h : deserializeLoop root db = some (oprtOk, db'')) (hsame : List.Forall₂ SameValue db db'') :
    ∀ e ∈ db, ∀ json, getObjectItem root e.key = some json →
      ∃ v len, restore e json = some (.ok (v, len)) ∧
        SameValue e { e with val := v, len := len } := by
  refine ((List.forall₂_and_left (R := SameValue) db db'').1
    (List.Forall₂.mp ?_ (forall₂_of_deserializeLoop h) hsame)).1
  intro e e'' hloop hsame
  refine ⟨fun json hjson => ?_, hsame⟩
  obtain ⟨v, len, hrestore, rfl⟩ := hloop json hjson
  exact ⟨v, len, hrestore, hsame⟩

theorem kvSerialize_eq (charSigned : Bool) (hdb : ∀ e ∈ db, e.WellFormed)
    (hsize : bufLen db < 4294967296) :
    kvSerialize charSigned true db = some (.ok (kvText charSigned db)) := by
  rw [kvSerialize, if_neg (by decide), u32_of_lt hsize,
    if_neg (Nat.not_lt.2 (length_kvText_lt charSigned hdb))]

theorem ValueOk.parses {e : KvDb} (h : ValueOk charSigned strict e) : ValueParses strict e := by
  intro mem hmem
  rw [ValueOk, hmem] at h
  exact h

theorem getObjectItem_of_mem (hdb : ∀ e ∈ db, e.WellFormed) (hdistinct : DistinctKeys db)
    {e : KvDb} (he : e ∈ db) :
    getObjectItem (.object (db.map (memberOf charSigned))) e.key = some (jsonOf charSigned e) := by
  obtain ⟨pre, post, rfl⟩ := List.append_of_mem he
  rw [List.map_append, List.map_cons]
  exact getObjectItem_append hdistinct hdb _ _

theorem restores_of_valueOk (hdb : ∀ e ∈ db, e.WellFormed) (hdistinct : DistinctKeys db)
    (hkeys : PlainKeys strict db) (hsize : bufLen db < 4294967296)
    (hok : ∀ e ∈ db, ValueOk charSigned strict e) : Restores charSigned strict db := by
  refine ⟨_, kvSerialize_eq charSigned hdb hsize, fun db' hshape => ?_⟩
  rw [kvDeserialize, parse_kvText charSigned hkeys fun e he => (hok e he).parses]
  refine deserializeLoop_of_restore ?_
  refine ((List.forall₂_and_left _ _).2 ⟨fun _ h => h, hshape⟩).imp fun e t h => ?_
  obtain ⟨he, hshape⟩ := h
  obtain ⟨v, len, hrestore, hsame⟩ := exists_restore_eq (hdb e he) (hok e he) hshape
  refine ⟨_, v, len, ?_, hrestore, hsame⟩
  rw [hshape.1]
  exact getObjectItem_of_mem hdb hdistinct he

theorem valueParses_of_parse (hdb : ∀ e ∈ db, e.WellFormed) (hdistinct : DistinctKeys db)
    (hkeys : PlainKeys strict db) (hparse : Json.parse strict (kvText charSigned db) = some root)
    (hrestore : ∀ e ∈ db, ∀ json, getObjectItem root e.key = some json →
      ∃ v len, restore e json = some (.ok (v, len)) ∧
        SameValue e { e with val := v, len := len }) :
    ∀ e ∈ db, ValueParses strict e := by
  cases db with
  | nil => exact fun _ h => by cases h
  | cons e db =>
    by_contra hbad
    rw [parse_kvText_cons] at hparse
    obtain ⟨r, hr, rfl⟩ := Option.map_eq_some_iff.1 hparse
    obtain ⟨pre, e₁, post, mem, d, more, heq, hval, hmembers, hne⟩ :=
      exists_of_parseMembers hkeys hbad hr
    rw [heq] at hdb hdistinct hrestore
    have hitem := @getObjectItem_append charSigned pre post e₁ hdistinct hdb (.string d) more
    rw [← hmembers] at hitem
    obtain ⟨v, len, hv, hsame⟩ :=
      hrestore e₁ (List.mem_append_right _ List.mem_cons_self) _ hitem
    exact not_sameValue_of_restore hval hne hv hsame

/-- Records with keys of plain bytes are read back exactly when every value meets the condition. -/
theorem restores_iff (charSigned strict : Bool) (db : List KvDb) (hdb : ∀ e ∈ db, e.WellFormed)
    (hdistinct : DistinctKeys db) (hkeys : PlainKeys strict db)
    (hsize : bufLen db < 4294967296) :
    Restores charSigned strict db ↔ ∀ e ∈ db, ValueOk charSigned strict e := by
  refine ⟨fun hrestores => ?_, restores_of_valueOk hdb hdistinct hkeys hsize⟩
  obtain ⟨text, htext, hread⟩ := hrestores
  obtain rfl : kvText charSigned db = text := by
    rw [kvSerialize_eq charSigned hdb hsize] at htext
    exact Except.ok.inj (Option.some.inj htext)
  obtain ⟨db'', hdeserialize, hsame⟩ := hread db (List.forall₂_same.2 fun e _ => SameShape.refl e)
  rw [kvDeserialize] at hdeserialize
  cases hparse : Json.parse strict (kvText charSigned db) with
  | none =>
    rw [hparse] at hdeserialize
    cases hdeserialize
  | some root =>
    rw [hparse] at hdeserialize
    have hrestore := exists_restore_of_deserializeLoop hdeserialize hsame
    have hparses := valueParses_of_parse hdb hdistinct hkeys hparse hrestore
    obtain rfl : root = .object (db.map (memberOf charSigned)) := by
      rw [parse_kvText charSigned hkeys hparses] at hparse
      exact (Option.some.inj hparse).symm
    intro e he
    obtain ⟨v, len, hv, hsame⟩ := hrestore e he _ (getObjectItem_of_mem hdb hdistinct he)
    exact valueOk_of_restore (hparses e he) hv hsame

end Records

/-- A number, a string and raw bytes. -/
theorem restores_three :
    let db : List KvDb := [⟨[0x6e], .int (-5), 4⟩, ⟨[0x73], .string [0x68, 0x69, 0], 3⟩,
      ⟨[0x72], .raw [1, 2, 3, 4], 4⟩]
    (∀ e ∈ db, ValueOk false true e) ∧ Restores false true db := by
  intro db
  have hok : ∀ e ∈ db, ValueOk false true e := by
    simp only [db, List.forall_mem_cons]
    refine ⟨?_, ?_, ?_, fun _ h => by cases h⟩
    · trivial
    · show ∀ b ∈ cString [0x68, 0x69, 0], Json.Plain true b
      rw [show cString [0x68, 0x69, 0] = [0x68, 0x69] from rfl]
      exact List.forall_mem_cons.2 ⟨by decide, List.forall_mem_singleton.2 (by decide)⟩
    · trivial
  have hdb : ∀ e ∈ db, e.WellFormed := by
    simp only [db, List.forall_mem_cons]
    refine ⟨?_, ?_, ?_, fun _ h => by cases h⟩
    · exact ⟨by decide, fun _ h => (by cases h), fun _ h => (by cases h)⟩
    · refine ⟨by decide, fun mem h => ?_, fun _ h => by cases h⟩
      cases h
      decide
    · refine ⟨by decide, fun _ h => (by cases h), fun mem h => ?_⟩
      cases h
      decide
  refine ⟨hok, (restores_iff false true db hdb ?_ ?_ ?_).2 hok⟩
  · exact (by decide : List.Pairwise (fun e e' : KvDb => e.key.map toLower ≠ e'.key.map toLower) db)
  · refine List.forall_mem_cons.2 ⟨?_, List.forall_mem_cons.2 ⟨?_, List.forall_mem_singleton.2 ?_⟩⟩
    · exact List.forall_mem_singleton.2 (by decide)
    · exact List.forall_mem_singleton.2 (by decide)
    · exact List.forall_mem_singleton.2 (by decide)
  · decide

/-- The string `a"b` is printed as it is, and the text is not a JSON text. -/
theorem not_restores_of_quote :
    let db : List KvDb := [⟨[0x73], .string [0x61, 0x22, 0x62, 0], 4⟩]
    kvSerialize true true db = some (.ok (kvText true db)) ∧
      kvDeserialize false (kvText true db) db = some (oprtCjsonParseErr, db) ∧
      ¬Restores true false db := by
  intro db
  have htext : kvSerialize true true db = some (.ok (kvText true db)) := by decide +kernel
  have hread : kvDeserialize false (kvText true db) db = some (oprtCjsonParseErr, db) := by
    decide +kernel
  refine ⟨htext, hread, ?_⟩
  rintro ⟨text, htext', hrestores⟩
  rw [htext] at htext'
  obtain rfl := Except.ok.inj (Option.some.inj htext')
  obtain ⟨db'', hread', -⟩ := hrestores db (List.forall₂_same.2 fun e _ => SameShape.refl e)
  rw [hread] at hread'
  have hcode : oprtCjsonParseErr = oprtOk := congrArg Prod.fst (Option.some.inj hread')
  exact absurd hcode (by decide)

end TuyaOpen.Kv
