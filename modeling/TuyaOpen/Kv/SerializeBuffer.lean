import TuyaOpen.Basic.PrintBuffer
import TuyaOpen.Kv.Serialize

/-!
# The buffer of `kv_serialize`

The second loop of `kv_serialize` prints the records piece by piece into a buffer whose size the
first loop has computed. Each `sprintf` also writes a terminator, over which the next piece is
printed. A record of a type that the function does not know adds its key to the size, and ends the
second loop behind its key.
-/

namespace TuyaOpen.Kv

open TuyaOpen.Utilities

/-! ### The function -/

/-- `kv_db_t`: the type is one of the supported ones, or another number. -/
inductive KvRecord
  | typed (e : KvDb)
  | untyped (key : Bytes) (len : UInt16)
  deriving DecidableEq

def recordLen : KvRecord → Nat
  | .typed e => entryLen e
  | .untyped key _ => key.length + 2

def recordsLen (db : List KvRecord) : Nat := (db.map recordLen).sum + 3

/-- `tuya_base64_encode(data, buf + offset)` and `offset += strlen(buf + offset)`. -/
def printBase64 (b : PrintBuf) (data : Bytes) : Option PrintBuf :=
  (memcpy b.mem b.offset (tuyaBase64Encode data ++ [0])).map fun mem =>
    ⟨mem, b.offset + (cString (mem.drop b.offset)).length⟩

/-- The value of a record. Raw bytes are encoded in the buffer between two quotes, the second of
which is written without a terminator. -/
def printValue (charSigned : Bool) (b : PrintBuf) (e : KvDb) : Option PrintBuf :=
  match e.val with
  | .raw mem =>
    if e.len = 0 then b.print nullText
    else
      (b.print [0x22]).bind fun b => (printBase64 b (mem.take e.len.toNat)).bind fun b =>
        b.put 0x22
  | _ => b.print (valueText charSigned e)

def keyText (key : Bytes) : Bytes := quoted key ++ [0x3a]

def printRecords (charSigned : Bool) : List KvRecord → PrintBuf → Option (OperateRet × PrintBuf)
  | [], b => some (oprtOk, b)
  | .typed e :: db, b =>
    (b.print (keyText e.key)).bind fun b => (printValue charSigned b e).bind fun b =>
      (b.print [0x2c]).bind fun b => printRecords charSigned db b
  | .untyped key _ :: _, b => (b.print (keyText key)).map fun b => (oprtComError, b)

/-- What follows the second loop: a space over the last comma, the brace and the terminator. -/
def printEnd (db : List KvRecord) (b : PrintBuf) : Option PrintBuf :=
  (if db = [] then some b
    else (memcpy b.mem (b.offset - 1) [0x20]).map fun mem => ⟨mem, b.offset⟩).bind fun b =>
  (b.put 0x7d).bind fun b => (memcpy b.mem b.offset [0]).map fun mem => ⟨mem, b.offset⟩

/-- `kv_serialize` from the call of `tal_malloc` on, with the buffer `mem`: a fault, or the status
and the buffer. -/
def kvSerializeInto (charSigned : Bool) (mem : Bytes) (db : List KvRecord) :
    Option (OperateRet × PrintBuf) :=
  (PrintBuf.print ⟨mem, 0⟩ [0x7b]).bind fun b =>
    (printRecords charSigned db b).bind fun r =>
      if r.1 = oprtOk then (printEnd db r.2).map fun b => (oprtOk, b) else some r

/-! ### The text of the second loop -/

def recordsRet : List KvRecord → OperateRet
  | [] => oprtOk
  | .typed _ :: db => recordsRet db
  | .untyped _ _ :: _ => oprtComError

def recordsText (charSigned : Bool) : List KvRecord → Bytes
  | [] => []
  | .typed e :: db => entryText charSigned e ++ [0x2c] ++ recordsText charSigned db
  | .untyped key _ :: _ => keyText key

variable (charSigned : Bool) {b : PrintBuf} {size : Nat} {text : Bytes}

theorem length_keyText (key : Bytes) : (keyText key).length = key.length + 3 := by
  rw [keyText, List.length_append, length_quoted, List.length_singleton]

theorem entryText_eq (e : KvDb) :
    entryText charSigned e = keyText e.key ++ valueText charSigned e := by
  rw [entryText, keyText, List.append_assoc, List.singleton_append]

theorem length_recordsText {db : List KvRecord} (hdb : ∀ e, .typed e ∈ db → e.Terminated) :
    (recordsText charSigned db).length ≤ (db.map recordLen).sum + 1 ∧
      (recordsRet db = oprtOk →
        (recordsText charSigned db).length ≤ (db.map recordLen).sum) := by
  induction db with
  | nil => exact ⟨Nat.zero_le _, fun _ => le_rfl⟩
  | cons r db ih =>
    obtain ⟨hle, hok⟩ := ih fun e he => hdb e (List.mem_cons_of_mem _ he)
    rw [List.map_cons, List.sum_cons]
    cases r with
    | typed e =>
      have hentry := length_entryText_lt charSigned (hdb e List.mem_cons_self)
      rw [recordsText, recordsRet, recordLen, List.length_append, List.length_append,
        List.length_singleton]
      refine ⟨by omega, fun h => ?_⟩
      have := hok h
      omega
    | untyped key len =>
      rw [recordsText, recordLen, length_keyText]
      refine ⟨by omega, fun h => ?_⟩
      exact absurd h oprtComError_ne_ok

/-! ### Pieces that fit -/

theorem printBase64_eq (b : PrintBuf) (data : Bytes) :
    printBase64 b data = b.print (tuyaBase64Encode data) := by
  have hzero : 0 ∉ tuyaBase64Encode data := fun h => absurd (mem_encode 0 h).1 (by decide)
  rw [printBase64, PrintBuf.print]
  cases hmem : memcpy b.mem b.offset (tuyaBase64Encode data ++ [0]) with
  | none => rfl
  | some mem =>
    rw [Option.map_some, Option.map_some, PrintBuf.cString_drop_of_memcpy hzero hmem]

theorem printValue_fits (h : b.Holds size text) {e : KvDb}
    (hle : text.length + (valueText charSigned e).length + 1 ≤ size) :
    ∃ b', printValue charSigned b e = some b' ∧
      b'.Holds size (text ++ valueText charSigned e) := by
  obtain ⟨key, val, len⟩ := e
  cases val with
  | raw mem =>
    by_cases hzero : len = 0
    · have hnull : valueText charSigned ⟨key, .raw mem, len⟩ = nullText := if_pos hzero
      rw [hnull] at hle ⊢
      rw [show printValue charSigned b ⟨key, .raw mem, len⟩ = b.print nullText from if_pos hzero]
      exact h.print hle
    · have hquoted : valueText charSigned ⟨key, .raw mem, len⟩ =
          [0x22] ++ tuyaBase64Encode (mem.take len.toNat) ++ [0x22] := if_neg hzero
      rw [hquoted, List.length_append, List.length_append, List.length_singleton] at hle
      obtain ⟨b₁, hb₁, h₁⟩ := h.print (s := [0x22]) (by rw [List.length_singleton]; omega)
      obtain ⟨b₂, hb₂, h₂⟩ := h₁.print (s := tuyaBase64Encode (mem.take len.toNat))
        (by rw [List.length_append, List.length_singleton]; omega)
      obtain ⟨b₃, hb₃, h₃⟩ := h₂.put 0x22
        (by rw [List.length_append, List.length_append, List.length_singleton]; omega)
      refine ⟨b₃, ?_, ?_⟩
      · rw [show printValue charSigned b ⟨key, .raw mem, len⟩ = _ from if_neg hzero, hb₁,
          Option.bind_some, printBase64_eq, hb₂, Option.bind_some, hb₃]
      · rw [hquoted, ← List.append_assoc, ← List.append_assoc]
        exact h₃
  | _ => exact h.print hle

/-- **The second loop.** It prints its text when the sizes of the records, the brace and the
terminator fit. -/
theorem printRecords_fits {db : List KvRecord} (hdb : ∀ e, .typed e ∈ db → e.Terminated)
    (h : b.Holds size text) (hle : text.length + (db.map recordLen).sum + 2 ≤ size) :
    ∃ b', printRecords charSigned db b = some (recordsRet db, b') ∧
      b'.Holds size (text ++ recordsText charSigned db) := by
  induction db generalizing b text with
  | nil =>
    rw [recordsText, List.append_nil]
    exact ⟨b, rfl, h⟩
  | cons r db ih =>
    rw [List.map_cons, List.sum_cons] at hle
    cases r with
    | typed e =>
      have hentry := length_entryText_lt charSigned (hdb e List.mem_cons_self)
      rw [entryText_eq, List.length_append] at hentry
      rw [recordLen] at hle
      obtain ⟨b₁, hb₁, h₁⟩ := h.print (s := keyText e.key) (by omega)
      obtain ⟨b₂, hb₂, h₂⟩ := printValue_fits charSigned (e := e) h₁
        (by rw [List.length_append]; omega)
      obtain ⟨b₃, hb₃, h₃⟩ := h₂.print (s := [0x2c])
        (by rw [List.length_append, List.length_append, List.length_singleton]; omega)
      obtain ⟨b', hb', h'⟩ := ih (fun e he => hdb e (List.mem_cons_of_mem _ he)) h₃
        (by rw [List.length_append, List.length_append, List.length_append,
          List.length_singleton]; omega)
      refine ⟨b', ?_, ?_⟩
      · rw [printRecords, hb₁, Option.bind_some, hb₂, Option.bind_some, hb₃, Option.bind_some, hb']
        rfl
      · rw [recordsText, entryText_eq, ← List.append_assoc, ← List.append_assoc,
          ← List.append_assoc]
        exact h'
    | untyped key len =>
      rw [recordLen] at hle
      obtain ⟨b', hb', h'⟩ := h.print (s := keyText key) (by rw [length_keyText]; omega)
      refine ⟨b', ?_, h'⟩
      rw [printRecords, hb']
      rfl

def endText (db : List KvRecord) (text : Bytes) : Bytes :=
  (if db = [] then text else text.dropLast ++ [0x20]) ++ [0x7d]

theorem printEnd_fits (db : List KvRecord) (h : b.Holds size text)
    (hne : text ≠ []) (hle : text.length + 2 ≤ size) :
    ∃ b', printEnd db b = some b' ∧ b'.Holds size (endText db text) ∧
      b'.mem.take (b'.offset + 1) = endText db text ++ [0] := by
  have hspace : ∃ b₁, (if db = [] then some b
      else (memcpy b.mem (b.offset - 1) [0x20]).map fun mem => ⟨mem, b.offset⟩) = some b₁ ∧
      b₁.Holds size (if db = [] then text else text.dropLast ++ [0x20]) := by
    by_cases hnil : db = []
    · rw [if_pos hnil, if_pos hnil]
      exact ⟨b, rfl, h⟩
    · rw [if_neg hnil, if_neg hnil]
      have hlast := List.dropLast_append_getLast hne
      have hoff : b.offset - 1 = text.dropLast.length := by rw [h.offset, List.length_dropLast]
      obtain ⟨mem, hmem, h₁⟩ := PrintBuf.Holds.overwrite (s := [0x20]) text.dropLast
        [text.getLast hne] [] (by rw [List.append_nil, hlast]; exact h) rfl
      rw [List.append_nil] at h₁
      exact ⟨_, by rw [hoff, hmem]; rfl, h₁⟩
  obtain ⟨b₁, hb₁, h₁⟩ := hspace
  have hlen : (if db = [] then text else text.dropLast ++ [0x20]).length = text.length := by
    split_ifs
    · rfl
    · have := List.length_pos_iff.2 hne
      rw [List.length_append, List.length_dropLast, List.length_singleton]
      omega
  obtain ⟨b₂, hb₂, h₂⟩ := h₁.put 0x7d (by omega)
  obtain ⟨mem, hmem, h₃, htake⟩ := h₂.terminate
    (by rw [List.length_append, List.length_singleton]; omega)
  refine ⟨_, ?_, h₃, htake⟩
  rw [printEnd, hb₁, Option.bind_some, hb₂, Option.bind_some, hmem]
  rfl

theorem length_endText {db : List KvRecord} (hne : text ≠ []) :
    (endText db text).length = text.length + 1 := by
  have := List.length_pos_iff.2 hne
  rw [endText, List.length_append, List.length_singleton]
  split_ifs
  · rfl
  · rw [List.length_append, List.length_dropLast, List.length_singleton]
    omega

/-! ### The buffer is large enough -/

theorem kvSerializeInto_eq {db : List KvRecord} (hdb : ∀ e, .typed e ∈ db → e.Terminated)
    {mem : Bytes} (hmem : mem.length = recordsLen db) :
    ∃ b, kvSerializeInto charSigned mem db = some (recordsRet db, b) ∧
      b.offset + 1 ≤ recordsLen db ∧
      (recordsRet db = oprtOk → b.offset = (recordsText charSigned db).length + 2 ∧
        b.mem.take (b.offset + 1) = endText db (0x7b :: recordsText charSigned db) ++ [0]) := by
  have hsize : recordsLen db = (db.map recordLen).sum + 3 := rfl
  have htext := length_recordsText charSigned hdb
  obtain ⟨b₁, hb₁, h₁⟩ := (PrintBuf.Holds.init hmem).print (s := [0x7b])
    (by rw [List.length_nil, List.length_singleton]; omega)
  obtain ⟨b₂, hb₂, h₂⟩ := printRecords_fits charSigned hdb h₁
    (by rw [List.nil_append, List.length_singleton]; omega)
  rw [List.nil_append, List.singleton_append] at h₂
  have hrun : kvSerializeInto charSigned mem db =
      if recordsRet db = oprtOk then (printEnd db b₂).map fun b => (oprtOk, b)
      else some (recordsRet db, b₂) := by
    rw [kvSerializeInto, hb₁, Option.bind_some, hb₂, Option.bind_some]
  have hlen : (0x7b :: recordsText charSigned db).length =
      (recordsText charSigned db).length + 1 := List.length_cons
  rw [hrun]
  by_cases hok : recordsRet db = oprtOk
  · have hle := htext.2 hok
    obtain ⟨b, hb, h, htake⟩ := printEnd_fits db h₂ (List.cons_ne_nil _ _) (by omega)
    have hoff : b.offset = (recordsText charSigned db).length + 2 := by
      rw [h.offset, length_endText (List.cons_ne_nil _ _), hlen]
    refine ⟨b, ?_, by omega, fun _ => ⟨hoff, htake⟩⟩
    rw [if_pos hok, hb, hok]
    rfl
  · refine ⟨b₂, if_neg hok, ?_, fun h => absurd h hok⟩
    rw [h₂.offset, hlen]
    omega

/-- **The buffer is large enough.** For records of every type, whatever their keys and values, the
second loop, the brace and the terminator stay in the buffer, as long as the size fits into 32
bits. -/
theorem kvSerializeInto_fits (charSigned : Bool) (db : List KvRecord)
    (hdb : ∀ e, .typed e ∈ db → e.Terminated) (hsize : recordsLen db < 4294967296) (mem : Bytes)
    (hmem : mem.length = u32 (recordsLen db)) :
    ∃ rt b, kvSerializeInto charSigned mem db = some (rt, b) ∧ b.offset + 1 ≤ recordsLen db := by
  rw [u32_of_lt hsize] at hmem
  obtain ⟨b, hb, hle, -⟩ := kvSerializeInto_eq charSigned hdb hmem
  exact ⟨_, b, hb, hle⟩

/-- A string, and a record of an unknown type. -/
theorem kvSerializeInto_fits_two :
    let db : List KvRecord := [.typed ⟨[0x73], .string [0x68, 0x69, 0], 3⟩, .untyped [0x6b] 4]
    recordsLen db < 4294967296 ∧
      ∃ rt b, kvSerializeInto true (List.replicate 18 0) db = some (rt, b) ∧
        b.offset + 1 ≤ recordsLen db := by
  intro db
  have hdb : ∀ e, KvRecord.typed e ∈ db → e.Terminated := by
    intro e he mem hval
    simp only [db, List.mem_cons, KvRecord.typed.injEq, reduceCtorEq, List.not_mem_nil,
      or_false] at he
    subst he
    cases hval
    decide
  have hlen : recordsLen db = 18 := by decide
  refine ⟨by decide, kvSerializeInto_fits true db hdb (by decide) _ ?_⟩
  rw [hlen, u32_of_lt (by decide), List.length_replicate]

/-! ### The text in the buffer -/

theorem recordsRet_typed (db : List KvDb) : recordsRet (db.map .typed) = oprtOk := by
  induction db with
  | nil => rfl
  | cons e db ih => exact ih

theorem recordsText_typed (db : List KvDb) :
    recordsText charSigned (db.map .typed) =
      db.flatMap fun e => entryText charSigned e ++ [0x2c] := by
  induction db with
  | nil => rfl
  | cons e db ih =>
    rw [List.map_cons, recordsText, ih, List.flatMap_cons]

theorem recordsLen_typed (db : List KvDb) : recordsLen (db.map .typed) = bufLen db := by
  rw [recordsLen, bufLen, List.map_map]
  rfl

theorem kvSerializeInto_typed {db : List KvDb} (hdb : ∀ e ∈ db, e.Terminated) {mem : Bytes}
    (hmem : mem.length = bufLen db) :
    ∃ b, kvSerializeInto charSigned mem (db.map .typed) = some (oprtOk, b) ∧
      b.offset = (kvText charSigned db).length ∧
      b.mem.take (b.offset + 1) = kvText charSigned db ++ [0] := by
  have hterminated : ∀ e, KvRecord.typed e ∈ db.map .typed → e.Terminated := by
    intro e he
    obtain ⟨e', he', heq⟩ := List.mem_map.1 he
    rw [← KvRecord.typed.inj heq]
    exact hdb e' he'
  have htext : endText (db.map .typed) (0x7b :: recordsText charSigned (db.map .typed)) =
      kvText charSigned db := by
    rw [endText, recordsText_typed, kvText]
    simp only [List.map_eq_nil_iff]
  obtain ⟨b, hb, -, hok⟩ := kvSerializeInto_eq charSigned hterminated
    (hmem.trans (recordsLen_typed db).symm)
  obtain ⟨hoff, htake⟩ := hok (recordsRet_typed db)
  rw [recordsRet_typed] at hb
  rw [htext] at htake
  refine ⟨b, hb, ?_, htake⟩
  rw [hoff, ← htext, length_endText (List.cons_ne_nil _ _), List.length_cons]

theorem kvSerialize_eq_into {db : List KvDb} (hdb : ∀ e ∈ db, e.WellFormed)
    (hsize : bufLen db < 4294967296) {mem : Bytes} (hmem : mem.length = bufLen db) :
    ∃ b, kvSerializeInto charSigned mem (db.map .typed) = some (oprtOk, b) ∧
      kvSerialize charSigned true db = some (.ok (b.mem.take b.offset)) := by
  obtain ⟨b, hb, hoff, htake⟩ :=
    kvSerializeInto_typed charSigned (fun e he => (hdb e he).terminated) hmem
  refine ⟨b, hb, ?_⟩
  have htext := congrArg (List.take b.offset) htake
  rw [List.take_take, Nat.min_eq_left (Nat.le_succ _), hoff, List.take_left] at htext
  rw [kvSerialize_eq charSigned hdb hsize, hoff, htext]

end TuyaOpen.Kv
