import TuyaOpen.Dp.CheckLoop

/-!
# The buffers of a report

`dp_rept_valid_check` adds up how long the texts of a report may become, in counters of 16 bits, and
`dp_rept_json_output` allocates buffers of these lengths and prints into them with `sprintf`, which
writes a terminating zero behind each record. A string is printed by `cJSON`, with two characters
for some bytes and six for the other control characters.

The entry that is printed for an identifier is the first one of the report that has it, and the one
that has been counted need not be the first.

## Main results

* `forall_mem_textWrites_iff`: when the writes are in a buffer.
* `fitsBuffers_iff`: when a report fits its buffers.
* `roomCond_of_plain`: reports without control characters and double identifiers do.
-/

namespace TuyaOpen.Dp

/-! ### Strings -/

def hexDigit (n : Nat) : UInt8 := UInt8.ofNat (if n < 10 then 48 + n else 87 + n)

/-- What `cJSON` prints for a byte of a string. -/
def jsonEscape (b : UInt8) : Bytes :=
  if b = 34 ∨ b = 92 then [92, b]
  else if b = 8 then [92, 98]
  else if b = 12 then [92, 102]
  else if b = 10 then [92, 110]
  else if b = 13 then [92, 114]
  else if b = 9 then [92, 116]
  else if b < 32 then [92, 117, 48, 48, hexDigit (b.toNat / 16), hexDigit (b.toNat % 16)]
  else [b]

/-- What `cJSON` prints for a string. -/
def jsonString (s : Bytes) : Bytes := 34 :: (s.flatMap jsonEscape ++ [34])

/-- The printer follows the rules for escapes. It may have no memory for a string. -/
def FollowsEscapes (printString : Bytes → Option Bytes) : Prop :=
  ∀ s text, printString s = some text → text = jsonString s

def escapeLen (b : UInt8) : Nat :=
  if b = 34 ∨ b = 92 ∨ b = 8 ∨ b = 12 ∨ b = 10 ∨ b = 13 ∨ b = 9 then 2 else if b < 32 then 6 else 1

/-! ### The output -/

/-- The texts that are printed for the identifiers, up to the first one that cannot be resolved: the
records of the values and those of the times. -/
def jsonTexts (heap : HeapContents) (printString : Bytes → Option Bytes) (nodes : List DpNode)
    (dps : List DpObj) : List UInt8 → OperateRet × List (Option Bytes × Option Bytes)
  | [] => (oprtOk, [])
  | id :: ids =>
    match jsonEntry dps id with
    | none => (oprtSvcDpIdNotFound, [])
    | some dp =>
      match dpNodeFind nodes dp.id with
      | none => (oprtSvcDpIdNotFound, [])
      | some node =>
        if dp.value.type ≠ some node.prop.propTp then (oprtSvcDpTpNotMatch, [])
        else
          let r := jsonTexts heap printString nodes dps ids
          (r.1,
            ((printValue heap printString dp node.prop).map (recordText dp.id),
              if dp.timeStamp = 0 then none
              else some (recordText dp.id (decimal dp.timeStamp.toNat))) :: r.2)

abbrev BufferWrite := Int × Nat

/-- The write stays in a buffer of `size` bytes. -/
def InBuffer (size : Nat) (w : BufferWrite) : Prop := 0 ≤ w.1 ∧ w.1 + w.2 ≤ size

/-- The calls of `sprintf` from an offset of 16 bits on: the writes, and the offset after them. -/
def sprintfLoop : Nat → List (Option Bytes) → List BufferWrite × Nat
  | offset, [] => ([], offset)
  | offset, none :: texts => sprintfLoop offset texts
  | offset, some text :: texts =>
    let r := sprintfLoop ((offset + text.length) % 65536) texts
    ((offset, text.length + 1) :: r.1, r.2)

/-- The writes into a buffer: the opening brace, the texts, and at the end the closing brace over
the last comma with a zero behind it. -/
def textWrites (ret : OperateRet) (texts : List (Option Bytes)) : List BufferWrite :=
  let r := sprintfLoop 1 texts
  (0, 1) :: (r.1 ++ if ret = oprtOk then [((r.2 : Int) - 1, 1), ((r.2 : Int), 1)] else [])

/-- What happens in `dp_rept_json_output`: whether memory is allocated, and whether the times are
asked for. -/
structure JsonEnv where
  mallocDpstr : Bool
  mallocTimestr : Bool
  timejson : Bool

def IsNeedTime (env : JsonEnv) (reptType : ReptType) (valid : DpReptValid) : Prop :=
  reptType = .stat ∧ valid.timelen ≠ 0 ∧ env.timejson = true

instance (env : JsonEnv) (reptType : ReptType) (valid : DpReptValid) :
    Decidable (IsNeedTime env reptType valid) :=
  inferInstanceAs (Decidable (_ ∧ _))

structure JsonWrites where
  ret : OperateRet
  dpstr : List BufferWrite
  dptimestr : List BufferWrite

/-- `dp_rept_json_output`, with its writes. -/
def dpReptJsonWrites (env : JsonEnv) (heap : HeapContents) (printString : Bytes → Option Bytes)
    (nodes : List DpNode) (dpin : DpReptIn) (valid : DpReptValid) : JsonWrites :=
  if env.mallocDpstr = false then ⟨oprtMallocFailed, [], []⟩
  else if IsNeedTime env dpin.reptType valid ∧ env.mallocTimestr = false then
    ⟨oprtMallocFailed, [], []⟩
  else
    let r := jsonTexts heap printString nodes dpin.entries valid.ids
    ⟨r.1, textWrites r.1 (r.2.map Prod.fst),
      if IsNeedTime env dpin.reptType valid then textWrites r.1 (r.2.map Prod.snd) else []⟩

/-! ### What ought to hold -/

/-- If the check accepts a report, its counters have not wrapped, and all writes into the buffers,
which are as long as they say, are in them. -/
def FitsBuffers (env : JsonEnv) (heap : HeapContents) (printString : Bytes → Option Bytes)
    (schema : DpSchema) (malloc : Nat → Bool) (dpin : DpReptIn) (valid : DpReptValid) : Prop :=
  let r := dpReptValidCheck schema malloc dpin valid
  let noted :=
    (checkLoop schema.preprocess dpin.reptType dpin.flags malloc 0 dpin.entries schema.nodes).2.2
  let out := dpReptJsonWrites env heap printString r.2.1 dpin r.2.2
  r.1 = oprtOk →
    r.2.2.len.toNat = (noted.map Prod.snd).sum ∧ r.2.2.timelen.toNat = timeRoom noted ∧
      (∀ w ∈ out.dpstr, InBuffer r.2.2.len.toNat w) ∧
      ∀ w ∈ out.dptimestr, InBuffer r.2.2.timelen.toNat w

/-! ### The condition -/

def valueLen (heap : HeapContents) (dp : DpObj) (prop : DpProp) : Nat :=
  match dp.value, prop with
  | .bool b, _ => if b then 4 else 5
  | .value v, _ => (signedDecimal v.toInt).length
  | .bitmap m, _ => (decimal m.toNat).length
  | .str s, _ => 2 + (s.map escapeLen).sum
  | .enum e, .enum ppEnum _ => 2 + (cString (enumName heap dp.id ppEnum e)).length
  | _, _ => 0

def prints (printString : Bytes → Option Bytes) (value : DpValue) : Bool :=
  match value with
  | .str s => (printString s).isSome
  | _ => true

def entryLen (heap : HeapContents) (printString : Bytes → Option Bytes) (dp : DpObj)
    (prop : DpProp) : Nat :=
  if prints printString dp.value = true then
    (decimal dp.id.toNat).length + 4 + valueLen heap dp prop
  else 0

/-- The length of the record for an identifier: that of the first entry that has it. -/
def recordSize (heap : HeapContents) (printString : Bytes → Option Bytes) (nodes : List DpNode)
    (dps : List DpObj) (id : UInt8) : Nat :=
  ((jsonEntry dps id).bind fun dp =>
    (dpNodeFind nodes id).map fun node => entryLen heap printString dp node.prop).getD 0

def timeSize (dps : List DpObj) (id : UInt8) : Nat :=
  ((jsonEntry dps id).map fun dp =>
    if dp.timeStamp = 0 then 0
    else (decimal dp.id.toNat).length + 4 + (decimal dp.timeStamp.toNat).length).getD 0

def NeedTime (env : JsonEnv) (reptType : ReptType) (noted : List (DpObj × Nat)) : Prop :=
  reptType = .stat ∧ timeRoom noted ≠ 0 ∧ env.timejson = true

/-- The condition on a report that is accepted. What the entries may need is below `2 ^ 16`, and if
there is memory the records of the first entries with the same identifiers need no more than that,
and their times neither. -/
def RoomCond (env : JsonEnv) (heap : HeapContents) (printString : Bytes → Option Bytes)
    (schema : DpSchema) (malloc : Nat → Bool) (dpin : DpReptIn) : Prop :=
  let r := checkLoop schema.preprocess dpin.reptType dpin.flags malloc 0 dpin.entries schema.nodes
  let noted := r.2.2
  let size := recordSize heap printString schema.nodes dpin.entries
  r.1 = oprtOk → noted ≠ [] →
    (noted.map Prod.snd).sum < 65536 ∧
      (env.mallocDpstr = true → (NeedTime env dpin.reptType noted → env.mallocTimestr = true) →
        2 + (noted.map fun e => size e.1.id).sum ≤ (noted.map Prod.snd).sum ∧
          (NeedTime env dpin.reptType noted →
            2 + (noted.map fun e => timeSize dpin.entries e.1.id).sum ≤ timeRoom noted))

/-! ### The length of a text -/

theorem hexDigit_ne_zero {n : Nat} (h : n < 16) : hexDigit n ≠ 0 := by
  have hlt : ∀ n < 16, hexDigit n ≠ 0 := by decide
  exact hlt n h

theorem length_jsonEscape (b : UInt8) : (jsonEscape b).length = escapeLen b := by
  by_cases hshort : b = 34 ∨ b = 92 ∨ b = 8 ∨ b = 12 ∨ b = 10 ∨ b = 13 ∨ b = 9
  · rcases hshort with rfl | rfl | rfl | rfl | rfl | rfl | rfl <;> rfl
  · rw [escapeLen, if_neg hshort]
    simp only [not_or] at hshort
    obtain ⟨h34, h92, h8, h12, h10, h13, h9⟩ := hshort
    rw [jsonEscape, if_neg (not_or.2 ⟨h34, h92⟩), if_neg h8, if_neg h12, if_neg h10, if_neg h13,
      if_neg h9]
    split <;> rfl

theorem zero_notMem_jsonEscape (b : UInt8) : 0 ∉ jsonEscape b := by
  have hhigh : hexDigit (b.toNat / 16) ≠ 0 := hexDigit_ne_zero (by have := b.toNat_lt; omega)
  have hlow : hexDigit (b.toNat % 16) ≠ 0 := hexDigit_ne_zero (Nat.mod_lt _ (by decide))
  rw [jsonEscape]
  split_ifs with hquote
  · rcases hquote with rfl | rfl <;> decide
  · decide
  · decide
  · decide
  · decide
  · decide
  · simp [hhigh.symm, hlow.symm]
  · rename_i hcontrol
    have hb : b ≠ 0 := fun heq => hcontrol (heq ▸ by decide)
    simp [hb.symm]

theorem cString_jsonString (s : Bytes) : cString (jsonString s) = jsonString s := by
  refine cString_of_notMem fun hmem => ?_
  rw [jsonString, List.mem_cons, List.mem_append, List.mem_flatMap] at hmem
  rcases hmem with hquote | ⟨b, -, hb⟩ | hquote
  · exact absurd hquote (by decide)
  · exact zero_notMem_jsonEscape b hb
  · exact absurd hquote (by decide)

theorem length_jsonString (s : Bytes) : (jsonString s).length = 2 + (s.map escapeLen).sum := by
  have hbytes : (s.flatMap jsonEscape).length = (s.map escapeLen).sum := by
    rw [List.length_flatMap]
    congr 2
    exact funext length_jsonEscape
  rw [jsonString, List.length_cons, List.length_append, hbytes, List.length_singleton]
  omega

theorem length_recordText (id : UInt8) (text : Bytes) :
    (recordText id text).length = (decimal id.toNat).length + 4 + text.length := by
  simp only [recordText, List.length_append, length_asciiBytes, List.length_cons, List.length_nil]
  omega

theorem length_printValue {heap : HeapContents} {printString : Bytes → Option Bytes}
    (hprint : FollowsEscapes printString) {dp : DpObj} {prop : DpProp}
    (htype : dp.value.type = some prop.propTp) :
    ((printValue heap printString dp prop).map (recordText dp.id)).elim 0 List.length =
      entryLen heap printString dp prop := by
  rw [entryLen]
  cases hvalue : dp.value with
  | bool b =>
    simp only [printValue, valueLen, prints, hvalue]
    cases b <;> simp [length_recordText]
  | value v => simp [printValue, valueLen, prints, hvalue, length_recordText]
  | bitmap m => simp [printValue, valueLen, prints, hvalue, length_recordText]
  | str s =>
    cases htext : printString s with
    | none => simp [printValue, prints, hvalue, htext]
    | some text =>
      rw [hprint s text htext] at htext
      simp [printValue, valueLen, prints, hvalue, htext, length_recordText, cString_jsonString,
        length_jsonString]
  | enum e =>
    cases prop with
    | enum ppEnum old =>
      simp [printValue, valueLen, prints, hvalue, length_recordText]
      omega
    | _ =>
      rw [hvalue] at htype
      cases htype
  | other type =>
    rw [hvalue] at htype
    cases htype

/-! ### The writes -/

def textLens (texts : List (Option Bytes)) : Nat := (texts.map fun t => t.elim 0 List.length).sum

/-- The writes of the texts stay in a buffer that has room for a zero at their offset if and only if
it has room for all of them; and then the offset does not wrap. -/
theorem forall_mem_sprintfLoop_iff {size : Nat} (hsize : size < 65536) (texts : List (Option Bytes))
    {offset : Nat} (hoffset : offset + 1 ≤ size) :
    ((∀ w ∈ (sprintfLoop offset texts).1, InBuffer size w) ↔ offset + textLens texts + 1 ≤ size) ∧
      (offset + textLens texts + 1 ≤ size →
        (sprintfLoop offset texts).2 = offset + textLens texts) := by
  induction texts generalizing offset with
  | nil => exact ⟨iff_of_true (fun w hw => by cases hw) hoffset, fun _ => rfl⟩
  | cons text texts ih =>
    have hcons : textLens (text :: texts) = text.elim 0 List.length + textLens texts := by
      rw [textLens, List.map_cons, List.sum_cons, textLens]
    rw [hcons]
    cases text with
    | none =>
      rw [sprintfLoop, Option.elim_none, Nat.zero_add]
      exact ih hoffset
    | some text =>
      rw [sprintfLoop, Option.elim_some]
      dsimp only
      rw [List.forall_mem_cons]
      by_cases hfits : offset + text.length + 1 ≤ size
      · have hmod : (offset + text.length) % 65536 = offset + text.length :=
          Nat.mod_eq_of_lt (by omega)
        obtain ⟨hiff, hend⟩ := ih hfits
        rw [hmod, hiff, ← Nat.add_assoc]
        have hin : InBuffer size ((offset : Int), text.length + 1) := ⟨by omega, by omega⟩
        exact ⟨and_iff_right hin, hend⟩
      · refine ⟨iff_of_false (fun hand => hfits ?_) (by omega), fun h => absurd h (by omega)⟩
        have hin : (offset : Int) + ((text.length + 1 : Nat) : Int) ≤ size := hand.1.2
        omega

/-- **The writes into a buffer** stay in it if and only if it has room for the texts, a brace and a
zero. -/
theorem forall_mem_textWrites_iff {size : Nat} (hsize : size < 65536)
    (texts : List (Option Bytes)) :
    (∀ w ∈ textWrites oprtOk texts, InBuffer size w) ↔ 2 + textLens texts ≤ size := by
  rw [textWrites, List.forall_mem_cons, if_pos rfl, List.forall_mem_append]
  by_cases htwo : 1 + 1 ≤ size
  · obtain ⟨hiff, hend⟩ := forall_mem_sprintfLoop_iff hsize texts htwo
    rw [hiff]
    constructor
    · rintro ⟨-, hfits, -⟩
      omega
    · intro hfits
      have hfits' : 1 + textLens texts + 1 ≤ size := by omega
      rw [hend hfits', List.forall_mem_cons, List.forall_mem_singleton]
      exact ⟨⟨by omega, by omega⟩, hfits', ⟨by omega, by omega⟩, ⟨by omega, by omega⟩⟩
  · -- there is not even room for the braces
    refine iff_of_false (fun hand => htwo ?_) (by omega)
    have hbrace := (hand.2.2 _ List.mem_cons_self).1
    have hzero := (hand.2.2 _ (List.mem_cons_of_mem _ List.mem_cons_self)).2
    dsimp only at hbrace hzero
    omega

/-! ### The texts -/

theorem id_of_jsonEntry {dps : List DpObj} {id : UInt8} {dp : DpObj}
    (h : jsonEntry dps id = some dp) : dp.id = id := by
  have hid := List.find?_some h
  exact of_decide_eq_true hid

section Texts

variable {heap : HeapContents} {printString : Bytes → Option Bytes} {nodes nodes' : List DpNode}
  {dps : List DpObj} {ids : List UInt8}

theorem entryLen_congr {node node' : DpNode} (h : node'.kind = node.kind) (heap : HeapContents)
    (printString : Bytes → Option Bytes) (dp : DpObj) :
    entryLen heap printString dp node'.prop = entryLen heap printString dp node.prop := by
  have hvalue : valueLen heap dp node'.prop = valueLen heap dp node.prop := by
    refine eq_of_kind h (fun ppEnum old old' => ?_) fun prop prop' hne heq => ?_
    · unfold valueLen
      cases dp.value <;> rfl
    · unfold valueLen
      cases dp.value with
      | enum e =>
        cases prop with
        | enum ppEnum old => exact absurd rfl hne
        | _ =>
          cases prop' with
          | enum ppEnum old => cases heq
          | _ => rfl
      | _ => rfl
  rw [entryLen, entryLen, hvalue]

theorem recordSize_congr (h : SameKinds nodes nodes') (id : UInt8) :
    recordSize heap printString nodes' dps id = recordSize heap printString nodes dps id := by
  rw [recordSize, recordSize]
  cases jsonEntry dps id with
  | none => rfl
  | some dp =>
    rw [Option.bind_some, Option.bind_some]
    cases hfind : dpNodeFind nodes' id with
    | none =>
      have hkind := h id
      rw [hfind, Option.map_none, eq_comm, Option.map_eq_none_iff] at hkind
      rw [hkind]
    | some node' =>
      obtain ⟨node, hnode, hkind⟩ := h.exists_of_some hfind
      rw [hnode, Option.map_some, Option.map_some, entryLen_congr hkind]

theorem jsonTexts_of_jsonRecords {records : List (UInt8 × DpValue × Bytes)}
    (h : jsonRecords heap printString nodes dps ids = .ok records) :
    (jsonTexts heap printString nodes dps ids).1 = oprtOk ∧
      (jsonTexts heap printString nodes dps ids).2.filterMap Prod.fst =
        records.map fun r => r.2.2 := by
  induction ids generalizing records with
  | nil =>
    cases h
    exact ⟨rfl, rfl⟩
  | cons id ids ih =>
    obtain ⟨dp, node, rest, hentry, hfind, hrest, hrecord⟩ := of_jsonRecords_cons h
    obtain ⟨hret, htexts⟩ := ih hrest
    have htype : dp.value.type = some node.prop.propTp := by
      by_contra hne
      rw [jsonRecords, hentry] at h
      dsimp only at h
      rw [hfind] at h
      dsimp only at h
      rw [if_pos hne] at h
      cases h
    rw [jsonTexts, hentry]
    dsimp only
    rw [hfind]
    dsimp only
    rw [if_neg (not_not_intro htype)]
    refine ⟨hret, ?_⟩
    rcases hrecord with ⟨hnone, rfl⟩ | ⟨text, hsome, rfl⟩
    · simp [hnone, htexts]
    · simp [hsome, htexts]

/-- **The texts that are printed**, when each identifier has an entry, and a node of its type. -/
theorem jsonTexts_spec (hprint : FollowsEscapes printString)
    (h : ∀ id ∈ ids, ∃ dp node, jsonEntry dps id = some dp ∧ dpNodeFind nodes dp.id = some node ∧
      dp.value.type = some node.prop.propTp) :
    let r := jsonTexts heap printString nodes dps ids
    r.1 = oprtOk ∧
      textLens (r.2.map Prod.fst) = (ids.map (recordSize heap printString nodes dps)).sum ∧
      textLens (r.2.map Prod.snd) = (ids.map (timeSize dps)).sum := by
  dsimp only
  induction ids with
  | nil => exact ⟨rfl, rfl, rfl⟩
  | cons id ids ih =>
    obtain ⟨⟨dp, node, hentry, hfind, htype⟩, hrest⟩ := List.forall_mem_cons.1 h
    obtain ⟨hret, hrecords, htimes⟩ := ih hrest
    have hid := id_of_jsonEntry hentry
    have hrecord : recordSize heap printString nodes dps id =
        entryLen heap printString dp node.prop := by
      rw [recordSize, hentry, Option.bind_some, ← hid, hfind]
      rfl
    have htime : timeSize dps id = (if dp.timeStamp = 0 then none
        else some (recordText dp.id (decimal dp.timeStamp.toNat))).elim 0 List.length := by
      rw [timeSize, hentry, Option.map_some, Option.getD_some]
      split
      · rfl
      · exact (length_recordText _ _).symm
    rw [jsonTexts, hentry]
    dsimp only
    rw [hfind]
    dsimp only
    rw [if_neg (not_not_intro htype)]
    refine ⟨hret, ?_, ?_⟩
    · rw [textLens] at hrecords ⊢
      rw [List.map_cons, List.map_cons, List.sum_cons, hrecords, List.map_cons, List.sum_cons,
        hrecord, length_printValue hprint htype]
    · rw [textLens] at htimes ⊢
      rw [List.map_cons, List.map_cons, List.sum_cons, htimes, List.map_cons, List.sum_cons, htime]

end Texts

/-! ### When a report fits -/

section Fits

variable {env : JsonEnv} {heap : HeapContents} {printString : Bytes → Option Bytes}
  {nodes : List DpNode} {dpin : DpReptIn} {valid : DpReptValid}

theorem forall_mem_dpReptJsonWrites_iff (hprint : FollowsEscapes printString)
    (h : ∀ id ∈ valid.ids, ∃ dp node, jsonEntry dpin.entries id = some dp ∧
      dpNodeFind nodes dp.id = some node ∧ dp.value.type = some node.prop.propTp) :
    let out := dpReptJsonWrites env heap printString nodes dpin valid
    let need := IsNeedTime env dpin.reptType valid
    ((∀ w ∈ out.dpstr, InBuffer valid.len.toNat w) ∧
        ∀ w ∈ out.dptimestr, InBuffer valid.timelen.toNat w) ↔
      (env.mallocDpstr = true → (need → env.mallocTimestr = true) →
        2 + (valid.ids.map (recordSize heap printString nodes dpin.entries)).sum ≤
            valid.len.toNat ∧
          (need → 2 + (valid.ids.map (timeSize dpin.entries)).sum ≤ valid.timelen.toNat)) := by
  obtain ⟨hret, hrecords, htimes⟩ := @jsonTexts_spec heap printString nodes dpin.entries valid.ids
    hprint h
  have hnone : ∀ size, ∀ w ∈ ([] : List BufferWrite), InBuffer size w :=
    fun size w hw => (List.not_mem_nil hw).elim
  dsimp only
  rw [dpReptJsonWrites]
  by_cases hmalloc : env.mallocDpstr = false
  · rw [if_pos hmalloc]
    refine iff_of_true ⟨hnone _, hnone _⟩ fun htrue => ?_
    rw [hmalloc] at htrue
    cases htrue
  rw [if_neg hmalloc]
  by_cases hneed : IsNeedTime env dpin.reptType valid
  · by_cases hmallocTime : env.mallocTimestr = false
    · rw [if_pos ⟨hneed, hmallocTime⟩]
      refine iff_of_true ⟨hnone _, hnone _⟩ fun _ htrue => ?_
      rw [hmallocTime] at htrue
      cases htrue hneed
    · rw [if_neg fun hand => hmallocTime hand.2]
      dsimp only
      rw [if_pos hneed, hret, forall_mem_textWrites_iff valid.len.toNat_lt,
        forall_mem_textWrites_iff valid.timelen.toNat_lt, hrecords, htimes]
      simp [hmalloc, hmallocTime, hneed]
  · rw [if_neg fun hand => hneed hand.1]
    dsimp only
    rw [if_neg hneed, hret, forall_mem_textWrites_iff valid.len.toNat_lt, hrecords]
    simp [hmalloc, hneed]

/-- A report fits its buffers if and only if it meets the condition. -/
theorem fitsBuffers_iff (hprint : FollowsEscapes printString) (hvalid : ZeroValid valid dpin)
    (env : JsonEnv) (heap : HeapContents) (schema : DpSchema) (malloc : Nat → Bool) :
    FitsBuffers env heap printString schema malloc dpin valid ↔
      RoomCond env heap printString schema malloc dpin := by
  obtain ⟨haccept, hnodes, hids, hlen, htimelen⟩ :=
    @dpReptValidCheck_of_zeroValid schema malloc dpin valid hvalid
  have hnoted := @checkLoop_noted schema.preprocess dpin.reptType dpin.flags malloc 0 dpin.entries
    schema.nodes
  rw [FitsBuffers, RoomCond]
  dsimp only at haccept hnodes hids hlen htimelen hnoted ⊢
  rw [haccept, and_imp, hnodes]
  refine imp_congr_right fun hok => imp_congr_right fun _ => ?_
  obtain ⟨hkinds, htypes, hmem⟩ := hnoted hok
  generalize checkLoop schema.preprocess dpin.reptType dpin.flags malloc 0 dpin.entries
    schema.nodes = c at *
  generalize (dpReptValidCheck schema malloc dpin valid).2.2 = valid' at *
  -- every identifier has an entry, and a node of its type
  have hresolved : ∀ id ∈ valid'.ids, ∃ dp node, jsonEntry dpin.entries id = some dp ∧
      dpNodeFind c.2.1 dp.id = some node ∧ dp.value.type = some node.prop.propTp := by
    intro id hid
    rw [hids] at hid
    obtain ⟨e, he, rfl⟩ := List.mem_map.1 hid
    obtain ⟨hentry, node, hnode, -⟩ := hmem e he
    cases hfirst : jsonEntry dpin.entries e.1.id with
    | none =>
      have hnone := List.find?_eq_none.1 hfirst e.1 hentry
      simp at hnone
    | some dp =>
      have hid := id_of_jsonEntry hfirst
      rw [← hid] at hnode
      obtain ⟨node', hnode', hkind⟩ := hkinds.some hnode
      have htype := htypes dp (List.mem_of_find?_eq_some hfirst) node hnode
      rw [← propTp_eq_of_kind hkind] at htype
      exact ⟨dp, node', rfl, hnode', htype⟩
  have hneed : IsNeedTime env dpin.reptType valid' ↔ NeedTime env dpin.reptType c.2.2 := by
    rw [IsNeedTime, NeedTime, Ne, ← UInt16.toNat_inj, htimelen, UInt16.toNat_zero]
  have hsize : (valid'.ids.map (recordSize heap printString c.2.1 dpin.entries)).sum =
      (c.2.2.map fun e => recordSize heap printString schema.nodes dpin.entries e.1.id).sum := by
    rw [hids, List.map_map]
    congr 2
    exact funext fun e => recordSize_congr hkinds e.1.id
  have htime : (valid'.ids.map (timeSize dpin.entries)).sum =
      (c.2.2.map fun e => timeSize dpin.entries e.1.id).sum := by
    rw [hids, List.map_map]
    rfl
  have hwrites := @forall_mem_dpReptJsonWrites_iff env heap printString c.2.1 dpin valid' hprint
    hresolved
  dsimp only at hwrites
  rw [hwrites, hneed, hsize, htime, htimelen, hlen]
  by_cases hwrap : (c.2.2.map Prod.snd).sum < 65536
  · rw [Nat.mod_eq_of_lt hwrap]
    simp [hwrap]
  · refine iff_of_false (fun hand => hwrap ?_) fun hand => hwrap hand.1
    rw [← hand.1]
    exact Nat.mod_lt _ (by decide)

theorem length_signedDecimal_le (v : Int32) : (signedDecimal v.toInt).length ≤ 11 := by
  have habs : v.toInt.natAbs < 10 ^ 10 := by
    have hmin := v.minValue_le_toInt
    have hmax := v.toInt_lt
    have : Int32.minValue.toInt = -2147483648 := rfl
    omega
  have hlength : (decimal v.toInt.natAbs).length ≤ 10 := length_decimal_le (by decide) habs
  rw [signedDecimal]
  split
  · rw [List.length_append, length_asciiBytes, List.length_singleton]
    omega
  · omega

theorem le_of_recordLen {value : DpValue} {prop : DpProp} {n : Nat}
    (h : recordLen value prop = .ok n) : 15 ≤ n := by
  unfold recordLen at h
  split at h
  case h_5 =>
    split at h
    · have hn := Except.ok.inj h
      omega
    · cases h
  case h_6 => cases h
  case h_7 => cases h
  all_goals
    have hn := Except.ok.inj h
    omega

theorem sum_escapeLen_le {s : Bytes} (h : ∀ b ∈ s, escapeLen b ≤ 2) :
    (s.map escapeLen).sum ≤ 2 * s.length := by
  induction s with
  | nil => exact Nat.le_refl 0
  | cons b s ih =>
    obtain ⟨hb, hs⟩ := List.forall_mem_cons.1 h
    have := ih hs
    rw [List.map_cons, List.sum_cons, List.length_cons]
    omega

/-- A record without control characters that are printed with six characters leaves two bytes of
what was counted for it. -/
theorem entryLen_le {dp : DpObj} {prop : DpProp} {n : Nat} (hlen : recordLen dp.value prop = .ok n)
    (hplain : ∀ s, dp.value = .str s → ∀ b ∈ s, escapeLen b ≤ 2) :
    entryLen heap printString dp prop + 2 ≤ n := by
  have hid : (decimal dp.id.toNat).length ≤ 3 :=
    length_decimal_le (by decide) (Nat.lt_trans dp.id.toNat_lt (by decide))
  have hmin := le_of_recordLen hlen
  have hvalue : valueLen heap dp prop + 9 ≤ n := by
    cases hvalue : dp.value with
    | bool b =>
      rw [hvalue] at hlen
      have hn : 20 = n := Except.ok.inj hlen
      simp only [valueLen, hvalue]
      split <;> omega
    | value v =>
      rw [hvalue] at hlen
      have hn : 20 = n := Except.ok.inj hlen
      have hv := length_signedDecimal_le v
      simp only [valueLen, hvalue]
      omega
    | bitmap m =>
      rw [hvalue] at hlen
      have hn : 20 = n := Except.ok.inj hlen
      have hm : (decimal m.toNat).length ≤ 10 :=
        length_decimal_le (by decide) (Nat.lt_trans m.toNat_lt (by decide))
      simp only [valueLen, hvalue]
      omega
    | str s =>
      rw [hvalue] at hlen
      have hn : 2 * s.length + 15 = n := Except.ok.inj hlen
      have hs := sum_escapeLen_le (hplain s hvalue)
      simp only [valueLen, hvalue]
      omega
    | enum e =>
      rw [hvalue] at hlen
      cases prop with
      | enum ppEnum old =>
        rw [recordLen] at hlen
        cases hname : ppEnum[e.toNat]? with
        | none =>
          rw [hname] at hlen
          cases hlen
        | some name =>
          rw [hname] at hlen
          have hn : name.length + 15 = n := Except.ok.inj hlen
          have hget : enumName heap dp.id ppEnum e = name := by
            rw [enumName, List.getD_eq_getElem?_getD, hname, Option.getD_some]
          have hle : (cString name).length ≤ name.length := (List.takeWhile_sublist _).length_le
          simp only [valueLen, hvalue, hget]
          omega
      | _ => cases hlen
    | other type =>
      rw [hvalue] at hlen
      cases hlen
  rw [entryLen]
  split <;> omega

theorem sum_map_add_two_le {α : Type} {f g : α → Nat} {l : List α} (h : ∀ x ∈ l, f x + 2 ≤ g x)
    (hne : l ≠ []) : 2 + (l.map f).sum ≤ (l.map g).sum := by
  have hsum : ∀ l : List α, (∀ x ∈ l, f x + 2 ≤ g x) →
      (l.map f).sum + 2 * l.length ≤ (l.map g).sum := by
    intro l
    induction l with
    | nil => exact fun _ => Nat.le_refl 0
    | cons x l ih =>
      intro h
      obtain ⟨hx, hl⟩ := List.forall_mem_cons.1 h
      have := ih hl
      rw [List.map_cons, List.sum_cons, List.map_cons, List.sum_cons, List.length_cons]
      omega
  have := hsum l h
  have := List.length_pos_iff.2 hne
  omega

theorem exists_timeRoom_eq {dps : List DpObj} {noted : List (DpObj × Nat)}
    (h : ∀ e ∈ noted, jsonEntry dps e.1.id = some e.1) :
    ∃ k, timeRoom noted = 30 * k ∧ (noted.map fun e => timeSize dps e.1.id).sum ≤ 17 * k := by
  induction noted with
  | nil => exact ⟨0, rfl, Nat.le_refl 0⟩
  | cons e noted ih =>
    obtain ⟨hentry, hrest⟩ := List.forall_mem_cons.1 h
    obtain ⟨k, hroom, hsize⟩ := ih hrest
    have hid : (decimal e.1.id.toNat).length ≤ 3 :=
      length_decimal_le (by decide) (Nat.lt_trans e.1.id.toNat_lt (by decide))
    have htime : (decimal e.1.timeStamp.toNat).length ≤ 10 :=
      length_decimal_le (by decide) (Nat.lt_trans e.1.timeStamp.toNat_lt (by decide))
    rw [timeRoom_cons, List.map_cons, List.sum_cons, timeSize, hentry, Option.map_some,
      Option.getD_some]
    by_cases hzero : e.1.timeStamp = 0
    · rw [if_pos hzero, if_pos hzero]
      exact ⟨k, by omega, by omega⟩
    · rw [if_neg hzero, if_neg hzero]
      exact ⟨k + 1, by omega, by omega⟩

theorem jsonEntry_of_nodup {dps : List DpObj} (hnodup : (dps.map DpObj.id).Nodup) {dp : DpObj}
    (hmem : dp ∈ dps) : jsonEntry dps dp.id = some dp := by
  induction dps with
  | nil => cases hmem
  | cons dp' dps ih =>
    rw [List.map_cons, List.nodup_cons] at hnodup
    rw [jsonEntry, List.find?_cons]
    rcases List.mem_cons.1 hmem with rfl | hmem
    · rw [decide_eq_true rfl]
    · have hne : dp'.id ≠ dp.id :=
        fun heq => hnodup.1 (heq ▸ List.mem_map_of_mem hmem)
      rw [decide_eq_false hne]
      exact ih hnodup.2 hmem

/-- **When the estimate is right.** A report fits if no identifier occurs twice, no string has a
control character that is printed with six characters, and the counter does not wrap. -/
theorem roomCond_of_plain {schema : DpSchema} {malloc : Nat → Bool}
    (hnodup : (dpin.entries.map DpObj.id).Nodup)
    (hplain : ∀ dp ∈ dpin.entries, ∀ s, dp.value = .str s → ∀ b ∈ s, escapeLen b ≤ 2)
    (hwrap : ((checkLoop schema.preprocess dpin.reptType dpin.flags malloc 0 dpin.entries
      schema.nodes).2.2.map Prod.snd).sum < 65536) :
    RoomCond env heap printString schema malloc dpin := by
  have hnoted := @checkLoop_noted schema.preprocess dpin.reptType dpin.flags malloc 0 dpin.entries
    schema.nodes
  rw [RoomCond]
  dsimp only at hnoted ⊢
  intro hok hne
  obtain ⟨-, -, hmem⟩ := hnoted hok
  have hentry := fun e he => jsonEntry_of_nodup hnodup (hmem e he).1
  refine ⟨hwrap, fun _ _ => ⟨sum_map_add_two_le (fun e he => ?_) hne, fun hneed => ?_⟩⟩
  · obtain ⟨hmem', node, hnode, hlen⟩ := hmem e he
    rw [recordSize, hentry e he, Option.bind_some, hnode, Option.map_some, Option.getD_some]
    exact entryLen_le hlen (hplain e.1 hmem')
  · obtain ⟨k, hroom, hsize⟩ := exists_timeRoom_eq hentry
    have hpos := hneed.2.1
    omega

end Fits

def labelNode : DpNode where
  desc := { id := 1, mode := .rw, passive := .psvFalse, type := .obj, trig := .pulse }
  prop := .str 3 0 none
  pvStat := .statInvalid
  timeStamp := 0

def labelSchema : DpSchema := ⟨[], false, [labelNode]⟩

def labelReport (s : Bytes) : DpReptIn := ⟨.obj, 0, 1, [⟨1, .str s, 0⟩]⟩

/-- A string of letters fits. -/
theorem fitsBuffers_letters :
    FitsBuffers ⟨true, true, false⟩ (plainHeap []) (fun s => some (jsonString s)) labelSchema
      (fun _ => true) (labelReport [97, 98, 99]) ⟨0, 0, 0, [0], []⟩ := by
  refine (fitsBuffers_iff ?_ ?_ _ _ _ _).2 ?_
  · exact fun s text h => (Option.some.inj h).symm
  · exact ⟨rfl, rfl, rfl, by decide⟩
  · intro _ _
    exact ⟨by decide, fun _ _ => ⟨by decide, fun hneed => absurd hneed.1 (by decide)⟩⟩

/-- A string of control characters becomes three times as long as was counted. -/
theorem not_fitsBuffers_control :
    ¬FitsBuffers ⟨true, true, false⟩ (plainHeap []) (fun s => some (jsonString s)) labelSchema
      (fun _ => true) (labelReport [1, 1, 1]) ⟨0, 0, 0, [0], []⟩ := by
  intro h
  obtain ⟨-, -, hwrites, -⟩ := h (by decide)
  have hrecord := (hwrites (1, 26) (by decide)).2
  exact absurd hrecord (by decide)

end TuyaOpen.Dp
