import TuyaOpen.Basic.Text
import TuyaOpen.Dp.Schema

/-!
# The report of data points

`tuya_iot_dp_obj_report` with what it makes of its memory. The descriptor of a report and the copy
for Bluetooth are allocated and not cleared, or only in part: what they hold before is a parameter,
as are the names that are read behind the end of an enumeration. The writes into the two objects
are recorded with their offsets, so that the copy is modelled as if there were memory behind its
end.

The count of the interface has 16 bits and that of the report 8: only the first entries are looked
at, as many as the low byte says.

## Main results

* `dpReptValidCheck_eq`: the part of the report that all channels share.
* `reportDetermined_iff`: when the report is determined.
* `exists_not_reportDetermined`: a report over Bluetooth writes behind its object.
-/

namespace TuyaOpen.Dp

/-! ### Memory and surroundings -/

/-- The sizes of `size_t`, `dp_rept_valid_t`, `dp_rept_in_t` and `dp_obj_t`. In the descriptor `num`
is at offset 0, `len` at 2 and `timelen` at 4. -/
structure Abi where
  sizeT : Nat
  reptValid : Nat
  reptIn : Nat
  obj : Nat
  four_le : 4 ≤ sizeT
  sizeT_le : sizeT ≤ reptValid
  one_lt : 1 < reptIn

/-- What fresh memory holds: the descriptor, the buffer for the text, and the places of the copied
entries; and the names that are read at an index behind the end of an enumeration. -/
structure HeapContents where
  dpvalid : Nat → Bytes
  dpstr : Nat → Bytes
  bleDps : Nat → DpObj
  pastEnum : UInt8 → UInt32 → Bytes
  length_dpvalid : ∀ n, (dpvalid n).length = n

/-- The surroundings of a report: which channels there are, which allocations succeed (for strings
of the cache, those in each turn of the check), how strings are printed, and what the channels
return. -/
structure ReportEnv where
  isActivated : Bool
  isBleConnected : Bool
  isLanConnected : Bool
  isIotConnected : Bool
  mallocValid : Bool
  mallocStr : Nat → Bool
  mallocBle : Bool
  mallocJson : Bool
  mallocOut : Bool
  printString : Bytes → Option Bytes
  bleReport : List DpObj → OperateRet
  lanReport : Option Bytes → OperateRet
  mqttReport : Bytes → OperateRet

/-- The descriptor after its allocation: the `memset` clears as many bytes as a `size_t` has. -/
def dpvalidInit (abi : Abi) (mem : Bytes) : DpReptValid :=
  let mem := List.replicate abi.sizeT 0 ++ mem.drop abi.sizeT
  { num := mem.headD 0
    len := UInt16.ofNat (beNat (slice mem 2 2).reverse)
    timelen := UInt16.ofNat (beNat (slice mem 4 2).reverse)
    dpid := mem.drop abi.reptValid
    written := [] }

/-! ### The text of a report -/

/-- A number that is printed with `%d`. -/
def signedDecimal (n : Int) : Bytes :=
  if n < 0 then asciiBytes ['-'] ++ decimal n.natAbs else decimal n.natAbs

/-- The name of a value of an enumeration, whatever is read behind its end. -/
def enumName (heap : HeapContents) (id : UInt8) (ppEnum : List Bytes) (e : UInt32) : Bytes :=
  ppEnum.getD e.toNat (heap.pastEnum id e)

def printValue (heap : HeapContents) (printString : Bytes → Option Bytes) (dp : DpObj)
    (prop : DpProp) : Option Bytes :=
  match dp.value, prop with
  | .bool b, _ =>
    some (asciiBytes (if b then ['t', 'r', 'u', 'e'] else ['f', 'a', 'l', 's', 'e']))
  | .value v, _ => some (signedDecimal v.toInt)
  | .bitmap m, _ => some (decimal m.toNat)
  | .str s, _ => (printString s).map cString
  | .enum e, .enum ppEnum _ =>
    some (asciiBytes ['"'] ++ (cString (enumName heap dp.id ppEnum e) ++ asciiBytes ['"']))
  | _, _ => none

/-- The record of a value: `"id":value,`. -/
def recordText (id : UInt8) (value : Bytes) : Bytes :=
  asciiBytes ['"'] ++ (decimal id.toNat ++ (asciiBytes ['"', ':'] ++ (value ++ asciiBytes [','])))

/-- The entry that `dp_rept_json_output` takes for an identifier: the first one. -/
def jsonEntry (dps : List DpObj) (id : UInt8) : Option DpObj := dps.find? fun dp => dp.id = id

def jsonRecords (heap : HeapContents) (printString : Bytes → Option Bytes) (nodes : List DpNode)
    (dps : List DpObj) : List UInt8 → Except OperateRet (List (UInt8 × DpValue × Bytes))
  | [] => .ok []
  | id :: ids =>
    match jsonEntry dps id with
    | none => .error oprtSvcDpIdNotFound
    | some dp =>
      match dpNodeFind nodes dp.id with
      | none => .error oprtSvcDpIdNotFound
      | some node =>
        if dp.value.type ≠ some node.prop.propTp then .error oprtSvcDpTpNotMatch
        else
          match jsonRecords heap printString nodes dps ids with
          | .error rt => .error rt
          | .ok records =>
            match printValue heap printString dp node.prop with
            | none => .ok records
            | some text => .ok ((dp.id, dp.value, recordText dp.id text) :: records)

/-- The text that has been written: the last comma, or the opening brace of a report without records,
is overwritten by the closing brace. -/
def jsonText (records : List (UInt8 × DpValue × Bytes)) : Bytes :=
  (asciiBytes ['\x7b'] ++ (records.map (·.2.2)).flatten).dropLast ++ asciiBytes ['\x7d']

/-- `dp_rept_json_output` for a report of objects: the C string at the start of the buffer, and the
values in it. The offset has 16 bits and so has the size of the buffer: before the offset wraps, the
buffer is overrun. -/
def dpReptJsonOutput (heap : HeapContents) (env : ReportEnv) (nodes : List DpNode)
    (dps : List DpObj) (valid : DpReptValid) :
    Except OperateRet (Bytes × List (UInt8 × DpValue)) :=
  if env.mallocJson = false then .error oprtMallocFailed
  else
    match jsonRecords heap env.printString nodes dps valid.ids with
    | .error rt => .error rt
    | .ok records =>
      let text := jsonText records
      let mem := text ++ 0 :: (heap.dpstr valid.len.toNat).drop (text.length + 1)
      .ok (cString mem, records.map fun r => (r.1, r.2.1))

/-- `dp_rept_json_append` without time, sequence number and type. -/
def dpReptJsonAppend (devid data : Bytes) : Bytes :=
  asciiBytes ['\x7b', '"', 'd', 'p', 's', '"', ':'] ++ (data ++
    (asciiBytes [',', '"', 'd', 'e', 'v', 'I', 'd', '"', ':', '"'] ++ (devid ++
      asciiBytes ['"', '\x7d'])))

/-! ### The copy for Bluetooth -/

/-- The place of an identifier in the copy after the inner loop: the last entry has been copied over
the others and over `old`. -/
def bleEntry (dps : List DpObj) (id : UInt8) (old : DpObj) : DpObj :=
  dps.foldl (fun r dp => if id = dp.id then dp else r) old

def bleRecords (heap : HeapContents) (dps : List DpObj) (ids : List UInt8) : List DpObj :=
  ids.zipIdx.map fun e => bleEntry dps e.1 (heap.bleDps e.2)

structure HeapWrite where
  size : Nat
  off : Nat
  len : Nat
  deriving DecidableEq

def HeapWrite.InBounds (w : HeapWrite) : Prop := w.off + w.len ≤ w.size

def dpidWrites (abi : Abi) (dpscnt : Nat) (written : List Nat) : List HeapWrite :=
  written.map fun i => { size := abi.reptValid + dpscnt, off := abi.reptValid + i, len := 1 }

/-- The writes into the copy. The entries start where the pointer to the head has been advanced by
its size, counted in heads. -/
def bleWrites (abi : Abi) (dps : List DpObj) (ids : List UInt8) : List HeapWrite :=
  ids.zipIdx.flatMap fun e =>
    (dps.filter fun dp => e.1 = dp.id).map fun _ =>
      { size := abi.reptIn + abi.obj * ids.length
        off := abi.reptIn * abi.reptIn + e.2 * abi.obj
        len := abi.obj }

/-! ### The report -/

inductive DpSent
  | ble (dps : List DpObj)
  | lan (out : Option Bytes)
  | mqtt (json : Bytes) (values : List (UInt8 × DpValue))
  deriving DecidableEq

structure ReportOut where
  ret : OperateRet
  nodes : List DpNode
  ids : List UInt8
  sent : Option DpSent
  writes : List HeapWrite

def ReportOut.early (ret : OperateRet) (nodes : List DpNode) : ReportOut where
  ret := ret
  nodes := nodes
  ids := []
  sent := none
  writes := []

/-- The entries of a report as they are handed to the check: the count is cut to 8 bits. -/
def reportIn (dps : List DpObj) (flags : UInt32) : DpReptIn where
  reptType := .obj
  flags := flags
  dpscnt := UInt8.ofNat dps.length
  dps := dps

/-- The channels of `tuya_iot_dp_obj_report`, behind the check. -/
def reportChannels (abi : Abi) (heap : HeapContents) (env : ReportEnv) (schema : DpSchema)
    (dps : List DpObj) (valid : DpReptValid) (out : ReportOut) : ReportOut :=
  if env.isBleConnected then
    if env.mallocBle = false then { out with ret := oprtMallocFailed }
    else
      let records := bleRecords heap dps valid.ids
      { out with
        ret := env.bleReport records
        sent := some (.ble records)
        writes := out.writes ++ bleWrites abi dps valid.ids }
  else
    match dpReptJsonOutput heap env out.nodes dps valid with
    | .error rt => { out with ret := rt }
    | .ok (json, values) =>
      if env.isLanConnected then
        let text := if env.mallocOut then some (dpReptJsonAppend schema.devid json) else none
        { out with ret := env.lanReport text, sent := some (.lan text) }
      else if env.isIotConnected then
        { out with ret := env.mqttReport json, sent := some (.mqtt json values) }
      else out

/-- `tuya_iot_dp_obj_report`. There is a schema unless the device is not known. -/
def dpObjReport (abi : Abi) (heap : HeapContents) (env : ReportEnv) (schema : Option DpSchema)
    (dps : List DpObj) (flags : UInt32) : ReportOut :=
  let nodes := (schema.map (·.nodes)).getD []
  if env.isActivated = false then .early oprtComError nodes
  else if dps = [] then .early oprtInvalidParm nodes
  else
    match schema with
    | none => .early oprtInvalidParm nodes
    | some schema =>
      if env.mallocValid = false then .early oprtMallocFailed nodes
      else
        let valid := dpvalidInit abi (heap.dpvalid (abi.reptValid + dps.length))
        let r := dpReptValidCheck schema env.mallocStr (reportIn dps flags) valid
        let out :=
          { ret := r.1
            nodes := r.2.1
            ids := r.2.2.ids
            sent := none
            writes := dpidWrites abi dps.length r.2.2.written }
        if r.1 ≠ oprtOk then out
        else reportChannels abi heap env schema (reportIn dps flags).entries r.2.2 out

/-! ### The descriptor -/

section Valid

variable {abi : Abi}

theorem dpvalidInit_fields (abi : Abi) (mem : Bytes) :
    (dpvalidInit abi mem).num = 0 ∧ (dpvalidInit abi mem).len = 0 ∧
      (dpvalidInit abi mem).written = [] := by
  obtain ⟨k, hk⟩ := Nat.exists_eq_add_of_le' abi.four_le
  rw [dpvalidInit, hk]
  exact ⟨rfl, rfl, rfl⟩

theorem length_dpid_dpvalidInit (abi : Abi) {mem : Bytes} {n : Nat}
    (h : mem.length = abi.reptValid + n) : (dpvalidInit abi mem).dpid.length = n := by
  have hle := abi.sizeT_le
  simp only [dpvalidInit, List.length_drop, List.length_append, List.length_replicate]
  omega

/-- The descriptor after some entries have been noted: as long as the count does not wrap and the
tail is long enough, the identifiers stand in a row. -/
theorem foldl_note {noted : List (DpObj × Nat)} {valid : DpReptValid}
    (hnum : valid.num.toNat + noted.length < 256)
    (hlen : valid.num.toNat + noted.length ≤ valid.dpid.length) :
    let v := noted.foldl (fun v e => v.note e.1 e.2) valid
    v.num.toNat = valid.num.toNat + noted.length ∧
      v.ids = valid.ids ++ noted.map (·.1.id) ∧
      v.written = valid.written ++ List.range' valid.num.toNat noted.length := by
  dsimp only
  induction noted generalizing valid with
  | nil => exact ⟨rfl, (List.append_nil _).symm, (List.append_nil _).symm⟩
  | cons e noted ih =>
    rw [List.length_cons] at hnum hlen
    have hnext : (valid.note e.1 e.2).num.toNat = valid.num.toNat + 1 := by
      rw [DpReptValid.note, UInt8.toNat_add, UInt8.toNat_one, Nat.mod_eq_of_lt (by omega)]
    have hids : (valid.note e.1 e.2).ids = valid.ids ++ [e.1.id] := by
      have hlt : valid.num.toNat < (valid.dpid.set valid.num.toNat e.1.id).length := by
        rw [List.length_set]
        omega
      rw [DpReptValid.ids, hnext, DpReptValid.note, DpReptValid.ids,
        List.take_succ_eq_append_getElem hlt, List.take_set_of_le (Nat.le_refl _),
        List.getElem_set_self]
    obtain ⟨h1, h2, h3⟩ := @ih (valid.note e.1 e.2) (by omega) (by
      rw [hnext, DpReptValid.note, List.length_set]
      omega)
    refine ⟨?_, ?_, ?_⟩
    · rw [List.foldl_cons, h1, hnext, List.length_cons]
      omega
    · rw [List.foldl_cons, h2, hids, List.append_assoc]
      rfl
    · rw [List.foldl_cons, h3, hnext, DpReptValid.note, List.append_assoc]
      rfl

end Valid

/-! ### What the channels share -/

/-- The check of a report, without the descriptor: the return code, the nodes, and the entries that
are noted. -/
def reportCheck (env : ReportEnv) (schema : DpSchema) (dps : List DpObj) (flags : UInt32) :
    OperateRet × List DpNode × List (DpObj × Nat) :=
  checkLoop schema.preprocess .obj flags env.mallocStr 0 (reportIn dps flags).entries schema.nodes

def reportedIds (env : ReportEnv) (schema : DpSchema) (dps : List DpObj) (flags : UInt32) :
    List UInt8 :=
  (reportCheck env schema dps flags).2.2.map (·.1.id)

/-- The report is accepted: no entry ends the check, and at least one is noted. -/
def Accepted (env : ReportEnv) (schema : DpSchema) (dps : List DpObj) (flags : UInt32) : Prop :=
  (reportCheck env schema dps flags).1 = oprtOk ∧ reportedIds env schema dps flags ≠ []

section Check

variable {abi : Abi} {heap : HeapContents} {env : ReportEnv} {schema : DpSchema}
  {dps : List DpObj} {flags : UInt32}

theorem length_entries_lt (dps : List DpObj) (flags : UInt32) :
    (reportIn dps flags).entries.length < 256 ∧
      (reportIn dps flags).entries.length ≤ dps.length := by
  have hlt := (UInt8.ofNat dps.length).toNat_lt
  rw [DpReptIn.entries, reportIn, List.length_take]
  dsimp only
  omega

theorem length_reportedIds_le :
    (reportedIds env schema dps flags).length ≤ (reportIn dps flags).entries.length := by
  have hsub := @sublist_checkLoop schema.preprocess .obj flags env.mallocStr 0
    (reportIn dps flags).entries schema.nodes
  have hle := hsub.length_le
  rw [List.length_map] at hle
  rw [reportedIds, List.length_map]
  exact hle

/-- **The check of a report.** Whatever fresh memory holds, the code and the nodes are those of the
check, the descriptor holds the identifiers that are noted, and it is written from its start on. -/
theorem dpReptValidCheck_eq :
    let r := dpReptValidCheck schema env.mallocStr (reportIn dps flags)
      (dpvalidInit abi (heap.dpvalid (abi.reptValid + dps.length)))
    (r.1 = oprtOk ↔ Accepted env schema dps flags) ∧
      r.1 = (if (reportCheck env schema dps flags).1 ≠ oprtOk then
          (reportCheck env schema dps flags).1
        else if reportedIds env schema dps flags = [] then oprtSvcDpIdNotFound else oprtOk) ∧
      r.2.1 = (reportCheck env schema dps flags).2.1 ∧
      r.2.2.ids = reportedIds env schema dps flags ∧
      r.2.2.written = List.range (reportedIds env schema dps flags).length := by
  have hinit := dpvalidInit_fields abi (heap.dpvalid (abi.reptValid + dps.length))
  have hdpid := length_dpid_dpvalidInit abi (heap.length_dpvalid (abi.reptValid + dps.length))
  obtain ⟨hlt, hle⟩ := length_entries_lt dps flags
  have hids := @length_reportedIds_le env schema dps flags
  have hnoted : (reportCheck env schema dps flags).2.2.length =
      (reportedIds env schema dps flags).length := (List.length_map _).symm
  have hzero : (dpvalidInit abi (heap.dpvalid (abi.reptValid + dps.length))).num.toNat = 0 := by
    rw [hinit.1]
    rfl
  obtain ⟨hnum, hvids, hwritten⟩ := @foldl_note (reportCheck env schema dps flags).2.2
    (dpvalidInit abi (heap.dpvalid (abi.reptValid + dps.length))) (by omega) (by omega)
  have hempty : (dpvalidInit abi (heap.dpvalid (abi.reptValid + dps.length))).ids = [] := by
    rw [DpReptValid.ids, hzero]
    rfl
  rw [hempty, List.nil_append] at hvids
  rw [hinit.2.2, List.nil_append, hzero, ← List.range_eq_range', hnoted] at hwritten
  rw [hzero, hnoted, Nat.zero_add] at hnum
  have hcheck : dpReptValidCheck schema env.mallocStr (reportIn dps flags)
      (dpvalidInit abi (heap.dpvalid (abi.reptValid + dps.length))) =
      let v := (reportCheck env schema dps flags).2.2.foldl (fun v e => v.note e.1 e.2)
        (dpvalidInit abi (heap.dpvalid (abi.reptValid + dps.length)))
      if (reportCheck env schema dps flags).1 ≠ oprtOk then
        ((reportCheck env schema dps flags).1, (reportCheck env schema dps flags).2.1, v)
      else if v.num = 0 then
        (oprtSvcDpIdNotFound, (reportCheck env schema dps flags).2.1, v)
      else (oprtOk, (reportCheck env schema dps flags).2.1, v) := rfl
  rw [hcheck]
  dsimp only
  by_cases hok : (reportCheck env schema dps flags).1 = oprtOk
  · rw [if_neg (not_not_intro hok), if_neg (not_not_intro hok)]
    by_cases hnil : reportedIds env schema dps flags = []
    · rw [hnil, List.length_nil] at hnum
      rw [if_pos (UInt8.toNat_inj.mp hnum), if_pos hnil]
      exact ⟨⟨fun h => absurd h (by decide : oprtSvcDpIdNotFound ≠ oprtOk),
        fun h => absurd hnil h.2⟩, rfl, rfl, hvids, hwritten⟩
    · have hne : ((reportCheck env schema dps flags).2.2.foldl (fun v e => v.note e.1 e.2)
          (dpvalidInit abi (heap.dpvalid (abi.reptValid + dps.length)))).num ≠ 0 := by
        intro h
        rw [h] at hnum
        exact hnil (List.eq_nil_of_length_eq_zero hnum.symm)
      rw [if_neg hne, if_neg hnil]
      exact ⟨⟨fun _ => ⟨hok, hnil⟩, fun _ => rfl⟩, rfl, rfl, hvids, hwritten⟩
  · rw [if_pos hok, if_pos hok]
    exact ⟨⟨fun h => absurd h hok, fun h => absurd h.1 hok⟩, rfl, rfl, hvids, hwritten⟩

theorem Accepted.entry (h : Accepted env schema dps flags) {id : UInt8}
    (hid : id ∈ reportedIds env schema dps flags) :
    ∃ dp node, jsonEntry (reportIn dps flags).entries id = some dp ∧ dp.id = id ∧
      dp ∈ (reportIn dps flags).entries ∧ dpNodeFind schema.nodes id = some node ∧
      Reportable schema.preprocess node ∧ dp.value.type = some node.prop.propTp := by
  obtain ⟨htypes, hnoted⟩ := of_checkLoop_eq_ok h.1
  obtain ⟨e, he, rfl⟩ := List.mem_map.mp hid
  obtain ⟨node, hnode, hopen, -⟩ := hnoted e he
  have hmem : e.1 ∈ (reportIn dps flags).entries :=
    (sublist_checkLoop _ _ _).subset (List.mem_map.mpr ⟨e, he, rfl⟩)
  have hsome : (jsonEntry (reportIn dps flags).entries e.1.id).isSome := by
    rw [jsonEntry, List.find?_isSome]
    exact ⟨e.1, hmem, decide_eq_true rfl⟩
  obtain ⟨dp, hdp⟩ := Option.isSome_iff_exists.mp hsome
  have hfound := List.find?_some hdp
  have hdpid : dp.id = e.1.id := of_decide_eq_true hfound
  have hdpmem := List.mem_of_find?_eq_some hdp
  refine ⟨dp, node, hdp, hdpid, hdpmem, hnode, hopen, htypes dp hdpmem node ?_⟩
  rw [hdpid]
  exact hnode

end Check

/-! ### The text and fresh memory -/

def PastEnum (value : DpValue) (prop : DpProp) : Prop :=
  prop.propTp = .enum ∧ dpValueCheck value prop = false

section Text

variable {heap heap' : HeapContents} {printString : Bytes → Option Bytes}

theorem printValue_eq {dp : DpObj} {prop : DpProp} (h : ¬PastEnum dp.value prop) :
    printValue heap printString dp prop = printValue heap' printString dp prop := by
  obtain ⟨id, value, timeStamp⟩ := dp
  cases value with
  | enum e =>
    cases prop with
    | enum ppEnum old =>
      have hlt : e.toNat < ppEnum.length := by
        by_contra hge
        exact h ⟨rfl, decide_eq_false hge⟩
      simp only [printValue, enumName, List.getD_eq_getElem?_getD, List.getElem?_eq_getElem hlt,
        Option.getD_some]
    | _ => rfl
  | _ => rfl

/-- Fresh memory in which every name behind the end of an enumeration is `name`. -/
def plainHeap (name : Bytes) : HeapContents where
  dpvalid n := List.replicate n 0
  dpstr _ := []
  bleDps _ := { id := 0, value := .bool false, timeStamp := 0 }
  pastEnum _ _ := name
  length_dpvalid _ := List.length_replicate

theorem printValue_plainHeap {dp : DpObj} {prop : DpProp}
    (htype : dp.value.type = some prop.propTp) :
    (printValue (plainHeap []) printString dp prop = none ∧
        printValue (plainHeap [0x61]) printString dp prop = none ∧ ¬PastEnum dp.value prop) ∨
      ∃ text text', printValue (plainHeap []) printString dp prop = some text ∧
        printValue (plainHeap [0x61]) printString dp prop = some text' ∧
        text.length ≤ text'.length ∧ (PastEnum dp.value prop → text.length < text'.length) := by
  by_cases hpast : PastEnum dp.value prop
  · obtain ⟨id, value, timeStamp⟩ := dp
    cases prop with
    | enum ppEnum old =>
      cases value with
      | enum e =>
        have hge : ppEnum.length ≤ e.toNat := Nat.not_lt.mp (of_decide_eq_false hpast.2)
        have hname : ∀ name, cString (enumName (plainHeap name) id ppEnum e) = cString name := by
          intro name
          rw [enumName, List.getD_eq_getElem?_getD, List.getElem?_eq_none hge]
          rfl
        refine Or.inr ⟨_, _, rfl, rfl, ?_, fun _ => ?_⟩
        · simp only [hname, List.length_append]
          decide
        · simp only [hname, List.length_append]
          decide
      | _ => cases htype
    | _ => cases hpast.1
  · rw [@printValue_eq (plainHeap []) (plainHeap [0x61]) _ _ _ hpast]
    cases printValue (plainHeap [0x61]) printString dp prop with
    | none => exact Or.inl ⟨rfl, rfl, hpast⟩
    | some text => exact Or.inr ⟨text, text, rfl, rfl, Nat.le_refl _, fun h => absurd h hpast⟩

variable {nodes : List DpNode} {dps : List DpObj} {ids : List UInt8}

def ReadsPastEnum (nodes : List DpNode) (dps : List DpObj) (ids : List UInt8) : Prop :=
  ∃ id ∈ ids, ∃ dp node, jsonEntry dps id = some dp ∧ dpNodeFind nodes dp.id = some node ∧
    PastEnum dp.value node.prop

theorem jsonRecords_eq (h : ¬ReadsPastEnum nodes dps ids) :
    jsonRecords heap printString nodes dps ids = jsonRecords heap' printString nodes dps ids := by
  induction ids with
  | nil => rfl
  | cons id ids ih =>
    have hlater : ¬ReadsPastEnum nodes dps ids := by
      rintro ⟨id', hid', hrest⟩
      exact h ⟨id', List.mem_cons_of_mem _ hid', hrest⟩
    rw [jsonRecords, jsonRecords, ih hlater]
    cases hdp : jsonEntry dps id with
    | none => rfl
    | some dp =>
      dsimp only
      cases hnode : dpNodeFind nodes dp.id with
      | none => rfl
      | some node =>
        have hpast : ¬PastEnum dp.value node.prop := fun hpast =>
          h ⟨id, List.mem_cons_self, dp, node, hdp, hnode, hpast⟩
        dsimp only
        rw [@printValue_eq heap heap' _ _ _ hpast]

def Resolved (nodes : List DpNode) (dps : List DpObj) (ids : List UInt8) : Prop :=
  ∀ id ∈ ids, ∃ dp node, jsonEntry dps id = some dp ∧ dpNodeFind nodes dp.id = some node ∧
    dp.value.type = some node.prop.propTp

theorem exists_jsonRecords (h : Resolved nodes dps ids) (heap : HeapContents) :
    ∃ records, jsonRecords heap printString nodes dps ids = .ok records := by
  induction ids with
  | nil => exact ⟨[], rfl⟩
  | cons id ids ih =>
    obtain ⟨dp, node, hdp, hnode, htype⟩ := h id List.mem_cons_self
    obtain ⟨records, hok⟩ := ih fun id' hid' => h id' (List.mem_cons_of_mem _ hid')
    simp only [jsonRecords, hdp, hnode, if_neg (not_not_intro htype), hok]
    cases printValue heap printString dp node.prop with
    | none => exact ⟨records, rfl⟩
    | some text => exact ⟨_, rfl⟩

def recordsLen (records : List (UInt8 × DpValue × Bytes)) : Nat :=
  (records.map (·.2.2)).flatten.length

theorem recordsLen_cons (r : UInt8 × DpValue × Bytes) (records : List (UInt8 × DpValue × Bytes)) :
    recordsLen (r :: records) = r.2.2.length + recordsLen records := by
  rw [recordsLen, List.map_cons, List.flatten_cons, List.length_append]
  rfl

theorem jsonRecords_plainHeap (h : Resolved nodes dps ids) :
    ∃ records records', jsonRecords (plainHeap []) printString nodes dps ids = .ok records ∧
      jsonRecords (plainHeap [0x61]) printString nodes dps ids = .ok records' ∧
      recordsLen records ≤ recordsLen records' ∧
      (ReadsPastEnum nodes dps ids → recordsLen records < recordsLen records') := by
  induction ids with
  | nil =>
    refine ⟨[], [], rfl, rfl, Nat.le_refl _, ?_⟩
    rintro ⟨id, hid, -⟩
    cases hid
  | cons id ids ih =>
    obtain ⟨dp, node, hdp, hnode, htype⟩ := h id List.mem_cons_self
    obtain ⟨records, records', hok, hok', hle, hlt⟩ :=
      ih fun id' hid' => h id' (List.mem_cons_of_mem _ hid')
    have hlater : ReadsPastEnum nodes dps (id :: ids) →
        PastEnum dp.value node.prop ∨ ReadsPastEnum nodes dps ids := by
      rintro ⟨id', hid', dp', node', hdp', hnode', hpast⟩
      rcases List.mem_cons.mp hid' with rfl | hid'
      · rw [hdp] at hdp'
        cases hdp'
        rw [hnode] at hnode'
        cases hnode'
        exact Or.inl hpast
      · exact Or.inr ⟨id', hid', dp', node', hdp', hnode', hpast⟩
    simp only [jsonRecords, hdp, hnode, if_neg (not_not_intro htype), hok, hok']
    rcases @printValue_plainHeap printString dp node.prop htype with
      ⟨hnone, hnone', hpast⟩ | ⟨text, text', hsome, hsome', htext, htext'⟩
    · rw [hnone, hnone']
      exact ⟨records, records', rfl, rfl, hle, fun h => hlt ((hlater h).resolve_left hpast)⟩
    · rw [hsome, hsome']
      refine ⟨_, _, rfl, rfl, ?_, fun h => ?_⟩
      · simp only [recordsLen_cons, recordText, List.length_append]
        omega
      · simp only [recordsLen_cons, recordText, List.length_append]
        rcases hlater h with hpast | hpast
        · have := htext' hpast
          omega
        · have := hlt hpast
          omega

theorem zero_notMem_signedDecimal (n : Int) : 0 ∉ signedDecimal n := by
  rw [signedDecimal]
  split_ifs
  · rw [List.mem_append]
    exact not_or_intro (by decide) (zero_notMem_decimal _)
  · exact zero_notMem_decimal _

theorem zero_notMem_printValue {dp : DpObj} {prop : DpProp} {text : Bytes}
    (h : printValue heap printString dp prop = some text) : 0 ∉ text := by
  unfold printValue at h
  split at h
  · cases h
    split_ifs <;> decide
  · cases h
    exact zero_notMem_signedDecimal _
  · cases h
    exact zero_notMem_decimal _
  · obtain ⟨s, -, rfl⟩ := Option.map_eq_some_iff.mp h
    exact zero_notMem_cString s
  · cases h
    rw [List.mem_append, List.mem_append]
    exact not_or_intro (by decide) (not_or_intro (zero_notMem_cString _) (by decide))
  · cases h

theorem of_jsonRecords_cons {id : UInt8} {records : List (UInt8 × DpValue × Bytes)}
    (h : jsonRecords heap printString nodes dps (id :: ids) = .ok records) :
    ∃ dp node rest, jsonEntry dps id = some dp ∧ dpNodeFind nodes dp.id = some node ∧
      jsonRecords heap printString nodes dps ids = .ok rest ∧
      ((printValue heap printString dp node.prop = none ∧ records = rest) ∨
        ∃ text, printValue heap printString dp node.prop = some text ∧
          records = (dp.id, dp.value, recordText dp.id text) :: rest) := by
  rw [jsonRecords] at h
  cases hdp : jsonEntry dps id with
  | none =>
    rw [hdp] at h
    cases h
  | some dp =>
    rw [hdp] at h
    dsimp only at h
    cases hnode : dpNodeFind nodes dp.id with
    | none =>
      rw [hnode] at h
      cases h
    | some node =>
      rw [hnode] at h
      dsimp only at h
      split_ifs at h
      cases hok : jsonRecords heap printString nodes dps ids with
      | error rt =>
        rw [hok] at h
        cases h
      | ok rest =>
        rw [hok] at h
        dsimp only at h
        refine ⟨dp, node, rest, rfl, hnode, rfl, ?_⟩
        cases hprint : printValue heap printString dp node.prop with
        | none =>
          rw [hprint] at h
          exact Or.inl ⟨rfl, (Except.ok.inj h).symm⟩
        | some text =>
          rw [hprint] at h
          exact Or.inr ⟨text, rfl, (Except.ok.inj h).symm⟩

theorem zero_notMem_jsonRecords {records : List (UInt8 × DpValue × Bytes)}
    (h : jsonRecords heap printString nodes dps ids = .ok records) : ∀ r ∈ records, 0 ∉ r.2.2 := by
  induction ids generalizing records with
  | nil =>
    cases h
    exact nofun
  | cons id ids ih =>
    obtain ⟨dp, node, rest, -, -, hok, ⟨-, rfl⟩ | ⟨text, hprint, rfl⟩⟩ := of_jsonRecords_cons h
    · exact ih hok
    · refine List.forall_mem_cons.mpr ⟨?_, ih hok⟩
      simp only [recordText, List.mem_append]
      exact not_or_intro (by decide) (not_or_intro (zero_notMem_decimal _) (not_or_intro (by decide)
        (not_or_intro (zero_notMem_printValue hprint) (by decide))))

theorem jsonText_spec {records : List (UInt8 × DpValue × Bytes)}
    (h : jsonRecords heap printString nodes dps ids = .ok records) :
    0 ∉ jsonText records ∧ (jsonText records).length = recordsLen records + 1 := by
  refine ⟨fun hmem => ?_, ?_⟩
  · rw [jsonText] at hmem
    rcases List.mem_append.mp hmem with hmem | hmem
    · rcases List.mem_append.mp (List.dropLast_subset _ hmem) with hmem | hmem
      · exact absurd hmem (by decide)
      · obtain ⟨text, htext, hzero⟩ := List.mem_flatten.mp hmem
        obtain ⟨r, hr, rfl⟩ := List.mem_map.mp htext
        exact zero_notMem_jsonRecords h r hr hzero
    · exact absurd hmem (by decide)
  · simp only [jsonText, recordsLen, List.length_append, List.length_dropLast, length_asciiBytes,
      List.length_singleton]
    omega

end Text

/-! ### When a report is determined -/

structure ReachesChannels (env : ReportEnv) (schema : Option DpSchema) (dps : List DpObj)
    (flags : UInt32) (s : DpSchema) : Prop where
  isActivated : env.isActivated = true
  dps_ne : dps ≠ []
  schema_eq : schema = some s
  mallocValid : env.mallocValid = true
  accepted : Accepted env s dps flags

def SendsJson (env : ReportEnv) : Prop :=
  env.isBleConnected = false ∧ env.mallocJson = true ∧
    ((env.isLanConnected = true ∧ env.mallocOut = true) ∨
      (env.isLanConnected = false ∧ env.isIotConnected = true))

/-- The report does not depend on what fresh memory holds, and every write into the descriptor and
into the copy for Bluetooth stays within its object. -/
def ReportDetermined (abi : Abi) (env : ReportEnv) (schema : Option DpSchema) (dps : List DpObj)
    (flags : UInt32) : Prop :=
  (∀ heap heap',
    (dpObjReport abi heap env schema dps flags).ret =
        (dpObjReport abi heap' env schema dps flags).ret ∧
      (dpObjReport abi heap env schema dps flags).ids =
        (dpObjReport abi heap' env schema dps flags).ids ∧
      (dpObjReport abi heap env schema dps flags).sent =
        (dpObjReport abi heap' env schema dps flags).sent) ∧
    ∀ heap, ∀ w ∈ (dpObjReport abi heap env schema dps flags).writes, w.InBounds

section Determined

variable {abi : Abi} {env : ReportEnv} {schema : Option DpSchema} {s : DpSchema}
  {dps : List DpObj} {flags : UInt32}

theorem inBounds_dpidWrites (abi : Abi) (env : ReportEnv) (s : DpSchema) (dps : List DpObj)
    (flags : UInt32) :
    ∀ w ∈ dpidWrites abi dps.length (List.range (reportedIds env s dps flags).length),
      w.InBounds := by
  intro w hw
  obtain ⟨i, hi, rfl⟩ := List.mem_map.mp hw
  have hlt := List.mem_range.mp hi
  have hle := @length_reportedIds_le env s dps flags
  have hle' := (length_entries_lt dps flags).2
  rw [HeapWrite.InBounds]
  dsimp only
  omega

theorem dpObjReport_of_reaches (h : ReachesChannels env schema dps flags s) (heap : HeapContents) :
    ∃ valid : DpReptValid, valid.ids = reportedIds env s dps flags ∧
      dpObjReport abi heap env schema dps flags =
        reportChannels abi heap env s (reportIn dps flags).entries valid
          { ret := oprtOk
            nodes := (reportCheck env s dps flags).2.1
            ids := reportedIds env s dps flags
            sent := none
            writes := dpidWrites abi dps.length
              (List.range (reportedIds env s dps flags).length) } := by
  obtain ⟨hok, -, hnodes, hids, hwritten⟩ := @dpReptValidCheck_eq abi heap env s dps flags
  refine ⟨_, hids, ?_⟩
  rw [h.schema_eq, dpObjReport]
  dsimp only
  rw [if_neg (by rw [h.isActivated]; exact fun h => Bool.noConfusion h), if_neg h.dps_ne,
    if_neg (by rw [h.mallocValid]; exact fun h => Bool.noConfusion h),
    if_neg (not_not_intro (hok.mpr h.accepted)), hok.mpr h.accepted, hnodes, hids, hwritten]

theorem dpObjReport_of_not_reaches (h : ∀ s, ¬ReachesChannels env schema dps flags s) :
    ∃ ret ids, ∀ heap, (dpObjReport abi heap env schema dps flags).ret = ret ∧
      (dpObjReport abi heap env schema dps flags).ids = ids ∧
      (dpObjReport abi heap env schema dps flags).sent = none ∧
      ∀ w ∈ (dpObjReport abi heap env schema dps flags).writes, w.InBounds := by
  simp only [dpObjReport]
  by_cases hact : env.isActivated = false
  · simp only [if_pos hact]
    exact ⟨_, _, fun _ => ⟨rfl, rfl, rfl, nofun⟩⟩
  by_cases hdps : dps = []
  · simp only [if_neg hact, if_pos hdps]
    exact ⟨_, _, fun _ => ⟨rfl, rfl, rfl, nofun⟩⟩
  simp only [if_neg hact, if_neg hdps]
  cases schema with
  | none => exact ⟨_, _, fun _ => ⟨rfl, rfl, rfl, nofun⟩⟩
  | some s =>
    dsimp only
    by_cases hmalloc : env.mallocValid = false
    · simp only [if_pos hmalloc]
      exact ⟨_, _, fun _ => ⟨rfl, rfl, rfl, nofun⟩⟩
    simp only [if_neg hmalloc]
    have hno : ¬Accepted env s dps flags := fun haccepted =>
      h s ⟨Bool.not_eq_false _ |>.mp hact, hdps, rfl, Bool.not_eq_false _ |>.mp hmalloc, haccepted⟩
    refine ⟨if (reportCheck env s dps flags).1 ≠ oprtOk then (reportCheck env s dps flags).1
      else if reportedIds env s dps flags = [] then oprtSvcDpIdNotFound else oprtOk,
      reportedIds env s dps flags, fun heap => ?_⟩
    obtain ⟨hok, hret, -, hids, hwritten⟩ := @dpReptValidCheck_eq abi heap env s dps flags
    have hbounds := inBounds_dpidWrites abi env s dps flags
    rw [← hwritten] at hbounds
    rw [if_pos fun heq => hno (hok.mp heq)]
    exact ⟨hret, hids, rfl, hbounds⟩

theorem reportChannels_nodes (heap : HeapContents) (entries : List DpObj) (valid : DpReptValid)
    (out : ReportOut) :
    (reportChannels abi heap env s entries valid out).nodes = out.nodes ∧
      (reportChannels abi heap env s entries valid out).ids = out.ids := by
  rw [reportChannels]
  by_cases hble : env.isBleConnected = true
  · rw [if_pos hble]
    split_ifs <;> exact ⟨rfl, rfl⟩
  · rw [if_neg hble]
    cases dpReptJsonOutput heap env out.nodes entries valid with
    | error rt => exact ⟨rfl, rfl⟩
    | ok r =>
      dsimp only
      split_ifs <;> exact ⟨rfl, rfl⟩

theorem dpObjReport_nodes (heap : HeapContents) (s : DpSchema) :
    (dpObjReport abi heap env (some s) dps flags).nodes = s.nodes ∨
      (dpObjReport abi heap env (some s) dps flags).nodes =
        (reportCheck env s dps flags).2.1 := by
  rw [dpObjReport]
  dsimp only
  split_ifs
  · exact Or.inl rfl
  · exact Or.inl rfl
  · exact Or.inl rfl
  · exact Or.inr (@dpReptValidCheck_eq abi heap env s dps flags).2.2.1
  · refine Or.inr ((reportChannels_nodes _ _ _ _).1.trans ?_)
    exact (@dpReptValidCheck_eq abi heap env s dps flags).2.2.1

theorem dpReptJsonOutput_eq {heap : HeapContents} {nodes : List DpNode} {entries : List DpObj}
    {valid : DpReptValid} :
    dpReptJsonOutput heap env nodes entries valid =
      if env.mallocJson = false then .error oprtMallocFailed
      else
        match jsonRecords heap env.printString nodes entries valid.ids with
        | .error rt => .error rt
        | .ok records => .ok (jsonText records, records.map fun r => (r.1, r.2.1)) := by
  rw [dpReptJsonOutput]
  cases hok : jsonRecords heap env.printString nodes entries valid.ids with
  | error rt => rfl
  | ok records =>
    dsimp only
    rw [cString_append_zero (jsonText_spec hok).1]

theorem readsPastEnum_iff {nodes nodes' : List DpNode} (h : SameFrames nodes nodes')
    (entries : List DpObj) (ids : List UInt8) :
    ReadsPastEnum nodes' entries ids ↔ ReadsPastEnum nodes entries ids := by
  refine ⟨?_, ?_⟩
  · rintro ⟨id, hid, dp, node', hdp, hnode', hpast⟩
    obtain ⟨node, hnode, hframe⟩ := h.exists_of_some hnode'
    refine ⟨id, hid, dp, node, hdp, hnode, hframe.propTp.symm.trans hpast.1, ?_⟩
    exact (hframe.check _).symm.trans hpast.2
  · rintro ⟨id, hid, dp, node, hdp, hnode, hpast⟩
    obtain ⟨node', hnode', hframe⟩ := h.some hnode
    refine ⟨id, hid, dp, node', hdp, hnode', hframe.propTp.trans hpast.1, ?_⟩
    exact (hframe.check _).trans hpast.2

theorem Accepted.resolved (h : Accepted env s dps flags) :
    Resolved (reportCheck env s dps flags).2.1 (reportIn dps flags).entries
      (reportedIds env s dps flags) := by
  intro id hid
  obtain ⟨dp, node, hdp, hdpid, -, hnode, -, htype⟩ := h.entry hid
  obtain ⟨node', hnode', hframe⟩ := (sameFrames_checkLoop 0 _ s.nodes).some hnode
  rw [← hdpid] at hnode'
  exact ⟨dp, node', hdp, hnode', htype.trans (congrArg some hframe.propTp.symm)⟩

theorem exists_not_inBounds {entries : List DpObj} {ids : List UInt8} (hne : ids ≠ [])
    (hentry : ∀ id ∈ ids, ∃ dp ∈ entries, dp.id = id) :
    ∃ w ∈ bleWrites abi entries ids, ¬w.InBounds := by
  obtain ⟨dp, hdp, hid⟩ := hentry _ (List.getLast_mem hne)
  have hlast : (ids.getLast hne, ids.length - 1) ∈ ids.zipIdx := by
    rw [List.mk_mem_zipIdx_iff_getElem?, ← List.getLast?_eq_getElem?,
      List.getLast?_eq_some_getLast hne]
  refine ⟨_, List.mem_flatMap.mpr ⟨_, hlast, List.mem_map.mpr ⟨dp, ?_, rfl⟩⟩, ?_⟩
  · exact List.mem_filter.mpr ⟨hdp, decide_eq_true hid.symm⟩
  · have hpos : 0 < ids.length := List.length_pos_iff.mpr hne
    have hlt : abi.reptIn < abi.reptIn * abi.reptIn :=
      Nat.lt_mul_self_iff.mpr abi.one_lt
    have hmul : (ids.length - 1) * abi.obj + abi.obj = abi.obj * ids.length := by
      rw [← Nat.succ_mul, Nat.succ_eq_add_one, Nat.sub_add_cancel hpos, Nat.mul_comm]
    rw [HeapWrite.InBounds]
    dsimp only
    omega

theorem not_inBounds_of_ble (h : ReachesChannels env schema dps flags s)
    (hble : env.isBleConnected = true) (hmalloc : env.mallocBle = true) (heap : HeapContents) :
    ∃ w ∈ (dpObjReport abi heap env schema dps flags).writes, ¬w.InBounds := by
  obtain ⟨valid, hids, hreport⟩ := @dpObjReport_of_reaches abi _ _ _ _ _ h heap
  have hentry : ∀ id ∈ reportedIds env s dps flags, ∃ dp ∈ (reportIn dps flags).entries,
      dp.id = id := by
    intro id hid
    obtain ⟨dp, -, -, hdpid, hdp, -⟩ := h.accepted.entry hid
    exact ⟨dp, hdp, hdpid⟩
  obtain ⟨w, hw, hout⟩ := @exists_not_inBounds abi _ _ h.accepted.2 hentry
  refine ⟨w, ?_, hout⟩
  rw [hreport, reportChannels, if_pos hble,
    if_neg (by rw [hmalloc]; exact fun h => Bool.noConfusion h), hids]
  exact List.mem_append_right _ hw

theorem sent_of_sendsJson (h : ReachesChannels env schema dps flags s) (hsend : SendsJson env)
    {heap : HeapContents} {records : List (UInt8 × DpValue × Bytes)}
    (hok : jsonRecords heap env.printString (reportCheck env s dps flags).2.1
      (reportIn dps flags).entries (reportedIds env s dps flags) = .ok records) :
    (dpObjReport abi heap env schema dps flags).sent =
      if env.isLanConnected then some (.lan (some (dpReptJsonAppend s.devid (jsonText records))))
      else some (.mqtt (jsonText records) (records.map fun r => (r.1, r.2.1))) := by
  obtain ⟨hble, hmalloc, hchannel⟩ := hsend
  obtain ⟨valid, hids, hreport⟩ := @dpObjReport_of_reaches abi _ _ _ _ _ h heap
  rw [hreport, reportChannels, if_neg (by rw [hble]; exact Bool.false_ne_true),
    dpReptJsonOutput_eq, if_neg (by rw [hmalloc]; exact fun h => Bool.noConfusion h), hids, hok]
  dsimp only
  rcases hchannel with ⟨hlan, hout⟩ | ⟨hlan, hiot⟩
  · rw [if_pos hlan, if_pos hlan, if_pos hout]
  · rw [if_neg (by rw [hlan]; exact Bool.false_ne_true), if_pos hiot,
      if_neg (by rw [hlan]; exact Bool.false_ne_true)]

theorem exists_sent_ne (h : ReachesChannels env schema dps flags s) (hsend : SendsJson env)
    (hpast : ReadsPastEnum s.nodes (reportIn dps flags).entries (reportedIds env s dps flags)) :
    (dpObjReport abi (plainHeap []) env schema dps flags).sent ≠
      (dpObjReport abi (plainHeap [0x61]) env schema dps flags).sent := by
  obtain ⟨records, records', hok, hok', -, hlt⟩ :=
    @jsonRecords_plainHeap env.printString _ _ _ h.accepted.resolved
  have hlen := hlt ((readsPastEnum_iff (sameFrames_checkLoop 0 _ s.nodes) _ _).mpr hpast)
  have hne : jsonText records ≠ jsonText records' := by
    intro heq
    have := congrArg List.length heq
    rw [(jsonText_spec hok).2, (jsonText_spec hok').2] at this
    omega
  rw [sent_of_sendsJson h hsend hok, sent_of_sendsJson h hsend hok']
  by_cases hlan : env.isLanConnected = true
  · rw [if_pos hlan, if_pos hlan]
    intro heq
    have htext := Option.some.inj (DpSent.lan.inj (Option.some.inj heq))
    rw [dpReptJsonAppend, dpReptJsonAppend] at htext
    exact hne (List.append_cancel_right (List.append_cancel_left htext))
  · rw [if_neg hlan, if_neg hlan]
    intro heq
    exact hne (DpSent.mqtt.inj (Option.some.inj heq)).1

/-- Where nothing is copied for Bluetooth and no name from behind the end of an enumeration is sent,
the channels do not depend on what fresh memory holds, and write nothing. -/
theorem reportChannels_eq {heap heap' : HeapContents} {valid valid' : DpReptValid}
    {entries : List DpObj} {out : ReportOut} (hids : valid'.ids = valid.ids)
    (hresolved : Resolved out.nodes entries valid.ids)
    (hble : ¬(env.isBleConnected = true ∧ env.mallocBle = true))
    (hjson : ¬(SendsJson env ∧ ReadsPastEnum out.nodes entries valid.ids)) :
    reportChannels abi heap env s entries valid out =
        reportChannels abi heap' env s entries valid' out ∧
      (reportChannels abi heap env s entries valid out).writes = out.writes := by
  rw [reportChannels, reportChannels]
  by_cases hconn : env.isBleConnected = true
  · have hmalloc : env.mallocBle = false := Bool.not_eq_true _ |>.mp fun h => hble ⟨hconn, h⟩
    rw [if_pos hconn, if_pos hconn, if_pos hmalloc, if_pos hmalloc]
    exact ⟨rfl, rfl⟩
  rw [if_neg hconn, if_neg hconn, dpReptJsonOutput_eq, dpReptJsonOutput_eq, hids]
  by_cases hmalloc : env.mallocJson = false
  · rw [if_pos hmalloc, if_pos hmalloc]
    exact ⟨rfl, rfl⟩
  rw [if_neg hmalloc, if_neg hmalloc]
  obtain ⟨records, hok⟩ := @exists_jsonRecords env.printString _ _ _ hresolved heap
  obtain ⟨records', hok'⟩ := @exists_jsonRecords env.printString _ _ _ hresolved heap'
  rw [hok, hok']
  dsimp only
  refine ⟨?_, by split_ifs <;> rfl⟩
  by_cases hpast : ReadsPastEnum out.nodes entries valid.ids
  · -- The text may differ, so that it must not be sent.
    have hsend : ¬SendsJson env := fun hsend => hjson ⟨hsend, hpast⟩
    have hchannel : ¬((env.isLanConnected = true ∧ env.mallocOut = true) ∨
        (env.isLanConnected = false ∧ env.isIotConnected = true)) := fun h =>
      hsend ⟨Bool.not_eq_true _ |>.mp hconn, Bool.not_eq_false _ |>.mp hmalloc, h⟩
    by_cases hlan : env.isLanConnected = true
    · have hout : ¬env.mallocOut = true := fun h => hchannel (Or.inl ⟨hlan, h⟩)
      rw [if_pos hlan, if_pos hlan, if_neg hout, if_neg hout]
    · have hiot : ¬env.isIotConnected = true := fun h =>
        hchannel (Or.inr ⟨Bool.not_eq_true _ |>.mp hlan, h⟩)
      rw [if_neg hlan, if_neg hlan, if_neg hiot, if_neg hiot]
  · have hsame := hok.symm.trans ((@jsonRecords_eq heap heap' _ _ _ _ hpast).trans hok')
    rw [Except.ok.inj hsame]

/-- **The report as a function of its inputs.** A report does not depend on what fresh memory holds,
and stays within its objects, if and only if it does not come to its channels; or it is not copied
for Bluetooth, and in a text that is sent no name is read behind the end of an enumeration. -/
theorem reportDetermined_iff (abi : Abi) (env : ReportEnv) (schema : Option DpSchema)
    (dps : List DpObj) (flags : UInt32) :
    ReportDetermined abi env schema dps flags ↔
      ∀ s, ReachesChannels env schema dps flags s →
        ¬(env.isBleConnected = true ∧ env.mallocBle = true) ∧
          ¬(SendsJson env ∧ ReadsPastEnum s.nodes (reportIn dps flags).entries
            (reportedIds env s dps flags)) := by
  refine ⟨fun h s hs => ⟨?_, ?_⟩, fun h => ?_⟩
  · rintro ⟨hble, hmalloc⟩
    obtain ⟨w, hw, hout⟩ := @not_inBounds_of_ble abi _ _ _ _ _ hs hble hmalloc (plainHeap [])
    exact hout (h.2 _ w hw)
  · rintro ⟨hsend, hpast⟩
    exact exists_sent_ne hs hsend hpast (h.1 _ _).2.2
  by_cases hreach : ∃ s, ReachesChannels env schema dps flags s
  · obtain ⟨s, hs⟩ := hreach
    obtain ⟨hble, hjson⟩ := h s hs
    rw [← readsPastEnum_iff (sameFrames_checkLoop 0 _ s.nodes)] at hjson
    have hreport : ∀ heap heap',
        dpObjReport abi heap env schema dps flags = dpObjReport abi heap' env schema dps flags ∧
          (dpObjReport abi heap env schema dps flags).writes = dpidWrites abi dps.length
            (List.range (reportedIds env s dps flags).length) := by
      intro heap heap'
      obtain ⟨valid, hids, hreport⟩ := @dpObjReport_of_reaches abi _ _ _ _ _ hs heap
      obtain ⟨valid', hids', hreport'⟩ := @dpObjReport_of_reaches abi _ _ _ _ _ hs heap'
      rw [hreport, hreport']
      refine reportChannels_eq (hids'.trans hids.symm) ?_ hble ?_
      · rw [hids]
        exact hs.accepted.resolved
      · rw [hids]
        exact hjson
    refine ⟨fun heap heap' => ?_, fun heap => ?_⟩
    · rw [(hreport heap heap').1]
      exact ⟨rfl, rfl, rfl⟩
    · rw [(hreport heap heap).2]
      exact inBounds_dpidWrites abi env s dps flags
  · obtain ⟨ret, ids, hreport⟩ := @dpObjReport_of_not_reaches abi env schema dps flags
      fun s hs => hreach ⟨s, hs⟩
    refine ⟨fun heap heap' => ?_, fun heap => (hreport heap).2.2.2⟩
    obtain ⟨hret, hids, hsent, -⟩ := hreport heap
    obtain ⟨hret', hids', hsent', -⟩ := hreport heap'
    exact ⟨hret.trans hret'.symm, hids.trans hids'.symm, hsent.trans hsent'.symm⟩

end Determined

/-! ### A report over Bluetooth -/

def abi32 : Abi where
  sizeT := 4
  reptValid := 12
  reptIn := 20
  obj := 12
  four_le := by decide
  sizeT_le := by decide
  one_lt := by decide

def bleEnv : ReportEnv where
  isActivated := true
  isBleConnected := true
  isLanConnected := false
  isIotConnected := true
  mallocValid := true
  mallocStr _ := true
  mallocBle := true
  mallocJson := true
  mallocOut := true
  printString s := some s
  bleReport _ := oprtOk
  lanReport _ := oprtOk
  mqttReport _ := oprtOk

def switchNode : DpNode where
  desc := { id := 1, mode := .rw, passive := .psvFalse, type := .obj, trig := .pulse }
  prop := .bool false
  pvStat := .statInvalid
  timeStamp := 0

def switchSchema : DpSchema where
  devid := asciiBytes ['d']
  preprocess := false
  nodes := [switchNode]

def switchOn : DpObj := { id := 1, value := .bool true, timeStamp := 0 }

/-- A report of a switch over Bluetooth writes behind its object. -/
theorem exists_not_reportDetermined :
    ∃ abi env schema dps flags, ¬ReportDetermined abi env schema dps flags := by
  refine ⟨abi32, bleEnv, some switchSchema, [switchOn], 0, fun h => ?_⟩
  have hwrite : { size := 32, off := 400, len := 12 } ∈
      (dpObjReport abi32 (plainHeap []) bleEnv (some switchSchema) [switchOn] 0).writes := by
    decide +kernel
  exact absurd (h.2 (plainHeap []) _ hwrite) (by rw [HeapWrite.InBounds]; decide)

end TuyaOpen.Dp
