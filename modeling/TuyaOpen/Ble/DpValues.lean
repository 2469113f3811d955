import TuyaOpen.Basic.Json
import TuyaOpen.Ble.Klv
import TuyaOpen.Ble.Packet
import TuyaOpen.Dp.Schema
import TuyaOpen.Utilities.Base64

/-!
# Values of data points over BLE

`__make_obj_dp_klv_list` puts the values of a report into a KLV list, each with a width of its own:
a value and a bitmap take four bytes, a boolean one, and an enumeration one, two or four by the size
of its index. `ble_dp_req` reads the records of a command and makes a JSON object of them. It takes
the first byte of an enumeration for the index and does not compare it with the number of names, it
reads every bitmap as a signed integer, and it does not compare the length of a record with the
width of its type.

Memory can be allocated here. What `tuya_iot_dp_parse` makes of the object is not part of this
module.
-/

namespace TuyaOpen.Ble

open TuyaOpen.Dp TuyaOpen.Utilities

/-! ### Reports -/

/-- `new_type` and the `new_len` bytes at `new_data` in `__make_obj_dp_klv_list`. -/
structure DpData where
  type : UInt8
  data : Bytes
  length_data_lt : data.length < 65536

theorem length_take_u16_lt (bs : Bytes) (n : Nat) : (bs.take (u16 n)).length < 65536 := by
  have hle := List.length_take_le (u16 n) bs
  have hlt : u16 n < 65536 := by
    rw [u16]
    omega
  omega

theorem length_leBytes_four_lt (n : Nat) : (leBytes 4 n).length < 65536 := by
  rw [leBytes, List.length_reverse, length_beBytes]
  decide

/-- The `switch` of `__make_obj_dp_klv_list`. Of the four bytes of a boolean the last three belong
to the union that it is in. They are not looked at afterwards, and are zero here. -/
def dpData : DpValue → Option DpData
  | .bool dpBool => some ⟨dtBool, leBytes 4 (if dpBool then 1 else 0), length_leBytes_four_lt _⟩
  | .value dpValue => some ⟨dtValue, leBytes 4 dpValue.toUInt32.toNat, length_leBytes_four_lt _⟩
  | .str dpStr =>
    some ⟨dtString, (cString dpStr).take (u16 (cString dpStr).length), length_take_u16_lt _ _⟩
  | .enum dpEnum => some ⟨dtEnum, leBytes 4 dpEnum.toNat, length_leBytes_four_lt _⟩
  | .bitmap dpBitmap => some ⟨dtBitmap, leBytes 4 dpBitmap.toNat, length_leBytes_four_lt _⟩
  | .other _ => none

/-- `__make_obj_dp_klv_list` for the entries `dps` of a report. -/
def makeObjDpKlvList (malloc : Nat → Bool) : List DpObj → List KlvNode → Option (List KlvNode)
  | [], pNode => some pNode
  | dp :: dps, pNode =>
    match dpData dp.value with
    | none => makeObjDpKlvList malloc dps pNode
    | some d =>
      match makeKlvList malloc pNode dp.id d.type d.data d.length_data_lt with
      | none => none
      | some pNode => makeObjDpKlvList malloc dps pNode

/-! ### Commands -/

/-- `FRM_DP_CMD_SEND_V4`. -/
def frmDpCmdSendV4 : UInt16 := 0x0027

/-- The member that `ble_dp_req` adds to `dps` for a node, if any. There is no result when it reads
bytes that the node does not have, or a name that the schema does not have. -/
def dpMember (nodes : List DpNode) (node : KlvNode) : Option (Option (Bytes × Json)) :=
  let dpIdStr := decimal node.id.toNat
  if node.type = dtRaw then some (some (dpIdStr, .string (tuyaBase64Encode node.data)))
  else if node.type = dtBool then
    match node.data[0]? with
    | none => none
    | some b => some (some (dpIdStr, .bool (b ≠ 0)))
  else if node.type = dtBitmap ∨ node.type = dtValue then
    match readSpan node.data 0 4 with
    | none => none
    | some w => some (some (dpIdStr, .number (UInt32.ofNat (beNat w)).toInt32.toInt 0))
  else if node.type = dtEnum then
    match node.data[0]? with
    | none => none
    | some val =>
      match dpNodeFind nodes node.id with
      | none => some none
      | some dpnode =>
        match dpnode.prop with
        | .enum ppEnum _ =>
          match ppEnum[val.toNat]? with
          | none => none
          | some name => some (some (dpIdStr, .string name))
        | _ => none
  else if node.type = dtString then some (some (dpIdStr, .string (cString node.data)))
  else some none

def dpMembers (nodes : List DpNode) : List KlvNode → Option (List (Bytes × Json))
  | [] => some []
  | node :: list =>
    match dpMember nodes node with
    | none => none
    | some member =>
      match dpMembers nodes list with
      | none => none
      | some members => some (member.toList ++ members)

/-- What `ble_dp_req` ends with: an error, or the members of `dps`, which `tuya_iot_dp_parse`
gets. -/
inductive DpReqOutcome
  | ret (rt : OperateRet)
  | parse (dps : List (Bytes × Json))

/-- `ble_dp_req` for the nodes of the schema. The first five bytes go into the response. -/
def bleDpReq (nodes : List DpNode) (req : BlePacket) : Option DpReqOutcome :=
  if req.type = frmDpCmdSendV4 then
    match readSpan req.data 0 5 with
    | none => none
    | some _ =>
      match data2Klvlist (fun _ => true) (req.data.drop 5) with
      | none => none
      | some (rt, list) =>
        if rt ≠ oprtOk then some (.ret oprtCjsonParseErr)
        else
          match dpMembers nodes (list.getD []) with
          | none => none
          | some dps => some (.parse dps)
  else some (.ret oprtNotSupported)

/-! ### Statement -/

/-- The member has the identifier of the entry and its value; for an enumeration, the name that the
schema has for its index. -/
def SameValue (nodes : List DpNode) (dp : DpObj) (member : Bytes × Json) : Prop :=
  member.1 = decimal dp.id.toNat ∧
    match dp.value with
    | .bool dpBool => member.2 = .bool dpBool
    | .value dpValue => member.2 = .number dpValue.toInt 0
    | .str dpStr => member.2 = .string (cString dpStr)
    | .enum dpEnum => ∃ dpnode ppEnum value name, dpNodeFind nodes dp.id = some dpnode ∧
        dpnode.prop = .enum ppEnum value ∧ ppEnum[dpEnum.toNat]? = some name ∧
        member.2 = .string name
    | .bitmap dpBitmap => member.2 = .number dpBitmap.toNat 0
    | .other _ => False

/-- A command with the records that are written for a report gives the values of the report. -/
def Survives (nodes : List DpNode) (dps : List DpObj) : Prop :=
  ∀ sn timeStamp query flag list bytes sn' req,
    makeObjDpKlvList (fun _ => true) dps [] = some list →
    klvlist2Data (fun _ => true) sn timeStamp query flag list = some (oprtOk, some bytes, sn') →
    req.type = frmDpCmdSendV4 → 5 ≤ req.data.length →
    req.data.drop 5 = bytes.drop (klvHeadLen timeStamp) →
      ∃ members, bleDpReq nodes req = some (.parse members) ∧
        List.Forall₂ (SameValue nodes) dps members

/-- The index that the first byte of an enumeration on the wire stands for. -/
def wireIndex (dpEnum : UInt32) : Nat :=
  if dpEnum.toNat ≤ 0xff then dpEnum.toNat
  else if dpEnum.toNat ≤ 0xffff then dpEnum.toNat / 256
  else dpEnum.toNat / 16777216

/-- The value goes over the wire as it is: a string fits into a record, a bitmap into the range of
`int`, and the schema has the name of an index where the first byte of the index points. -/
def ValueSurvives (nodes : List DpNode) (dp : DpObj) : Prop :=
  match dp.value with
  | .bool _ => True
  | .value _ => True
  | .str dpStr => (cString dpStr).length < 65536
  | .enum dpEnum => ∃ dpnode ppEnum value name, dpNodeFind nodes dp.id = some dpnode ∧
      dpnode.prop = .enum ppEnum value ∧ ppEnum[dpEnum.toNat]? = some name ∧
      ppEnum[wireIndex dpEnum]? = some name
  | .bitmap dpBitmap => dpBitmap.toNat < 2147483648
  | .other _ => False

def RecordReadable (nodes : List DpNode) (node : KlvNode) : Prop :=
  (node.type = dtBool → node.data ≠ []) ∧
    (node.type = dtBitmap ∨ node.type = dtValue → 4 ≤ node.data.length) ∧
    (node.type = dtEnum → node.data ≠ [] ∧ ∀ dpnode, dpNodeFind nodes node.id = some dpnode →
      ∃ ppEnum value, dpnode.prop = .enum ppEnum value ∧
        (node.data.getD 0 0).toNat < ppEnum.length)

/-- A command has the five bytes of its head, and if records follow, they are readable. -/
def ReadsInside (nodes : List DpNode) (req : BlePacket) : Prop :=
  req.type = frmDpCmdSendV4 → 5 ≤ req.data.length ∧
    ∀ recs, req.data.drop 5 = klvRecords recs → ∀ node ∈ recs, RecordReadable nodes node

/-! ### Reading -/

section Reading

variable {nodes : List DpNode} {node : KlvNode} {list : List KlvNode} {req : BlePacket}

theorem dpMember_bool (h : node.type = dtBool) (b : UInt8) (rest : Bytes)
    (hdata : node.data = b :: rest) :
    dpMember nodes node = some (some (decimal node.id.toNat, .bool (b ≠ 0))) := by
  rw [dpMember, if_neg (by rw [h]; decide), if_pos h, hdata]
  rfl

theorem dpMember_word (h : node.type = dtBitmap ∨ node.type = dtValue) {w : Bytes}
    (hdata : readSpan node.data 0 4 = some w) :
    dpMember nodes node =
      some (some (decimal node.id.toNat, .number (UInt32.ofNat (beNat w)).toInt32.toInt 0)) := by
  have hraw : node.type ≠ dtRaw := by
    rcases h with h | h <;> rw [h] <;> decide
  have hbool : node.type ≠ dtBool := by
    rcases h with h | h <;> rw [h] <;> decide
  rw [dpMember, if_neg hraw, if_neg hbool, if_pos h, hdata]

theorem dpMember_string (h : node.type = dtString) :
    dpMember nodes node = some (some (decimal node.id.toNat, .string (cString node.data))) := by
  have hword : ¬(node.type = dtBitmap ∨ node.type = dtValue) := by
    rw [h]
    decide
  rw [dpMember, if_neg (by rw [h]; decide), if_neg (by rw [h]; decide), if_neg hword,
    if_neg (by rw [h]; decide), if_pos h]

theorem dpMember_enum (h : node.type = dtEnum) (val : UInt8) (rest : Bytes)
    (hdata : node.data = val :: rest) :
    (dpNodeFind nodes node.id = none → dpMember nodes node = some none) ∧
      ∀ dpnode, dpNodeFind nodes node.id = some dpnode →
        (∀ ppEnum value name, dpnode.prop = .enum ppEnum value → ppEnum[val.toNat]? = some name →
          dpMember nodes node = some (some (decimal node.id.toNat, .string name))) ∧
        ((∀ ppEnum value, dpnode.prop = .enum ppEnum value → ppEnum[val.toNat]? = none) →
          dpMember nodes node = none) := by
  have hword : ¬(node.type = dtBitmap ∨ node.type = dtValue) := by
    rw [h]
    decide
  have hzero : node.data[0]? = some val := by
    rw [hdata]
    rfl
  rw [dpMember, if_neg (by rw [h]; decide), if_neg (by rw [h]; decide), if_neg hword, if_pos h,
    hzero]
  dsimp only
  refine ⟨fun hnone => by rw [hnone], fun dpnode hfind => ?_⟩
  rw [hfind]
  dsimp only
  refine ⟨fun ppEnum value name hprop hname => by rw [hprop]; dsimp only; rw [hname], fun hno => ?_⟩
  cases hprop : dpnode.prop with
  | enum ppEnum value =>
    dsimp only
    rw [hno ppEnum value hprop]
  | _ => rfl

theorem dpMember_isSome_iff : (dpMember nodes node).isSome ↔ RecordReadable nodes node := by
  have hdistinct : dtBool ≠ dtBitmap ∧ dtBool ≠ dtValue ∧ dtBool ≠ dtEnum ∧ dtEnum ≠ dtBitmap ∧
      dtEnum ≠ dtValue := by decide
  unfold RecordReadable
  by_cases hbool : node.type = dtBool
  · cases hdata : node.data with
    | nil =>
      refine iff_of_false ?_ fun h => h.1 hbool rfl
      rw [dpMember, if_neg (by rw [hbool]; decide), if_pos hbool, hdata]
      exact Bool.false_ne_true
    | cons b rest =>
      rw [dpMember_bool hbool b rest hdata, hbool]
      simp [hdistinct]
  by_cases hword : node.type = dtBitmap ∨ node.type = dtValue
  · have henum : node.type ≠ dtEnum := by
      rcases hword with h | h <;> rw [h] <;> decide
    by_cases hlen : 4 ≤ node.data.length
    · rw [dpMember_word hword (readSpan_of_le (by omega))]
      exact iff_of_true rfl ⟨fun h => absurd h hbool, fun _ => hlen, fun h => absurd h henum⟩
    · refine iff_of_false ?_ fun h => hlen (h.2.1 hword)
      have hraw : node.type ≠ dtRaw := by
        rcases hword with h | h <;> rw [h] <;> decide
      rw [dpMember, if_neg hraw, if_neg hbool, if_pos hword, readSpan_eq_none (by omega)]
      exact Bool.false_ne_true
  by_cases henum : node.type = dtEnum
  · have hraw : node.type ≠ dtRaw := by
      rw [henum]
      decide
    cases hdata : node.data with
    | nil =>
      refine iff_of_false ?_ fun h => (h.2.2 henum).1 rfl
      rw [dpMember, if_neg hraw, if_neg hbool, if_neg hword, if_pos henum, hdata]
      exact Bool.false_ne_true
    | cons val rest =>
      obtain ⟨hunknown, hknown⟩ := @dpMember_enum nodes node henum val rest hdata
      have hget : (val :: rest).getD 0 0 = val := rfl
      rw [hget]
      cases hfind : dpNodeFind nodes node.id with
      | none =>
        rw [hunknown hfind]
        exact iff_of_true rfl ⟨fun h => absurd h hbool, fun h => absurd h hword,
          fun _ => ⟨List.cons_ne_nil _ _, fun dpnode h => by cases h⟩⟩
      | some dpnode =>
        obtain ⟨hname, hno⟩ := hknown dpnode hfind
        by_cases hin : ∃ ppEnum value, dpnode.prop = .enum ppEnum value ∧
            val.toNat < ppEnum.length
        · obtain ⟨ppEnum, value, hprop, hlt⟩ := hin
          rw [hname ppEnum value _ hprop (List.getElem?_eq_getElem hlt)]
          refine iff_of_true rfl ⟨fun h => absurd h hbool, fun h => absurd h hword,
            fun _ => ⟨List.cons_ne_nil _ _, fun dpnode' h => ?_⟩⟩
          obtain rfl := Option.some.inj h
          exact ⟨ppEnum, value, hprop, hlt⟩
        · refine iff_of_false ?_ fun h => hin ((h.2.2 henum).2 dpnode rfl)
          rw [hno fun ppEnum value hprop => ?_]
          · exact Bool.false_ne_true
          · rw [List.getElem?_eq_none]
            exact Nat.not_lt.mp fun hlt => hin ⟨ppEnum, value, hprop, hlt⟩
  · refine iff_of_true ?_ ⟨fun h => absurd h hbool, fun h => absurd h hword,
      fun h => absurd h henum⟩
    rw [dpMember]
    by_cases hraw : node.type = dtRaw
    · rw [if_pos hraw]
      rfl
    · rw [if_neg hraw, if_neg hbool, if_neg hword, if_neg henum]
      split_ifs <;> rfl

theorem dpMembers_isSome_iff :
    (dpMembers nodes list).isSome ↔ ∀ node ∈ list, RecordReadable nodes node := by
  induction list with
  | nil => simp [dpMembers]
  | cons node list ih =>
    rw [List.forall_mem_cons, ← ih, ← dpMember_isSome_iff, dpMembers]
    cases dpMember nodes node with
    | none => simp
    | some member => cases dpMembers nodes list <;> simp

theorem data2Klvlist_req (hlen : req.data.length < 65536) :
    ∃ rt out, data2Klvlist (fun _ => true) (req.data.drop 5) = some (rt, out) ∧
      (rt = oprtOk ↔ ∃ recs, recs ≠ [] ∧ req.data.drop 5 = klvRecords recs) ∧
      ∀ recs, recs ≠ [] → req.data.drop 5 = klvRecords recs → out = some recs.reverse := by
  have hshort : (req.data.drop 5).length < 4294967296 := by
    rw [List.length_drop]
    omega
  have halloc (node : KlvNode) : Allocatable (fun _ => true) node := ⟨rfl, fun _ => rfl⟩
  obtain ⟨rt, out, hparse, hok, hout⟩ := data2Klvlist_spec (fun _ => true) hshort
  refine ⟨rt, out, hparse, hok.trans ?_, fun recs hne hdata => ?_⟩
  · constructor
    · rintro ⟨recs, hne, hdata, -⟩
      exact ⟨recs, hne, hdata⟩
    · rintro ⟨recs, hne, hdata⟩
      exact ⟨recs, hne, hdata, fun node _ => halloc node⟩
  · exact hout recs ⟨hne, hdata, fun node _ => halloc node⟩

theorem bleDpReq_of_records {recs : List KlvNode} (htype : req.type = frmDpCmdSendV4)
    (hhead : 5 ≤ req.data.length) (hne : recs ≠ []) (hdata : req.data.drop 5 = klvRecords recs) :
    bleDpReq nodes req = (dpMembers nodes recs.reverse).map .parse := by
  obtain ⟨rt, out, hparse, hok, hout⟩ := @data2Klvlist_req req req.length_data_lt
  have hrt : rt = oprtOk := hok.mpr ⟨recs, hne, hdata⟩
  rw [bleDpReq, if_pos htype, readSpan_of_le (by omega)]
  dsimp only
  rw [hparse]
  dsimp only
  rw [if_neg (not_not.mpr hrt), hout recs hne hdata, Option.getD_some]
  cases dpMembers nodes recs.reverse <;> rfl

/-- **A command is read inside its records**, with names that exist, just when it has its head and
every record of it is readable. -/
theorem bleDpReq_isSome_iff : (bleDpReq nodes req).isSome ↔ ReadsInside nodes req := by
  by_cases htype : req.type = frmDpCmdSendV4
  swap
  · rw [bleDpReq, if_neg htype]
    exact iff_of_true rfl fun h => absurd h htype
  by_cases hhead : 5 ≤ req.data.length
  swap
  · rw [bleDpReq, if_pos htype, readSpan_eq_none (by omega)]
    exact iff_of_false Bool.false_ne_true fun h => hhead (h htype).1
  by_cases hrecs : ∃ recs, recs ≠ [] ∧ req.data.drop 5 = klvRecords recs
  · obtain ⟨recs, hne, hdata⟩ := hrecs
    have hreads : ReadsInside nodes req ↔ ∀ node ∈ recs.reverse, RecordReadable nodes node := by
      constructor
      · intro h node hnode
        exact (h htype).2 recs hdata node (List.mem_reverse.mp hnode)
      · intro h _
        refine ⟨hhead, fun recs' hdata' node hnode => h node (List.mem_reverse.mpr ?_)⟩
        rwa [klvRecords_inj (hdata.symm.trans hdata')]
    rw [hreads, ← dpMembers_isSome_iff, bleDpReq_of_records htype hhead hne hdata,
      Option.isSome_map]
  · obtain ⟨rt, out, hparse, hok, -⟩ := @data2Klvlist_req req req.length_data_lt
    have hrt : rt ≠ oprtOk := fun h => hrecs (hok.mp h)
    rw [bleDpReq, if_pos htype, readSpan_of_le (by omega)]
    dsimp only
    rw [hparse]
    dsimp only
    rw [if_pos hrt]
    refine iff_of_true rfl fun _ => ⟨hhead, fun recs hdata node hnode => ?_⟩
    exact absurd ⟨recs, List.ne_nil_of_mem hnode, hdata⟩ hrecs

end Reading

/-! ### Sending -/

def wireData : DpValue → Bytes
  | .bool dpBool => [if dpBool then 1 else 0]
  | .value dpValue => beBytes 4 dpValue.toUInt32.toNat
  | .str dpStr => (cString dpStr).take (u16 (cString dpStr).length)
  | .enum dpEnum =>
    if dpEnum.toNat ≤ 0xff then beBytes 1 dpEnum.toNat
    else if dpEnum.toNat ≤ 0xffff then beBytes 2 dpEnum.toNat
    else beBytes 4 dpEnum.toNat
  | .bitmap dpBitmap => beBytes 4 dpBitmap.toNat
  | .other _ => []

def wireType : DpValue → UInt8
  | .bool _ => dtBool
  | .value _ => dtValue
  | .str _ => dtString
  | .enum _ => dtEnum
  | .bitmap _ => dtBitmap
  | .other _ => dtRaw

theorem length_wireData_lt (value : DpValue) : (wireData value).length < 65536 := by
  cases value with
  | str dpStr => exact length_take_u16_lt _ _
  | enum dpEnum =>
    rw [wireData]
    split_ifs <;> (rw [length_beBytes]; decide)
  | _ => simp [wireData]

def wireNode (dp : DpObj) : KlvNode :=
  ⟨dp.id, wireType dp.value, wireData dp.value, length_wireData_lt dp.value⟩

section Sending

variable {nodes : List DpNode} {dp : DpObj} {dps : List DpObj} {list : List KlvNode} {id : UInt8}

theorem leNat_take_leBytes {n : Nat} (h : n < 4294967296) :
    leNat ((leBytes 4 n).take 4) = n := by
  rw [List.take_of_length_le (by rw [leBytes, List.length_reverse, length_beBytes]), leNat, leBytes,
    List.reverse_reverse]
  exact beNat_beBytes_of_lt h

theorem length_leBytes_four (n : Nat) : (leBytes 4 n).length = 4 := by
  rw [leBytes, List.length_reverse, length_beBytes]

theorem makeKlvList_word {type : UInt8} (htype : type = dtValue ∨ type = dtBitmap) {n : Nat}
    (hn : n < 4294967296) (node : KlvNode) (hid : node.id = id) (hnode : node.type = type)
    (hdata : node.data = beBytes 4 n) :
    makeKlvList (fun _ => true) list id type (leBytes 4 n) (length_leBytes_four_lt n) =
      some (node :: list) := by
  have hlmt : ¬dtLmt ≤ type := by
    rcases htype with h | h <;> rw [h] <;> decide
  obtain ⟨_, _, data, _⟩ := node
  simp only at hid hnode hdata
  subst hid hnode hdata
  simp only [makeKlvList, if_neg hlmt, if_pos htype, length_leBytes_four, leNat_take_leBytes hn,
    ne_eq, not_true_eq_false, and_false, if_false, Nat.lt_irrefl]

theorem makeKlvList_other {type : UInt8} {data : Bytes} (hlmt : ¬dtLmt ≤ type)
    (hvalue : type ≠ dtValue) (hmap : type ≠ dtBitmap)
    (hlen : type = dtBool ∨ type = dtEnum → data.length = 4) (hdata : data.length < 65536)
    (node : KlvNode) (hid : node.id = id) (hnode : node.type = type)
    (hbytes : node.data = tuyaChangeBtDpTlv type data) :
    makeKlvList (fun _ => true) list id type data hdata = some (node :: list) := by
  have hbool : ¬(type = dtBool ∧ data.length ≠ 4) := fun h => h.2 (hlen (.inl h.1))
  have henum : ¬(type = dtEnum ∧ data.length ≠ 4) := fun h => h.2 (hlen (.inr h.1))
  obtain ⟨_, _, bytes, _⟩ := node
  simp only at hid hnode hbytes
  subst hid hnode hbytes
  simp only [makeKlvList, if_neg hlmt, hvalue, hmap, false_and, if_false, if_neg hbool,
    if_neg henum, not_true_eq_false, and_false, or_self]

theorem makeKlvList_eq (hkind : dp.value.type ≠ none) :
    ∃ d, dpData dp.value = some d ∧
      makeKlvList (fun _ => true) list dp.id d.type d.data d.length_data_lt =
        some (wireNode dp :: list) := by
  obtain ⟨id, value, timeStamp⟩ := dp
  cases value with
  | other type => exact absurd rfl hkind
  | bool dpBool =>
    refine ⟨_, rfl, @makeKlvList_other list id dtBool _ (by decide) (by decide) (by decide)
      (fun _ => length_leBytes_four _) _ _ rfl rfl ?_⟩
    cases dpBool <;> rfl
  | value dpValue =>
    exact ⟨_, rfl, makeKlvList_word (.inl rfl) (UInt32.toNat_lt _) _ rfl rfl rfl⟩
  | str dpStr =>
    exact ⟨_, rfl, @makeKlvList_other list id dtString _ (by decide) (by decide) (by decide)
      (fun h => absurd h (by decide)) (length_take_u16_lt _ _) _ rfl rfl rfl⟩
  | enum dpEnum =>
    refine ⟨_, rfl, @makeKlvList_other list id dtEnum _ (by decide) (by decide) (by decide)
      (fun _ => length_leBytes_four _) _ _ rfl rfl ?_⟩
    show wireData (.enum dpEnum) = _
    rw [tuyaChangeBtDpTlv, if_pos rfl, leNat_take_leBytes dpEnum.toNat_lt]
    rfl
  | bitmap dpBitmap =>
    exact ⟨_, rfl, makeKlvList_word (.inr rfl) (UInt32.toNat_lt _) _ rfl rfl rfl⟩

theorem makeObjDpKlvList_eq (hkind : ∀ dp ∈ dps, dp.value.type ≠ none) :
    makeObjDpKlvList (fun _ => true) dps list = some ((dps.map wireNode).reverse ++ list) := by
  induction dps generalizing list with
  | nil => rfl
  | cons dp dps ih =>
    obtain ⟨hdp, hdps⟩ := List.forall_mem_cons.mp hkind
    obtain ⟨d, hd, hmake⟩ := @makeKlvList_eq dp list hdp
    rw [makeObjDpKlvList, hd]
    dsimp only
    rw [hmake]
    dsimp only
    rw [ih hdps, List.map_cons, List.reverse_cons, List.append_assoc, List.singleton_append]

/-! ### One value -/

theorem sameValue_of_member {json : Json} (h : dpMember nodes (wireNode dp) =
    some (some (decimal dp.id.toNat, json))) :
    (∃ member, dpMember nodes (wireNode dp) = some (some member) ∧ SameValue nodes dp member) ↔
      SameValue nodes dp (decimal dp.id.toNat, json) := by
  constructor
  · rintro ⟨member, hmember, hsame⟩
    obtain rfl := Option.some.inj (Option.some.inj (h.symm.trans hmember))
    exact hsame
  · intro hsame
    exact ⟨_, h, hsame⟩

theorem readSpan_beBytes (n : Nat) : readSpan (beBytes 4 n) 0 4 = some (beBytes 4 n) := by
  have hlen := length_beBytes 4 n
  rw [readSpan_of_le (by omega), slice_zero, List.take_of_length_le (by omega)]

theorem beNat_beBytes_four (m : UInt32) : UInt32.ofNat (beNat (beBytes 4 m.toNat)) = m := by
  rw [beNat_beBytes_of_lt m.toNat_lt, UInt32.ofNat_toNat]

theorem toInt32_toInt_eq_iff (m : UInt32) :
    m.toInt32.toInt = (m.toNat : ℤ) ↔ m.toNat < 2147483648 := by
  have hlt := m.toNat_lt
  rw [UInt32.toInt32, Int32.toInt, BitVec.toInt_eq_toNat_cond]
  show (if 2 * m.toNat < 2 ^ 32 then (m.toNat : ℤ) else (m.toNat : ℤ) - (2 ^ 32 : Nat)) = m.toNat ↔
    _
  split_ifs <;> omega

theorem exists_wireData_enum (dpEnum : UInt32) :
    ∃ val rest, wireData (.enum dpEnum) = val :: rest ∧ val.toNat = wireIndex dpEnum := by
  have hlt := dpEnum.toNat_lt
  rw [wireData, wireIndex]
  split_ifs with hone htwo
  · refine ⟨_, _, rfl, ?_⟩
    rw [UInt8.toNat_ofNat']
    omega
  · refine ⟨_, _, rfl, ?_⟩
    rw [UInt8.toNat_ofNat']
    omega
  · refine ⟨_, _, rfl, ?_⟩
    rw [UInt8.toNat_ofNat']
    omega

/-- **One value** is read back from its record just when it goes over the wire as it is. -/
theorem sameValue_iff (hkind : dp.value.type ≠ none) :
    (∃ member, dpMember nodes (wireNode dp) = some (some member) ∧ SameValue nodes dp member) ↔
      ValueSurvives nodes dp := by
  obtain ⟨id, value, timeStamp⟩ := dp
  cases value with
  | other type => exact absurd rfl hkind
  | bool dpBool =>
    have hmember := @dpMember_bool nodes (wireNode ⟨id, .bool dpBool, timeStamp⟩) rfl
      (if dpBool then 1 else 0) [] rfl
    rw [sameValue_of_member hmember]
    refine iff_of_true ⟨rfl, ?_⟩ trivial
    cases dpBool <;> rfl
  | value dpValue =>
    have hmember := @dpMember_word nodes (wireNode ⟨id, .value dpValue, timeStamp⟩) (.inr rfl) _
      (readSpan_beBytes dpValue.toUInt32.toNat)
    rw [beNat_beBytes_four, Int32.toInt32_toUInt32] at hmember
    rw [sameValue_of_member hmember]
    exact iff_of_true ⟨rfl, rfl⟩ trivial
  | bitmap dpBitmap =>
    have hmember := @dpMember_word nodes (wireNode ⟨id, .bitmap dpBitmap, timeStamp⟩) (.inl rfl) _
      (readSpan_beBytes dpBitmap.toNat)
    rw [beNat_beBytes_four] at hmember
    rw [sameValue_of_member hmember]
    show _ ↔ dpBitmap.toNat < 2147483648
    rw [← toInt32_toInt_eq_iff]
    constructor
    · rintro ⟨-, hnumber⟩
      exact (Json.number.inj hnumber).1
    · intro hnumber
      exact ⟨rfl, congrArg (Json.number · 0) hnumber⟩
  | str dpStr =>
    have hmember := @dpMember_string nodes (wireNode ⟨id, .str dpStr, timeStamp⟩) rfl
    have hclean := zero_notMem_cString dpStr
    rw [sameValue_of_member hmember]
    show _ ↔ (cString dpStr).length < 65536
    set text := cString dpStr
    have hdata : (wireNode ⟨id, .str dpStr, timeStamp⟩).data = text.take (u16 text.length) := rfl
    have hwire : cString (text.take (u16 text.length)) = text.take (u16 text.length) :=
      cString_of_notMem fun hzero => hclean (List.mem_of_mem_take hzero)
    constructor
    · rintro ⟨-, hstring⟩
      have htext : cString (wireNode ⟨id, .str dpStr, timeStamp⟩).data = text :=
        Json.string.inj hstring
      rw [hdata, hwire] at htext
      have hlen := congrArg List.length htext
      have hshort := length_take_u16_lt text text.length
      omega
    · intro hlen
      refine ⟨rfl, congrArg Json.string ?_⟩
      have hall : u16 text.length = text.length := by
        rw [u16, Nat.mod_eq_of_lt hlen]
      rw [hdata, hwire, hall, List.take_length]
  | enum dpEnum =>
    obtain ⟨val, rest, hdata, hval⟩ := exists_wireData_enum dpEnum
    obtain ⟨hunknown, hknown⟩ :=
      @dpMember_enum nodes (wireNode ⟨id, .enum dpEnum, timeStamp⟩) rfl val rest hdata
    rw [ValueSurvives]
    constructor
    · rintro ⟨member, hmember, -, dpnode, ppEnum, value, name, hfind, hprop, hname, hjson⟩
      refine ⟨dpnode, ppEnum, value, name, hfind, hprop, hname, ?_⟩
      obtain ⟨hsome, hno⟩ := hknown dpnode hfind
      rw [← hval]
      cases hval' : ppEnum[val.toNat]? with
      | none =>
        rw [hno fun ppEnum' value' hprop' => ?_] at hmember
        · cases hmember
        · obtain ⟨rfl, -⟩ := DpProp.enum.inj (hprop.symm.trans hprop')
          exact hval'
      | some name' =>
        have hjson' := hmember.symm.trans (hsome ppEnum value name' hprop hval')
        obtain rfl := Option.some.inj (Option.some.inj hjson')
        exact congrArg some (Json.string.inj hjson)
    · rintro ⟨dpnode, ppEnum, value, name, hfind, hprop, hname, hwire⟩
      obtain ⟨hsome, -⟩ := hknown dpnode hfind
      exact ⟨_, hsome ppEnum value name hprop (hval ▸ hwire), rfl, dpnode, ppEnum, value, name,
        hfind, hprop, hname, rfl⟩

/-! ### Whole reports -/

theorem length_dpMembers_le {members : List (Bytes × Json)}
    (h : dpMembers nodes list = some members) : members.length ≤ list.length := by
  induction list generalizing members with
  | nil =>
    obtain rfl := Option.some.inj h
    exact Nat.le_refl 0
  | cons node list ih =>
    rw [dpMembers] at h
    split at h
    · cases h
    · next member _ =>
      split at h
      · cases h
      · next members' hmembers =>
        obtain rfl := Option.some.inj h
        have hle := ih hmembers
        have hone : member.toList.length ≤ 1 := by
          cases member <;> simp
        rw [List.length_append, List.length_cons]
        omega

theorem forall₂_sameValue_iff (hkind : ∀ dp ∈ dps, dp.value.type ≠ none) :
    (∃ members, dpMembers nodes (dps.map wireNode) = some members ∧
        List.Forall₂ (SameValue nodes) dps members) ↔ ∀ dp ∈ dps, ValueSurvives nodes dp := by
  induction dps with
  | nil => simp [dpMembers]
  | cons dp dps ih =>
    obtain ⟨hdp, hdps⟩ := List.forall_mem_cons.mp hkind
    rw [List.forall_mem_cons, ← ih hdps, ← sameValue_iff hdp, List.map_cons]
    constructor
    · rintro ⟨members, hmembers, hsame⟩
      rw [dpMembers] at hmembers
      split at hmembers
      · cases hmembers
      · next member hmember =>
        split at hmembers
        · cases hmembers
        · next members' hmembers' =>
          obtain rfl := Option.some.inj hmembers
          cases member with
          | none =>
            -- A record without a member leaves too few of them.
            have hle := length_dpMembers_le hmembers'
            have heq := hsame.length_eq
            rw [List.length_map] at hle
            simp only [Option.toList_none, List.nil_append, List.length_cons] at heq
            omega
          | some member =>
            cases hsame with
            | cons hhead htail =>
              exact ⟨⟨member, hmember, hhead⟩, members', hmembers', htail⟩
    · rintro ⟨⟨member, hmember, hsame⟩, members, hmembers, hall⟩
      refine ⟨member :: members, ?_, .cons hsame hall⟩
      rw [dpMembers, hmember, hmembers]
      rfl

/-- The records of a report fit into a packet behind the five bytes of its head. -/
def FitsPacket (dps : List DpObj) : Prop := 5 + (klvRecords (dps.map wireNode)).length < 65536

theorem length_klvRecords_reverse (list : List KlvNode) :
    (klvRecords list.reverse).length = (klvRecords list).length := by
  rw [klvRecords, klvRecords, List.length_flatten, List.length_flatten, List.map_reverse,
    List.map_reverse, List.sum_reverse]

theorem sum_size_le (list : List KlvNode) :
    (list.map fun node => 16 + node.data.length).sum ≤ 4 * (klvRecords list).length := by
  induction list with
  | nil => exact Nat.le_refl 0
  | cons node list ih =>
    rw [klvRecords_cons, List.length_append, length_klvBytes, List.map_cons, List.sum_cons]
    omega

/-- **The values of a report survive** just when each of them goes over the wire as it is. -/
theorem reports_survive_iff (hdps : dps ≠ []) (hkind : ∀ dp ∈ dps, dp.value.type ≠ none)
    (hfits : FitsPacket dps) : Survives nodes dps ↔ ∀ dp ∈ dps, ValueSurvives nodes dp := by
  have hmake : makeObjDpKlvList (fun _ => true) dps [] = some (dps.map wireNode).reverse := by
    rw [makeObjDpKlvList_eq hkind, List.append_nil]
  have hne : (dps.map wireNode).reverse ≠ [] := by
    rw [Ne, List.reverse_eq_nil_iff, List.map_eq_nil_iff]
    exact hdps
  rw [← forall₂_sameValue_iff hkind]
  constructor
  · intro h
    have hsize : klvHeadLen none +
        ((dps.map wireNode).reverse.map fun node => 16 + node.data.length).sum < 4294967296 := by
      have hle := sum_size_le (dps.map wireNode).reverse
      rw [length_klvRecords_reverse] at hle
      have hhead : klvHeadLen none = 7 := rfl
      rw [FitsPacket] at hfits
      omega
    have hserial := @exists_klvlist2Data (fun _ => true) _ 0 none false 0 hne hsize rfl
    have hlen : (List.replicate 5 (0 : UInt8) ++
        klvRecords (dps.map wireNode).reverse).length < 65536 := by
      rw [List.length_append, List.length_replicate, length_klvRecords_reverse]
      exact hfits
    have hdrop : (List.replicate 5 (0 : UInt8) ++
        klvRecords (dps.map wireNode).reverse).drop 5 = klvRecords (dps.map wireNode).reverse :=
      List.drop_left' List.length_replicate
    have hfive : 5 ≤ (List.replicate 5 (0 : UInt8) ++
        klvRecords (dps.map wireNode).reverse).length := by
      rw [List.length_append, List.length_replicate]
      omega
    obtain ⟨members, hreq, hsame⟩ := h 0 none false 0 _ _ _
      ⟨0, frmDpCmdSendV4, _, 0, hlen⟩ hmake hserial rfl hfive (hdrop.trans (drop_klvSerial ..).symm)
    rw [bleDpReq_of_records rfl hfive hne hdrop, List.reverse_reverse] at hreq
    obtain ⟨members', hmembers, hparse⟩ := Option.map_eq_some_iff.mp hreq
    obtain rfl := DpReqOutcome.parse.inj hparse
    exact ⟨members', hmembers, hsame⟩
  · rintro ⟨members, hmembers, hsame⟩ sn timeStamp query flag list bytes sn' req hlist hserial htype
      hhead hdata
    obtain rfl := Option.some.inj (hmake.symm.trans hlist)
    obtain ⟨-, rfl, -⟩ := klvlist2Data_eq_ok hserial
    rw [drop_klvSerial] at hdata
    refine ⟨members, ?_, hsame⟩
    rw [bleDpReq_of_records htype hhead hne hdata, List.reverse_reverse, hmembers]
    rfl

/-- **Values over BLE.** The values of a report whose records fit into a packet survive just when
each of them goes over the wire as it is, and a command is read inside its records just when they
are long enough and its names exist. -/
theorem dpValues_iff (hkind : ∀ dp ∈ dps, dp.value.type ≠ none) (req : BlePacket) :
    (Survives nodes dps ↔ (FitsPacket dps → ∀ dp ∈ dps, ValueSurvives nodes dp)) ∧
      ((bleDpReq nodes req).isSome ↔ ReadsInside nodes req) := by
  refine ⟨?_, bleDpReq_isSome_iff⟩
  have hmake : makeObjDpKlvList (fun _ => true) dps [] = some (dps.map wireNode).reverse := by
    rw [makeObjDpKlvList_eq hkind, List.append_nil]
  by_cases hdps : dps = []
  · subst hdps
    refine iff_of_true ?_ fun _ dp hdp => by cases hdp
    intro sn timeStamp query flag list bytes sn' req hlist hserial
    obtain ⟨hne, -⟩ := klvlist2Data_eq_ok hserial
    exact absurd (Option.some.inj hlist).symm hne
  · by_cases hfits : FitsPacket dps
    · rw [reports_survive_iff hdps hkind hfits]
      exact ⟨fun h _ => h, fun h => h hfits⟩
    · refine iff_of_true ?_ fun h => absurd h hfits
      -- There is no packet with these records.
      intro sn timeStamp query flag list bytes sn' req hlist hserial _ hhead hdata
      obtain rfl := Option.some.inj (hmake.symm.trans hlist)
      obtain ⟨-, rfl, -⟩ := klvlist2Data_eq_ok hserial
      rw [drop_klvSerial] at hdata
      have hlen := congrArg List.length hdata
      rw [List.length_drop, length_klvRecords_reverse] at hlen
      have hreq := req.length_data_lt
      rw [FitsPacket] at hfits
      omega

end Sending

/-! ### A switch and a mode -/

def sampleNodes : List DpNode :=
  [⟨⟨3, .rw, .psvFalse, .obj, .pulse⟩, .enum [[0x61], [0x62]] 0, .statInvalid, 0⟩]

theorem dpValues_iff_sampleNodes :
    (Survives sampleNodes [⟨1, .bool true, 0⟩, ⟨3, .enum 1, 0⟩] ↔
      (FitsPacket [⟨1, .bool true, 0⟩, ⟨3, .enum 1, 0⟩] →
        ∀ dp ∈ [⟨1, .bool true, 0⟩, ⟨3, .enum 1, 0⟩], ValueSurvives sampleNodes dp)) ∧
      ((bleDpReq sampleNodes
          ⟨1, frmDpCmdSendV4, [0, 0, 0, 0, 1, 3, 4, 0, 1, 1], 0, by decide⟩).isSome ↔
        ReadsInside sampleNodes
          ⟨1, frmDpCmdSendV4, [0, 0, 0, 0, 1, 3, 4, 0, 1, 1], 0, by decide⟩) :=
  dpValues_iff (by decide) _

/-- A bitmap with the top bit set comes out negative, and a command with the third of two names is
answered with what lies behind them. -/
theorem not_dpValues :
    ¬Survives sampleNodes [⟨5, .bitmap 0x80000000, 0⟩] ∧
      ¬(bleDpReq sampleNodes
        ⟨1, frmDpCmdSendV4, [0, 0, 0, 0, 1, 3, 4, 0, 1, 2], 0, by decide⟩).isSome := by
  constructor
  · intro h
    have hall := (reports_survive_iff (by decide) (by decide) (by unfold FitsPacket; decide)).mp h
    have hlt : (0x80000000 : UInt32).toNat < 2147483648 := hall _ List.mem_cons_self
    exact absurd hlt (by decide)
  · have hnone : (bleDpReq sampleNodes
        ⟨1, frmDpCmdSendV4, [0, 0, 0, 0, 1, 3, 4, 0, 1, 2], 0, by decide⟩).isSome = false := by
      decide +kernel
    rw [hnone]
    exact Bool.false_ne_true

end TuyaOpen.Ble
