import TuyaOpen.Basic.Bytes
import TuyaOpen.Common.OperateRet

/-!
# The schema of the data points

The cache of `dp_schema.c`: a schema has one node for each data point, with its description, its
limits, the cached value and a mark that says whether the cloud has that value. A report goes
through its entries one by one. An entry that is taken replaces the cached value, sets the mark to
`PV_STAT_LOCAL` and is noted in the descriptor of the report.

Only the first node with an identifier is found. The schema that comes from the cloud is not checked
for identifiers that occur twice, and neither is it here.

## Main results

* `dpNodeFind_dpNodeSet`: what is found after a node has been changed.
* `updateProp_value`: after an entry that fits its node, the node has the value of the entry, or has
  lost its own for want of memory.
* `checkEntry_cases`: what a turn of the check does.
* `checkLoop_invariant`: what such turns preserve holds after the check.
-/

namespace TuyaOpen.Dp

/-! ### Values and nodes -/

/-- `dp_prop_tp_t`. -/
inductive PropTp
  | bool
  | value
  | str
  | enum
  | bitmap
  deriving DecidableEq

/-- `dp_value_t` with the type that says which member is valid. -/
inductive DpValue
  | bool (dpBool : Bool)
  | value (dpValue : Int32)
  | str (dpStr : Bytes)
  | enum (dpEnum : UInt32)
  | bitmap (dpBitmap : UInt32)
  | other (type : UInt8)
  deriving DecidableEq

def DpValue.type : DpValue → Option PropTp
  | .bool _ => some .bool
  | .value _ => some .value
  | .str _ => some .str
  | .enum _ => some .enum
  | .bitmap _ => some .bitmap
  | .other _ => none

/-- `dp_obj_t`. -/
structure DpObj where
  id : UInt8
  value : DpValue
  timeStamp : UInt32
  deriving DecidableEq

/-- `dp_mode_t`. -/
inductive DpMode
  | rw
  | wr
  | ro
  deriving DecidableEq

/-- `dp_psv_t`. -/
inductive DpPsv
  | psvFalse
  | psvTrue
  | psvFOnce
  deriving DecidableEq

/-- `dp_type_t`. -/
inductive DpType
  | obj
  | raw
  | file
  deriving DecidableEq

/-- `dp_trig_t`. -/
inductive DpTrig
  | pulse
  | direct
  deriving DecidableEq

/-- `dp_pv_stat_t`. -/
inductive PvStat
  | statInvalid
  | statLocal
  | statUling
  | statCloud
  deriving DecidableEq

/-- `dp_rept_type_t`. -/
inductive ReptType
  | obj
  | raw
  | stat
  | reTrans
  deriving DecidableEq

/-- The fields of `dp_desc_t` that reports look at. The type of the property is that of the
property. -/
structure DpDesc where
  id : UInt8
  mode : DpMode
  passive : DpPsv
  type : DpType
  trig : DpTrig
  deriving DecidableEq

/-- `dp_prop_vaule_t` with the type of the property. The number of names of an enumeration is the
length of `ppEnum`. -/
inductive DpProp
  | bool (value : Bool)
  | int (min max value : Int32)
  | str (maxLen : Int32) (curLen : Nat) (value : Option Bytes)
  | enum (ppEnum : List Bytes) (value : UInt32)
  | bitmap (maxLen value : UInt32)
  deriving DecidableEq

def DpProp.propTp : DpProp → PropTp
  | .bool _ => .bool
  | .int _ _ _ => .value
  | .str _ _ _ => .str
  | .enum _ _ => .enum
  | .bitmap _ _ => .bitmap

/-- The cached value. A string that has never been set, or that has been lost, has none. -/
def DpProp.cached : DpProp → Option DpValue
  | .bool b => some (.bool b)
  | .int _ _ v => some (.value v)
  | .str _ _ s => s.map .str
  | .enum _ e => some (.enum e)
  | .bitmap _ m => some (.bitmap m)

/-- `dp_node_t`. -/
structure DpNode where
  desc : DpDesc
  prop : DpProp
  pvStat : PvStat
  timeStamp : UInt32
  deriving DecidableEq

/-- `dp_schema_t`. -/
structure DpSchema where
  devid : Bytes
  preprocess : Bool
  nodes : List DpNode

/-- `dp_node_find`. -/
def dpNodeFind (nodes : List DpNode) (id : UInt8) : Option DpNode :=
  nodes.find? fun node => node.desc.id = id

/-- The node that is found for `id` is changed in place. -/
def dpNodeSet (nodes : List DpNode) (id : UInt8) (f : DpNode → DpNode) : List DpNode :=
  match nodes with
  | [] => []
  | node :: nodes => if node.desc.id = id then f node :: nodes else node :: dpNodeSet nodes id f

/-- `dp_pv_stat_set`. -/
def dpPvStatSet (nodes : List DpNode) (id : UInt8) (pvStat : PvStat) : List DpNode :=
  dpNodeSet nodes id fun node => { node with pvStat := pvStat }

/-! ### An entry of a report -/

/-- `DP_REPT_NO_FILTER_FLAG`. -/
def dpReptNoFilterFlag : UInt32 := 1

/-- The update of a property in `dp_rept_update`: whether the entry is needed, and the property.
`malloc` says whether a new buffer for a string can be had. -/
def updateProp (need malloc : Bool) (new : DpValue) (prop : DpProp) : Bool × DpProp :=
  match new, prop with
  | .bool b, .bool old =>
    let need := need || old != b
    (need, if need then .bool b else prop)
  | .value v, .int min max old =>
    let need := need || old != v
    (need, if need then .int min max v else prop)
  | .str s, .str maxLen curLen old =>
    let need := need || old != some s
    if need then
      if old = none ∨ curLen < s.length then
        if malloc then (true, .str maxLen s.length (some s))
        else (false, .str maxLen s.length none)
      else (true, .str maxLen curLen (some s))
    else (false, prop)
  | .enum e, .enum ppEnum old =>
    if ppEnum.length ≤ e.toNat then (need, prop)
    else
      let need := need || old != e
      (need, if need then .enum ppEnum e else prop)
  | .bitmap m, .bitmap maxLen old =>
    let need := need || old != m
    (need, if need then .bitmap maxLen m else prop)
  | _, _ => (need, prop)

def isNeedUpdate (reptType : ReptType) (flags : UInt32) (node : DpNode) : Bool :=
  node.pvStat = .statInvalid ∨ node.pvStat = .statLocal ∨ node.desc.trig = .direct ∨
    reptType = .stat ∨ dpReptNoFilterFlag &&& flags ≠ 0

/-- The end of `dp_rept_update`. -/
def markLocal (reptType : ReptType) (dp : DpObj) (node : DpNode) : DpNode :=
  { node with
    pvStat := .statLocal
    timeStamp := if reptType = .stat then dp.timeStamp else node.timeStamp }

/-- `dp_rept_update`: whether the entry is not needed, and the node. -/
def dpReptUpdate (reptType : ReptType) (flags : UInt32) (malloc : Bool) (dp : DpObj)
    (node : DpNode) : Bool × DpNode :=
  match node.desc.type with
  | .obj =>
    let r := updateProp (isNeedUpdate reptType flags node) malloc dp.value node.prop
    let node :=
      { node with
        prop := r.2
        timeStamp :=
          if node.prop.propTp = .str ∧ reptType = .stat then dp.timeStamp else node.timeStamp }
    if r.1 then (false, markLocal reptType dp node) else (true, node)
  | .raw => (false, markLocal reptType dp node)
  | .file => (true, node)

/-- `cJSON_Number`. -/
def cJsonNumber : UInt8 := 8

/-- The part of `dp_type_check` that looks at the value. For a bitmap the type of the entry is
compared with `cJSON_Number`, which is no type of a property, so that no bitmap passes. -/
def dpValueCheck (value : DpValue) (prop : DpProp) : Bool :=
  match value, prop with
  | .bool _, .bool _ => true
  | .value v, .int min max _ => ¬(max < v ∨ v < min)
  | .str s, .str maxLen _ _ => ¬(0 ≤ maxLen.toInt ∧ maxLen.toInt < s.length)
  | .enum e, .enum ppEnum _ => e.toNat < ppEnum.length
  | .other type, .bitmap _ _ => type = cJsonNumber
  | _, _ => false

/-- `dp_type_check`. -/
def dpTypeCheck (reptType : ReptType) (dp : DpObj) (node : DpNode) : Bool :=
  if node.desc.mode = .wr ∨ (node.desc.type ≠ .obj ∧ reptType = .obj) ∨
      (node.desc.type ≠ .raw ∧ reptType = .raw) then false
  else
    match node.desc.type with
    | .obj => dpValueCheck dp.value node.prop
    | .raw => true
    | .file => false

/-! ### The check of a report -/

/-- `dp_rept_in_t`. The array may be longer than the count. -/
structure DpReptIn where
  reptType : ReptType
  flags : UInt32
  dpscnt : UInt8
  dps : List DpObj

def DpReptIn.entries (dpin : DpReptIn) : List DpObj := dpin.dps.take dpin.dpscnt.toNat

/-- `dp_rept_valid_t`: `dpid` is the tail that has been allocated, and `written` are the indices of
it that have been written. -/
structure DpReptValid where
  num : UInt8
  len : UInt16
  timelen : UInt16
  dpid : Bytes
  written : List Nat

def DpReptValid.ids (valid : DpReptValid) : List UInt8 := valid.dpid.take valid.num.toNat

/-- An entry is noted in the descriptor: its record may take `n` bytes of the text. -/
def DpReptValid.note (valid : DpReptValid) (dp : DpObj) (n : Nat) : DpReptValid where
  num := valid.num + 1
  len := UInt16.ofNat (valid.len.toNat + n)
  timelen := if dp.timeStamp = 0 then valid.timelen else UInt16.ofNat (valid.timelen.toNat + 30)
  dpid := valid.dpid.set valid.num.toNat dp.id
  written := valid.written ++ [valid.num.toNat]

/-- What the record of a value may take in the text of the report, or the code that is returned when
there is no such record. -/
def recordLen (value : DpValue) (prop : DpProp) : Except OperateRet Nat :=
  match value, prop with
  | .bool _, _ => .ok 20
  | .value _, _ => .ok 20
  | .bitmap _, _ => .ok 20
  | .str s, _ => .ok (2 * s.length + 15)
  | .enum e, .enum ppEnum _ =>
    match ppEnum[e.toNat]? with
    | some name => .ok (name.length + 15)
    | none => .error oprtSvcDpTypePropIllegal
  | .enum _, _ => .error oprtSvcDpTypePropIllegal
  | .other _, _ => .error oprtComError

/-- What an entry comes to: it is passed over, it ends the check, or it is noted. -/
inductive EntryFate
  | skip
  | fail (rt : OperateRet)
  | note (n : Nat)

/-- The end of a turn of the loop in `dp_rept_valid_check`. -/
def noteFate (value : DpValue) (prop : DpProp) : EntryFate :=
  match recordLen value prop with
  | .ok n => .note n
  | .error rt => .fail rt

/-- A turn of the loop in `dp_rept_valid_check`. -/
def checkEntry (preprocess : Bool) (reptType : ReptType) (flags : UInt32) (malloc : Bool)
    (nodes : List DpNode) (dp : DpObj) : EntryFate × List DpNode :=
  match dpNodeFind nodes dp.id with
  | none => (.skip, nodes)
  | some node =>
    if dp.value.type ≠ some node.prop.propTp then (.fail oprtSvcDpTpNotMatch, nodes)
    else if reptType = .reTrans then (noteFate dp.value node.prop, nodes)
    else if dpTypeCheck reptType dp node = false then (.skip, nodes)
    else if preprocess ∧ node.desc.passive = .psvTrue then (.skip, nodes)
    else
      let r := dpReptUpdate reptType flags malloc dp node
      let nodes := dpNodeSet nodes dp.id fun _ => r.2
      if r.1 then (.skip, nodes) else (noteFate dp.value r.2.prop, nodes)

/-- The loop of `dp_rept_valid_check` from its turn `i` on: the return code, the nodes, and the
entries that are noted with the lengths of their records. `malloc` says for each turn whether a
buffer for a string can be had. What is done in a turn does not depend on the descriptor. -/
def checkLoop (preprocess : Bool) (reptType : ReptType) (flags : UInt32) (malloc : Nat → Bool) :
    Nat → List DpObj → List DpNode → OperateRet × List DpNode × List (DpObj × Nat)
  | _, [], nodes => (oprtOk, nodes, [])
  | i, dp :: dps, nodes =>
    match checkEntry preprocess reptType flags (malloc i) nodes dp with
    | (.skip, nodes) => checkLoop preprocess reptType flags malloc (i + 1) dps nodes
    | (.fail rt, nodes) => (rt, nodes, [])
    | (.note n, nodes) =>
      let r := checkLoop preprocess reptType flags malloc (i + 1) dps nodes
      (r.1, r.2.1, (dp, n) :: r.2.2)

/-- `dp_rept_valid_check`: its return value, the nodes and the descriptor. -/
def dpReptValidCheck (schema : DpSchema) (malloc : Nat → Bool) (dpin : DpReptIn)
    (valid : DpReptValid) : OperateRet × List DpNode × DpReptValid :=
  let r := checkLoop schema.preprocess dpin.reptType dpin.flags malloc 0 dpin.entries schema.nodes
  let valid := r.2.2.foldl (fun v e => v.note e.1 e.2) valid
  if r.1 ≠ oprtOk then (r.1, r.2.1, valid)
  else if valid.num = 0 then (oprtSvcDpIdNotFound, r.2.1, valid)
  else (oprtOk, r.2.1, valid)

/-! ### Nodes -/

section Node

variable {nodes : List DpNode} {id : UInt8} {f : DpNode → DpNode}

theorem id_of_dpNodeFind {node : DpNode} (h : dpNodeFind nodes id = some node) :
    node.desc.id = id := by
  have hid := List.find?_some h
  exact of_decide_eq_true hid

theorem dpNodeFind_cons (node : DpNode) (nodes : List DpNode) (id : UInt8) :
    dpNodeFind (node :: nodes) id =
      if node.desc.id = id then some node else dpNodeFind nodes id := by
  rw [dpNodeFind, List.find?_cons]
  by_cases hid : node.desc.id = id
  · rw [if_pos hid, decide_eq_true hid]
  · rw [if_neg hid, decide_eq_false hid]
    rfl

theorem dpNodeFind_dpNodeSet
    (hf : ∀ node, dpNodeFind nodes id = some node → (f node).desc.id = id) (id' : UInt8) :
    dpNodeFind (dpNodeSet nodes id f) id' =
      if id' = id then (dpNodeFind nodes id).map f else dpNodeFind nodes id' := by
  induction nodes with
  | nil => split_ifs <;> rfl
  | cons node nodes ih =>
    rw [dpNodeFind_cons] at hf ⊢
    rw [dpNodeSet]
    by_cases hid : node.desc.id = id
    · rw [if_pos hid] at hf
      rw [if_pos hid, if_pos hid, dpNodeFind_cons, dpNodeFind_cons, hf node rfl, hid]
      by_cases hid' : id' = id
      · rw [if_pos hid'.symm, if_pos hid']
        rfl
      · rw [if_neg (Ne.symm hid'), if_neg hid', if_neg (Ne.symm hid')]
    · rw [if_neg hid] at hf
      rw [if_neg hid, if_neg hid, dpNodeFind_cons, dpNodeFind_cons, ih hf]
      by_cases hhead : node.desc.id = id'
      · have hne : id' ≠ id := fun h => hid (hhead.trans h)
        rw [if_pos hhead, if_neg hne, if_pos hhead]
      · rw [if_neg hhead, if_neg hhead]

end Node

/-! ### What an entry does to its node -/

/-- Whether an entry makes the node lose its string: a new buffer is needed and cannot be had. -/
def losesString (need malloc : Bool) (new : DpValue) (prop : DpProp) : Bool :=
  match new, prop with
  | .str s, .str _ curLen old =>
    (need || old != some s) && decide (old = none ∨ curLen < s.length) && !malloc
  | _, _ => false

theorem losesString_of_malloc (need : Bool) (new : DpValue) (prop : DpProp) :
    losesString need true new prop = false := by
  unfold losesString
  split
  · exact Bool.and_false _
  · rfl

/-- There is memory for a value: a string fits the buffer of the cached one, or a new buffer can be
had. -/
def CanStore (malloc : Bool) (value : DpValue) (prop : DpProp) : Prop :=
  match value, prop with
  | .str s, .str _ curLen old => malloc = true ∨ old ≠ none ∧ s.length ≤ curLen
  | _, _ => True

section Update

variable {need malloc : Bool} {new : DpValue} {prop : DpProp}

theorem updateProp_limits (need malloc : Bool) (new : DpValue) (prop : DpProp) :
    (updateProp need malloc new prop).2.propTp = prop.propTp ∧
      ∀ value, dpValueCheck value (updateProp need malloc new prop).2 = dpValueCheck value prop := by
  unfold updateProp
  split <;> dsimp only
  case h_6 => exact ⟨rfl, fun _ => rfl⟩
  all_goals
    split_ifs <;> exact ⟨rfl, fun value => by cases value <;> rfl⟩

theorem updateProp_of_cached {new : DpValue} {prop : DpProp} (h : prop.cached = some new) :
    updateProp false malloc new prop = (false, prop) := by
  cases prop with
  | bool old =>
    obtain rfl := Option.some.inj h
    simp [updateProp]
  | int min max old =>
    obtain rfl := Option.some.inj h
    simp [updateProp]
  | str maxLen curLen old =>
    obtain ⟨s, rfl, rfl⟩ := Option.map_eq_some_iff.1 h
    simp [updateProp]
  | enum ppEnum old =>
    obtain rfl := Option.some.inj h
    simp [updateProp]
  | bitmap maxLen old =>
    obtain rfl := Option.some.inj h
    simp [updateProp]

theorem updateProp_eq_of_differs (hcheck : dpValueCheck new prop = true)
    (htype : new.type = some prop.propTp) (hdiffers : prop.cached ≠ some new) :
    updateProp need malloc new prop = updateProp true malloc new prop := by
  cases prop with
  | bool old =>
    cases new with
    | bool b =>
      have hold : old ≠ b := fun heq => hdiffers (heq ▸ rfl)
      simp [updateProp, hold]
    | _ => cases htype
  | int min max old =>
    cases new with
    | value v =>
      have hold : old ≠ v := fun heq => hdiffers (heq ▸ rfl)
      simp [updateProp, hold]
    | _ => cases htype
  | str maxLen curLen old =>
    cases new with
    | str s =>
      have hold : old ≠ some s := fun heq => hdiffers (heq ▸ rfl)
      simp [updateProp, hold]
    | _ => cases htype
  | enum ppEnum old =>
    cases new with
    | enum e =>
      have hold : old ≠ e := fun heq => hdiffers (heq ▸ rfl)
      have hlt : e.toNat < ppEnum.length := of_decide_eq_true hcheck
      simp [updateProp, hold, Nat.not_le.2 hlt]
    | _ => cases htype
  | bitmap maxLen old =>
    cases new with
    | bitmap m => cases hcheck
    | _ => cases htype

theorem updateProp_eq_of_needed (hcheck : dpValueCheck new prop = true)
    (htype : new.type = some prop.propTp) (h : need = true ∨ prop.cached ≠ some new) :
    updateProp need malloc new prop = updateProp true malloc new prop := by
  rcases h with rfl | hdiffers
  · rfl
  · exact updateProp_eq_of_differs hcheck htype hdiffers

/-- **The update that is needed.** The value is cached, or the node loses its string. A string that
fits the buffer leaves the buffer as it is. -/
theorem updateProp_need (hcheck : dpValueCheck new prop = true)
    (htype : new.type = some prop.propTp) :
    (CanStore malloc new prop ∧ (updateProp true malloc new prop).1 = true ∧
        (updateProp true malloc new prop).2.cached = some new ∧
        (CanStore false new prop → ∀ value,
          CanStore false value (updateProp true malloc new prop).2 ↔ CanStore false value prop)) ∨
      (¬CanStore malloc new prop ∧ (updateProp true malloc new prop).1 = false ∧
        (updateProp true malloc new prop).2.cached = none) := by
  cases prop with
  | bool old =>
    cases new with
    | bool b => exact Or.inl ⟨trivial, rfl, rfl, fun _ value => by cases value <;> exact Iff.rfl⟩
    | _ => cases htype
  | int min max old =>
    cases new with
    | value v => exact Or.inl ⟨trivial, rfl, rfl, fun _ value => by cases value <;> exact Iff.rfl⟩
    | _ => cases htype
  | str maxLen curLen old =>
    cases new with
    | str s =>
      simp only [updateProp, CanStore]
      by_cases hgrow : old = none ∨ curLen < s.length
      · have hfits : ¬(old ≠ none ∧ s.length ≤ curLen) := by
          rintro ⟨hsome, hle⟩
          exact hgrow.elim hsome fun hlt => by omega
        cases malloc with
        | true =>
          refine Or.inl ⟨Or.inl rfl, ?_⟩
          simp [hgrow, hfits, DpProp.cached]
        | false =>
          refine Or.inr ⟨fun hor => hor.elim (fun h => by cases h) hfits, ?_⟩
          simp [hgrow, DpProp.cached]
      · have hfits : old ≠ none ∧ s.length ≤ curLen := by
          rw [not_or, Nat.not_lt] at hgrow
          exact hgrow
        refine Or.inl ⟨Or.inr hfits, ?_⟩
        simp only [Bool.true_or, if_true, hgrow, if_false, DpProp.cached, Option.map_some, true_and]
        intro _ value
        cases value with
        | str w => simp [hfits.1]
        | _ => exact Iff.rfl
    | _ => cases htype
  | enum ppEnum old =>
    cases new with
    | enum e =>
      have hlt : e.toNat < ppEnum.length := of_decide_eq_true hcheck
      refine Or.inl ⟨trivial, ?_⟩
      simp only [updateProp, if_neg (Nat.not_le.2 hlt), Bool.true_or, if_true, DpProp.cached,
        true_and]
      exact fun _ value => by cases value <;> exact Iff.rfl
    | _ => cases htype
  | bitmap maxLen old =>
    cases new with
    | bitmap m => cases hcheck
    | _ => cases htype

theorem losesString_iff (htype : new.type = some prop.propTp) :
    losesString need malloc new prop = true ↔
      (need = true ∨ prop.cached ≠ some new) ∧ ¬CanStore malloc new prop := by
  cases new with
  | str s =>
    cases prop with
    | str maxLen curLen old =>
      have hcached : (DpProp.str maxLen curLen old).cached ≠ some (.str s) ↔ old ≠ some s := by
        cases old <;> simp [DpProp.cached]
      have hgrow : ¬CanStore malloc (.str s) (.str maxLen curLen old) ↔
          (old = none ∨ curLen < s.length) ∧ malloc = false := by
        rw [CanStore, not_or, Bool.not_eq_true, not_and_or, not_not, Nat.not_le, and_comm]
      rw [hcached, hgrow]
      simp [losesString, and_assoc]
    | _ => cases htype
  | _ => exact iff_of_false Bool.false_ne_true fun hand => hand.2 trivial

/-- **The cached value.** After an entry that fits its node, the node has the value of the entry;
or it has lost its string, and then the entry is not needed. -/
theorem updateProp_value (hcheck : dpValueCheck new prop = true)
    (htype : new.type = some prop.propTp) :
    (losesString need malloc new prop = false ∧
        (updateProp need malloc new prop).2.cached = some new) ∨
      (losesString need malloc new prop = true ∧ (updateProp need malloc new prop).1 = false ∧
        (updateProp need malloc new prop).2.cached = none) := by
  have hlose := @losesString_iff need malloc _ _ htype
  by_cases hneed : need = true ∨ prop.cached ≠ some new
  · rw [updateProp_eq_of_needed hcheck htype hneed]
    rcases @updateProp_need malloc new prop hcheck htype with
      ⟨hstore, -, hcached, -⟩ | ⟨hstore, hskip, hcached⟩
    · have hkept : ¬losesString need malloc new prop = true := fun h => (hlose.1 h).2 hstore
      exact Or.inl ⟨Bool.not_eq_true _ |>.mp hkept, hcached⟩
    · exact Or.inr ⟨hlose.2 ⟨hneed, hstore⟩, hskip, hcached⟩
  · have hkept : ¬losesString need malloc new prop = true := fun h => hneed (hlose.1 h).1
    obtain ⟨hneed, hcached⟩ := not_or.1 hneed
    obtain rfl := Bool.not_eq_true _ |>.mp hneed
    rw [updateProp_of_cached (not_not.1 hcached)]
    exact Or.inl ⟨Bool.not_eq_true _ |>.mp hkept, not_not.1 hcached⟩

theorem updateProp_of_not_needed (hcheck : dpValueCheck new prop = true)
    (htype : new.type = some prop.propTp) (h : (updateProp need malloc new prop).1 = false)
    (hlose : losesString need malloc new prop = false) :
    (updateProp need malloc new prop).2 = prop := by
  by_cases hneed : need = true ∨ prop.cached ≠ some new
  · rw [updateProp_eq_of_needed hcheck htype hneed] at h
    rcases @updateProp_need malloc new prop hcheck htype with
      ⟨-, htrue, -⟩ | ⟨hstore, -⟩
    · rw [h] at htrue
      cases htrue
    · rw [(@losesString_iff need malloc _ _ htype).2 ⟨hneed, hstore⟩] at hlose
      cases hlose
  · obtain ⟨hneed, hcached⟩ := not_or.1 hneed
    rw [Bool.not_eq_true _ |>.mp hneed, updateProp_of_cached (not_not.1 hcached)]

end Update

/-- The same data point: entries change neither the description nor the limits of a node. -/
structure SameFrame (node node' : DpNode) : Prop where
  desc : node'.desc = node.desc
  propTp : node'.prop.propTp = node.prop.propTp
  check : ∀ value, dpValueCheck value node'.prop = dpValueCheck value node.prop

theorem SameFrame.refl (node : DpNode) : SameFrame node node := ⟨rfl, rfl, fun _ => rfl⟩

theorem SameFrame.trans {node node' node'' : DpNode} (h : SameFrame node node')
    (h' : SameFrame node' node'') : SameFrame node node'' :=
  ⟨h'.desc.trans h.desc, h'.propTp.trans h.propTp, fun v => (h'.check v).trans (h.check v)⟩

def Reportable (preprocess : Bool) (node : DpNode) : Prop :=
  node.desc.mode ≠ .wr ∧ node.desc.type = .obj ∧ ¬(preprocess = true ∧ node.desc.passive = .psvTrue)

theorem SameFrame.reportable_iff {preprocess : Bool} {node node' : DpNode}
    (h : SameFrame node node') : Reportable preprocess node' ↔ Reportable preprocess node := by
  rw [Reportable, Reportable, h.desc]

/-- The effect of an entry on its node in a report of objects. -/
structure Updated (flags : UInt32) (malloc : Bool) (dp : DpObj) (node node' : DpNode)
    (noted : Bool) : Prop where
  frame : SameFrame node node'
  value : (losesString (isNeedUpdate .obj flags node) malloc dp.value node.prop = false ∧
      node'.prop.cached = some dp.value) ∨
    (losesString (isNeedUpdate .obj flags node) malloc dp.value node.prop = true ∧
      noted = false ∧ node'.prop.cached = none)
  pvStat : node'.pvStat = if noted then .statLocal else node.pvStat
  cached : noted = false →
    losesString (isNeedUpdate .obj flags node) malloc dp.value node.prop = false →
    node'.prop = node.prop

/-- **An entry that fits.** -/
theorem dpReptUpdate_spec {preprocess : Bool} {flags : UInt32} {malloc : Bool} {dp : DpObj}
    {node : DpNode} (hopen : Reportable preprocess node)
    (hcheck : dpValueCheck dp.value node.prop = true)
    (htype : dp.value.type = some node.prop.propTp) :
    Updated flags malloc dp node (dpReptUpdate .obj flags malloc dp node).2
      (!(dpReptUpdate .obj flags malloc dp node).1) := by
  have hlimits := updateProp_limits (isNeedUpdate .obj flags node) malloc dp.value node.prop
  have hvalue := @updateProp_value (isNeedUpdate .obj flags node) malloc _ _ hcheck htype
  have hkeep := @updateProp_of_not_needed (isNeedUpdate .obj flags node) malloc dp.value node.prop
    hcheck htype
  rw [dpReptUpdate, hopen.2.1]
  dsimp only
  by_cases h : (updateProp (isNeedUpdate .obj flags node) malloc dp.value node.prop).1 = true
  · rw [if_pos h]
    refine ⟨⟨rfl, hlimits.1, hlimits.2⟩, ?_, rfl, fun hno => by cases hno⟩
    rw [h] at hvalue
    exact hvalue.imp_right fun hlost => by cases hlost.2.1
  · have hfalse := Bool.not_eq_true _ |>.mp h
    rw [if_neg h]
    refine ⟨⟨rfl, hlimits.1, hlimits.2⟩, ?_, rfl, fun _ hlose => hkeep hfalse hlose⟩
    exact hvalue.imp_right fun hlost => ⟨hlost.1, rfl, hlost.2.2⟩

theorem dpTypeCheck_obj_iff (dp : DpObj) (node : DpNode) :
    dpTypeCheck .obj dp node = true ↔
      node.desc.mode ≠ .wr ∧ node.desc.type = .obj ∧ dpValueCheck dp.value node.prop = true := by
  rw [dpTypeCheck]
  by_cases hmode : node.desc.mode = .wr
  · simp [hmode]
  · cases htype : node.desc.type <;> simp [hmode]

theorem exists_noteFate {value : DpValue} {prop prop' : DpProp}
    (hcheck : dpValueCheck value prop' = dpValueCheck value prop)
    (hfit : dpValueCheck value prop = true) (htype : value.type = some prop.propTp) :
    ∃ n, noteFate value prop' = .note n := by
  rw [hfit] at hcheck
  cases value with
  | enum e =>
    cases prop' with
    | enum ppEnum old =>
      have hlt : e.toNat < ppEnum.length := of_decide_eq_true hcheck
      simp only [noteFate, recordLen, List.getElem?_eq_getElem hlt]
      exact ⟨_, rfl⟩
    | _ => cases hcheck
  | other type => cases htype
  | _ => exact ⟨_, rfl⟩

/-- **A turn of the check** in a report of objects: an entry without a node or one that does not fit
is passed over, one of the wrong type ends the check, and any other goes to its node. -/
theorem checkEntry_cases (preprocess : Bool) (flags : UInt32) (malloc : Bool)
    (nodes : List DpNode) (dp : DpObj) :
    (checkEntry preprocess .obj flags malloc nodes dp = (.skip, nodes) ∧
      ∀ node, dpNodeFind nodes dp.id = some node →
        dp.value.type = some node.prop.propTp ∧
          ¬(Reportable preprocess node ∧ dpValueCheck dp.value node.prop = true)) ∨
    checkEntry preprocess .obj flags malloc nodes dp = (.fail oprtSvcDpTpNotMatch, nodes) ∨
    ∃ node node' noted, dpNodeFind nodes dp.id = some node ∧ Reportable preprocess node ∧
      dpValueCheck dp.value node.prop = true ∧ dp.value.type = some node.prop.propTp ∧
      Updated flags malloc dp node node' noted ∧
      (checkEntry preprocess .obj flags malloc nodes dp).2 = dpNodeSet nodes dp.id (fun _ => node') ∧
      ((noted = false ∧ (checkEntry preprocess .obj flags malloc nodes dp).1 = .skip) ∨
        (noted = true ∧ ∃ n, (checkEntry preprocess .obj flags malloc nodes dp).1 = .note n)) := by
  rw [checkEntry]
  cases hfind : dpNodeFind nodes dp.id with
  | none =>
    refine Or.inl ⟨rfl, fun node hnode => ?_⟩
    cases hnode
  | some node =>
    dsimp only
    by_cases htype : dp.value.type = some node.prop.propTp
    · rw [if_neg (not_not_intro htype), if_neg (by decide)]
      by_cases hfit : dpTypeCheck .obj dp node = true
      · obtain ⟨hmode, hobj, hcheck⟩ := (dpTypeCheck_obj_iff dp node).mp hfit
        rw [if_neg (by rw [hfit]; exact fun h => Bool.noConfusion h)]
        by_cases hpassive : preprocess = true ∧ node.desc.passive = .psvTrue
        · rw [if_pos hpassive]
          refine Or.inl ⟨rfl, fun node' hnode' => ?_⟩
          cases hnode'
          exact ⟨htype, fun h => h.1.2.2 hpassive⟩
        · rw [if_neg hpassive]
          have hopen : Reportable preprocess node := ⟨hmode, hobj, hpassive⟩
          have hupdated := @dpReptUpdate_spec _ flags malloc dp node hopen hcheck htype
          refine Or.inr (Or.inr ⟨node, _, _, rfl, hopen, hcheck, htype, hupdated, ?_, ?_⟩)
          · split_ifs <;> rfl
          · cases hskip : (dpReptUpdate .obj flags malloc dp node).1 with
            | true => exact Or.inl ⟨rfl, rfl⟩
            | false =>
              obtain ⟨n, hn⟩ := exists_noteFate (hupdated.frame.check dp.value) hcheck htype
              rw [if_neg Bool.false_ne_true]
              exact Or.inr ⟨rfl, n, hn⟩
      · rw [if_pos (Bool.not_eq_true _ |>.mp hfit)]
        refine Or.inl ⟨rfl, fun node' hnode' => ?_⟩
        cases hnode'
        exact ⟨htype, fun h => hfit ((dpTypeCheck_obj_iff dp node).mpr ⟨h.1.1, h.1.2.1, h.2⟩)⟩
    · rw [if_pos htype]
      exact Or.inr (Or.inl rfl)

/-! ### The whole loop -/

section Loop

variable {preprocess : Bool} {reptType : ReptType} {flags : UInt32} {malloc : Nat → Bool}

theorem sublist_checkLoop (i : Nat) (dps : List DpObj) (nodes : List DpNode) :
    ((checkLoop preprocess reptType flags malloc i dps nodes).2.2.map (·.1)).Sublist dps := by
  induction dps generalizing i nodes with
  | nil => exact List.Sublist.refl _
  | cons dp dps ih =>
    rw [checkLoop]
    split
    · exact (ih _ _).cons dp
    · exact List.nil_sublist _
    · exact (ih _ _).cons_cons dp

theorem recordLen_ne_error_ok (value : DpValue) (prop : DpProp) :
    recordLen value prop ≠ .error oprtOk := by
  unfold recordLen
  split
  case h_5 => split <;> exact nofun
  all_goals exact nofun

theorem noteFate_ne_fail_ok (value : DpValue) (prop : DpProp) :
    noteFate value prop ≠ .fail oprtOk := by
  rw [noteFate]
  split
  · exact nofun
  · next rt hrt =>
    intro h
    rw [EntryFate.fail.inj h] at hrt
    exact recordLen_ne_error_ok _ _ hrt

theorem checkEntry_ne_fail_ok (malloc : Bool) (nodes : List DpNode) (dp : DpObj) :
    (checkEntry preprocess reptType flags malloc nodes dp).1 ≠ .fail oprtOk := by
  rw [checkEntry]
  split
  · exact nofun
  · split_ifs
    · exact nofun
    · exact noteFate_ne_fail_ok _ _
    · exact nofun
    · exact nofun
    · dsimp only
      split_ifs
      · exact nofun
      · exact noteFate_ne_fail_ok _ _

theorem checkEntry_invariant {Inv : List DpNode → Prop} {nodes : List DpNode} {dp : DpObj}
    {malloc : Bool}
    (hstep : ∀ node node' noted, dpNodeFind nodes dp.id = some node →
      Updated flags malloc dp node node' noted → Inv (dpNodeSet nodes dp.id fun _ => node'))
    (h : Inv nodes) : Inv (checkEntry preprocess .obj flags malloc nodes dp).2 := by
  rcases checkEntry_cases preprocess flags malloc nodes dp with hskip | hfail | hfit
  · rw [hskip.1]
    exact h
  · rw [hfail]
    exact h
  · obtain ⟨node, node', noted, hfind, -, -, -, hupdated, hnodes, -⟩ := hfit
    rw [hnodes]
    exact hstep node node' noted hfind hupdated

/-- **Invariant rule.** In a report of objects, what every entry that fits its node preserves holds
after the check. -/
theorem checkLoop_invariant {Inv : List DpNode → Prop} {dps : List DpObj}
    (hstep : ∀ i nodes, ∀ dp ∈ dps, ∀ node node' noted, Inv nodes →
      dpNodeFind nodes dp.id = some node → Updated flags (malloc i) dp node node' noted →
      Inv (dpNodeSet nodes dp.id fun _ => node'))
    (i : Nat) {nodes : List DpNode} (h : Inv nodes) :
    Inv (checkLoop preprocess .obj flags malloc i dps nodes).2.1 := by
  induction dps generalizing i nodes with
  | nil => exact h
  | cons dp dps ih =>
    have hentry : Inv (checkEntry preprocess .obj flags (malloc i) nodes dp).2 :=
      checkEntry_invariant (fun node node' noted =>
        hstep i nodes dp List.mem_cons_self node node' noted h) h
    have ih := ih fun i nodes dp' hdp' => hstep i nodes dp' (List.mem_cons_of_mem _ hdp')
    rw [checkLoop]
    cases heq : checkEntry preprocess .obj flags (malloc i) nodes dp with
    | mk fate nodes' =>
      rw [heq] at hentry
      cases fate with
      | skip => exact ih (i + 1) hentry
      | fail rt => exact hentry
      | note n => exact ih (i + 1) hentry

def SameFrames (nodes nodes' : List DpNode) : Prop :=
  ∀ id, (dpNodeFind nodes id = none ∧ dpNodeFind nodes' id = none) ∨
    ∃ node node', dpNodeFind nodes id = some node ∧ dpNodeFind nodes' id = some node' ∧
      SameFrame node node'

theorem SameFrames.refl (nodes : List DpNode) : SameFrames nodes nodes := by
  intro id
  cases h : dpNodeFind nodes id with
  | none => exact Or.inl ⟨rfl, rfl⟩
  | some node => exact Or.inr ⟨node, node, rfl, rfl, SameFrame.refl node⟩

theorem SameFrames.some {nodes nodes' : List DpNode} (h : SameFrames nodes nodes') {id : UInt8}
    {node : DpNode} (hfind : dpNodeFind nodes id = .some node) :
    ∃ node', dpNodeFind nodes' id = .some node' ∧ SameFrame node node' := by
  rcases h id with ⟨hnone, -⟩ | ⟨n, n', hn, hn', hframe⟩
  · rw [hfind] at hnone
    cases hnone
  · rw [hfind] at hn
    cases hn
    exact ⟨n', hn', hframe⟩

theorem SameFrames.exists_of_some {nodes nodes' : List DpNode} (h : SameFrames nodes nodes')
    {id : UInt8} {node' : DpNode} (hfind : dpNodeFind nodes' id = .some node') :
    ∃ node, dpNodeFind nodes id = .some node ∧ SameFrame node node' := by
  rcases h id with ⟨-, hnone⟩ | ⟨n, n', hn, hn', hframe⟩
  · rw [hfind] at hnone
    cases hnone
  · rw [hfind] at hn'
    cases hn'
    exact ⟨n, hn, hframe⟩

theorem SameFrame.dpNodeFind_dpNodeSet {nodes : List DpNode} {id : UInt8} {node node' : DpNode}
    (hframe : SameFrame node node') (hfind : dpNodeFind nodes id = some node) (id' : UInt8) :
    dpNodeFind (dpNodeSet nodes id fun _ => node') id' =
      if id' = id then some node' else dpNodeFind nodes id' := by
  have hid : ∀ n, dpNodeFind nodes id = some n → node'.desc.id = id := by
    intro n _
    rw [hframe.desc]
    exact id_of_dpNodeFind hfind
  rw [Dp.dpNodeFind_dpNodeSet hid, hfind]
  rfl

theorem SameFrames.dpNodeSet {nodes nodes' : List DpNode} (h : SameFrames nodes nodes') {id : UInt8}
    {node node' : DpNode} (hfind : dpNodeFind nodes' id = .some node)
    (hframe : SameFrame node node') : SameFrames nodes (dpNodeSet nodes' id fun _ => node') := by
  intro id'
  rw [hframe.dpNodeFind_dpNodeSet hfind]
  by_cases heq : id' = id
  · obtain ⟨n, hn, hframe'⟩ := h.exists_of_some hfind
    rw [if_pos heq, heq]
    exact Or.inr ⟨n, node', hn, rfl, hframe'.trans hframe⟩
  · rw [if_neg heq]
    exact h id'

theorem sameFrames_checkLoop (i : Nat) (dps : List DpObj) (nodes : List DpNode) :
    SameFrames nodes (checkLoop preprocess .obj flags malloc i dps nodes).2.1 := by
  refine checkLoop_invariant ?_ i (SameFrames.refl nodes)
  intro i nodes' dp _ node node' noted h hfind hupdated
  exact h.dpNodeSet hfind hupdated.frame

/-- **A check that succeeds.** Every entry has the type of its node, and an entry that is noted has
a node whose values can be reported, and fits it. -/
theorem of_checkLoop_eq_ok {i : Nat} {dps : List DpObj} {nodes : List DpNode}
    (h : (checkLoop preprocess .obj flags malloc i dps nodes).1 = oprtOk) :
    (∀ dp ∈ dps, ∀ node, dpNodeFind nodes dp.id = some node →
      dp.value.type = some node.prop.propTp) ∧
    ∀ e ∈ (checkLoop preprocess .obj flags malloc i dps nodes).2.2,
      ∃ node, dpNodeFind nodes e.1.id = some node ∧ Reportable preprocess node ∧
        dpValueCheck e.1.value node.prop = true := by
  induction dps generalizing i nodes with
  | nil => exact ⟨nofun, nofun⟩
  | cons dp dps ih =>
    have hframes : SameFrames nodes (checkEntry preprocess .obj flags (malloc i) nodes dp).2 :=
      checkEntry_invariant (fun _ _ _ hfind hupdated =>
        (SameFrames.refl nodes).dpNodeSet hfind hupdated.frame) (SameFrames.refl nodes)
    have hcases := checkEntry_cases preprocess flags (malloc i) nodes dp
    rw [checkLoop] at h ⊢
    cases heq : checkEntry preprocess .obj flags (malloc i) nodes dp with
    | mk fate nodes' =>
      rw [heq] at h hframes hcases
      -- What holds of the later entries and the nodes after this turn holds of the nodes before it.
      have hlater : (checkLoop preprocess .obj flags malloc (i + 1) dps nodes').1 = oprtOk →
          (∀ dp' ∈ dps, ∀ node, dpNodeFind nodes dp'.id = some node →
            dp'.value.type = some node.prop.propTp) ∧
          ∀ e ∈ (checkLoop preprocess .obj flags malloc (i + 1) dps nodes').2.2,
            ∃ node, dpNodeFind nodes e.1.id = some node ∧ Reportable preprocess node ∧
              dpValueCheck e.1.value node.prop = true := by
        intro hok
        obtain ⟨htypes, hnoted⟩ := ih hok
        refine ⟨fun dp' hdp' node hnode => ?_, fun e he => ?_⟩
        · obtain ⟨node', hnode', hframe⟩ := hframes.some hnode
          rw [htypes dp' hdp' node' hnode', hframe.propTp]
        · obtain ⟨node', hnode', hopen, hcheck⟩ := hnoted e he
          obtain ⟨node, hnode, hframe⟩ := hframes.exists_of_some hnode'
          exact ⟨node, hnode, hframe.reportable_iff.mp hopen, (hframe.check _).symm.trans hcheck⟩
      have htype : fate ≠ .fail oprtSvcDpTpNotMatch → ∀ node, dpNodeFind nodes dp.id = some node →
          dp.value.type = some node.prop.propTp := by
        intro hfate node hnode
        rcases hcases with hskip | hfail | ⟨node', -, -, hfind, -, -, htype, -⟩
        · exact (hskip.2 node hnode).1
        · exact absurd (Prod.mk.inj hfail).1 hfate
        · rw [hfind] at hnode
          cases hnode
          exact htype
      cases fate with
      | skip =>
        obtain ⟨htypes, hnoted⟩ := hlater h
        exact ⟨List.forall_mem_cons.mpr ⟨htype nofun, htypes⟩, hnoted⟩
      | fail rt =>
        have hrt : rt = oprtOk := h
        have hfail := @checkEntry_ne_fail_ok preprocess .obj flags (malloc i) nodes dp
        rw [heq, hrt] at hfail
        exact absurd rfl hfail
      | note n =>
        obtain ⟨htypes, hnoted⟩ := hlater h
        refine ⟨List.forall_mem_cons.mpr ⟨htype nofun, htypes⟩,
          List.forall_mem_cons.mpr ⟨?_, hnoted⟩⟩
        rcases hcases with hskip | hfail | ⟨node, -, -, hfind, hopen, hcheck, -⟩
        · cases (Prod.mk.inj hskip.1).1
        · cases (Prod.mk.inj hfail).1
        · exact ⟨node, hfind, hopen, hcheck⟩

end Loop

end TuyaOpen.Dp
