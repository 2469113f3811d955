import TuyaOpen.Basic.Json
import TuyaOpen.Dp.Schema
import TuyaOpen.Utilities.Base64

/-!
# Commands for data points

`dp_data_recv_parse` of `dp_schema.c` goes through the members of a command twice. The first time it
counts those whose node is an object, and so many places are allocated. The second time it fills the
places, by the type of the property alone, and what it refuses has been counted before.

Names of members are read with `atoi`, and a number of `cJSON` has its value as an `int`.
-/

namespace TuyaOpen.Dp

open TuyaOpen.Utilities

/-! ### Members -/

/-- The types of `cJSON`. -/
inductive JsonType
  | cJsonFalse
  | cJsonTrue
  | cJsonNull
  | cJsonNumber
  | cJsonString
  | cJsonArray
  | cJsonObject
  | cJsonRaw
  deriving DecidableEq

/-- A member of an object in `cJSON`. The string is that of a member of type `cJSON_String`. -/
structure DpItem where
  string : Bytes
  type : JsonType
  valuestring : Bytes
  valueint : Int32

/-- `isspace`. -/
def isSpace (b : UInt8) : Bool := b = 32 ∨ (9 ≤ b.toNat ∧ b.toNat ≤ 13)

/-- `atoi`. What is beyond an `int` is not defined in C, and it is no identifier here. -/
def atoi (s : Bytes) : Int :=
  let s := s.dropWhile isSpace
  if s.head? = some 45 then -(Json.digitsValue ((s.drop 1).takeWhile Json.isDigit) : Int)
  else if s.head? = some 43 then Json.digitsValue ((s.drop 1).takeWhile Json.isDigit)
  else Json.digitsValue (s.takeWhile Json.isDigit)

/-- `dp_node_find` with an `int`. -/
def dpNodeFindInt (nodes : List DpNode) (id : Int) : Option DpNode :=
  nodes.find? fun node => (node.desc.id.toNat : Int) = id

def itemNode (nodes : List DpNode) (item : DpItem) : Option DpNode :=
  dpNodeFindInt nodes (atoi item.string)

/-! ### The first pass -/

/-- A turn of the first pass: the count, and the nodes. A node that has been asked for is no longer
passive. -/
def countItem (preprocess : Bool) (acc : UInt16 × List DpNode) (item : DpItem) :
    UInt16 × List DpNode :=
  match itemNode acc.2 item with
  | none => acc
  | some node =>
    (if node.desc.type = .obj then acc.1 + 1 else acc.1,
      if preprocess = true ∧ node.desc.passive = .psvTrue then
        dpNodeSet acc.2 node.desc.id fun node =>
          { node with desc := { node.desc with passive := .psvFOnce } }
      else acc.2)

def recvCount (preprocess : Bool) (items : List DpItem) (nodes : List DpNode) :
    UInt16 × List DpNode :=
  items.foldl (countItem preprocess) (0, nodes)

/-! ### The second pass -/

/-- The switch on the type of the property: the value that is filled in, if the member is not passed
over. A member for an enumeration that is no string leaves the switch and is filled in without a
value, and one for a bitmap is not looked at. -/
def recvValue (prop : DpProp) (item : DpItem) : Option DpValue :=
  match prop with
  | .bool _ =>
    if item.type = .cJsonTrue then some (.bool true)
    else if item.type = .cJsonFalse then some (.bool false)
    else none
  | .int _ _ _ => if item.type = .cJsonNumber then some (.value item.valueint) else none
  | .str _ _ _ => if item.type = .cJsonString then some (.str item.valuestring) else none
  | .enum ppEnum _ =>
    if item.type = .cJsonString then
      (ppEnum.findIdx? fun name => name = item.valuestring).map fun j => .enum (UInt32.ofNat j)
    else some (.enum 0)
  | .bitmap _ _ => some (.bitmap item.valueint.toUInt32)

def rawData (type : DpType) (item : DpItem) : Option Bytes :=
  if type = .raw ∧ item.type = .cJsonString then some (tuyaBase64Decode item.valuestring) else none

/-- The second pass from a member on: the nodes, the raw data that has been delivered, the entries
that are filled in, one after another, and whether it has come to the end. -/
structure RecvLoop where
  nodes : List DpNode
  raws : List (UInt8 × Bytes)
  dps : List DpObj
  done : Bool

/-- The second pass, from the member `k` and the place `i` on. `posix i` is the time when the place
`i` is filled in, and `mallocRaw k` says whether there is memory for the raw data of the member
`k`. -/
def recvLoop (posix : Nat → UInt32) (mallocRaw : Nat → Bool) :
    Nat → Nat → List DpItem → List DpNode → RecvLoop
  | _, _, [], nodes => ⟨nodes, [], [], true⟩
  | k, i, item :: items, nodes =>
    match itemNode nodes item with
    | none => recvLoop posix mallocRaw (k + 1) i items nodes
    | some node =>
      match rawData node.desc.type item with
      | some data =>
        if mallocRaw k then
          let r := recvLoop posix mallocRaw (k + 1) i items nodes
          { r with raws := (node.desc.id, data) :: r.raws }
        else ⟨nodes, [], [], false⟩
      | none =>
        let nodes := dpPvStatSet nodes node.desc.id .statLocal
        match recvValue node.prop item with
        | none => recvLoop posix mallocRaw (k + 1) i items nodes
        | some value =>
          let r := recvLoop posix mallocRaw (k + 1) (i + 1) items nodes
          { r with dps := ⟨node.desc.id, value, posix i⟩ :: r.dps }

/-! ### The function -/

/-- `dp_recv_msg_t`: `dps` are the members of the object `dps`, if there is one. -/
structure DpRecvMsg where
  devid : Bytes
  cmd : UInt8
  dtTp : UInt8
  dps : Option (List DpItem)

/-- `dp_raw_recv_t` and `dp_obj_recv_t`, as the callback receives them. -/
inductive RecvCall
  | raw (cmdTp dttTp : UInt8) (devid : Bytes) (id : UInt8) (data : Bytes)
  | obj (cmdTp dttTp : UInt8) (devid : Bytes) (dpscnt : UInt16) (dps : List DpObj)

/-- What happens in a call: the time, and whether memory is allocated. -/
structure RecvEnv where
  posix : Nat → UInt32
  malloc : Bool
  mallocRaw : Nat → Bool

/-- What a call comes to: the number of places of the array, and those that have been written. -/
structure RecvOut where
  ret : OperateRet
  nodes : List DpNode
  slots : Nat
  writes : List Nat
  calls : List RecvCall

def zeroObj : DpObj := ⟨0, .bool false, 0⟩

/-- `dp_data_recv_parse` with a callback. -/
def dpDataRecvParse (env : RecvEnv) (schema : Option DpSchema) (msg : DpRecvMsg) : RecvOut :=
  match schema, msg.dps with
  | some schema, some items =>
    let count := recvCount schema.preprocess items schema.nodes
    if count.1 ≠ 0 ∧ env.malloc = false then ⟨oprtMallocFailed, count.2, 0, [], []⟩
    else
      let r := recvLoop env.posix env.mallocRaw 0 0 items count.2
      let raws := r.raws.map fun e => .raw msg.cmd msg.dtTp msg.devid e.1 e.2
      let objs :=
        if r.done = true ∧ count.1 ≠ 0 then
          [.obj msg.cmd msg.dtTp msg.devid count.1
            ((r.dps ++ List.replicate count.1.toNat zeroObj).take count.1.toNat)]
        else []
      ⟨oprtOk, r.nodes, count.1.toNat, List.range r.dps.length, raws ++ objs⟩
  | _, _ => ⟨oprtComError, (schema.map DpSchema.nodes).getD [], 0, [], []⟩

/-! ### What ought to be delivered -/

/-- The value of a member that fits a property: a truth value, a number, a string, the name of an
enumeration, or the number of a bitmap. -/
def conformingValue (prop : DpProp) (item : DpItem) : Option DpValue :=
  match prop with
  | .bool _ =>
    if item.type = .cJsonTrue then some (.bool true)
    else if item.type = .cJsonFalse then some (.bool false)
    else none
  | .int _ _ _ => if item.type = .cJsonNumber then some (.value item.valueint) else none
  | .str _ _ _ => if item.type = .cJsonString then some (.str item.valuestring) else none
  | .enum ppEnum _ =>
    if item.type = .cJsonString then
      (ppEnum.findIdx? fun name => name = item.valuestring).map fun j => .enum (UInt32.ofNat j)
    else none
  | .bitmap _ _ =>
    if item.type = .cJsonNumber then some (.bitmap item.valueint.toUInt32) else none

/-- What of a node a member is compared with. -/
structure DpView where
  id : UInt8
  type : DpType
  prop : DpProp

def DpNode.view (node : DpNode) : DpView := ⟨node.desc.id, node.desc.type, node.prop⟩

def itemView (nodes : List DpNode) (item : DpItem) : Option DpView :=
  (itemNode nodes item).map DpNode.view

def conforming (nodes : List DpNode) (item : DpItem) : Option (UInt8 × DpValue) :=
  (itemView nodes item).bind fun v =>
    if v.type = .obj then (conformingValue v.prop item).map fun value => (v.id, value) else none

def stamp (posix : Nat → UInt32) : Nat → List (UInt8 × DpValue) → List DpObj
  | _, [] => []
  | i, e :: es => ⟨e.1, e.2, posix i⟩ :: stamp posix (i + 1) es

def expected (posix : Nat → UInt32) (nodes : List DpNode) (items : List DpItem) : List DpObj :=
  stamp posix 0 (items.filterMap (conforming nodes))

def RecvCall.objs : RecvCall → Option (UInt16 × List DpObj)
  | .raw _ _ _ _ _ => none
  | .obj _ _ _ dpscnt dps => some (dpscnt, dps)

/-- All writes are in the array, and the callback for objects receives the entries that ought to be
delivered, with their number, if there are any. -/
def ParsesExactly (env : RecvEnv) (schema : DpSchema) (msg : DpRecvMsg) (items : List DpItem) :
    Prop :=
  let out := dpDataRecvParse env (some schema) { msg with dps := some items }
  let dps := expected env.posix schema.nodes items
  (∀ i ∈ out.writes, i < out.slots) ∧
    ((dps = [] ∧ out.calls.filterMap RecvCall.objs = []) ∨
      (dps ≠ [] ∧ ∃ dpscnt, out.calls.filterMap RecvCall.objs = [(dpscnt, dps)] ∧
        dpscnt.toNat = dps.length))

/-! ### The condition -/

/-- A member for an enumeration that is no string, one for a bitmap that is no number, or one for a
node of another type than objects that goes through the switch all the same. -/
def Misread (v : DpView) (item : DpItem) : Prop :=
  (v.type = .obj ∧ ((v.prop.propTp = .enum ∧ item.type ≠ .cJsonString) ∨
      (v.prop.propTp = .bitmap ∧ item.type ≠ .cJsonNumber))) ∨
    (v.type ≠ .obj ∧ rawData v.type item = none ∧ recvValue v.prop item ≠ none)

def objCount (nodes : List DpNode) (items : List DpItem) : Nat :=
  items.countP fun item => (itemView nodes item).any fun v => v.type = .obj

/-- The members before the first one that has raw data without memory for it, from the member `k`
on. -/
def beforeStop (nodes : List DpNode) (mallocRaw : Nat → Bool) : Nat → List DpItem → List DpItem
  | _, [] => []
  | k, item :: items =>
    if ((itemView nodes item).any fun v => (rawData v.type item).isSome) = true ∧
        mallocRaw k = false then []
    else item :: beforeStop nodes mallocRaw (k + 1) items

/-- The identifier and the value that the second pass fills in for a member. -/
def filled (nodes : List DpNode) (item : DpItem) : Option (UInt8 × DpValue) :=
  (itemView nodes item).bind fun v =>
    if (rawData v.type item).isSome then none
    else (recvValue v.prop item).map fun value => (v.id, value)

def HasArray (env : RecvEnv) (nodes : List DpNode) (items : List DpItem) : Prop :=
  objCount nodes items % 65536 ≠ 0 → env.malloc = true

def HasMemory (env : RecvEnv) (nodes : List DpNode) (items : List DpItem) : Prop :=
  HasArray env nodes items ∧ beforeStop nodes env.mallocRaw 0 items = items

/-- The condition on a command. If there is memory, no member is misread, and as many conform as are
counted. Otherwise none conforms, and no more are filled in than are counted. -/
def RecvCond (env : RecvEnv) (nodes : List DpNode) (items : List DpItem) : Prop :=
  (HasMemory env nodes items ∧
      (∀ item ∈ items, ∀ v, itemView nodes item = some v → ¬Misread v item) ∧
      objCount nodes items % 65536 = (items.filterMap (conforming nodes)).length) ∨
    (¬HasMemory env nodes items ∧ items.filterMap (conforming nodes) = [] ∧
      (HasArray env nodes items →
        ((beforeStop nodes env.mallocRaw 0 items).filterMap (filled nodes)).length ≤
          objCount nodes items % 65536))

/-! ### The passes -/

section Passes

variable {nodes nodes' : List DpNode} {item : DpItem}

theorem itemView_dpNodeSet {f : DpNode → DpNode} (hf : ∀ node, (f node).view = node.view)
    (nodes : List DpNode) (id : UInt8) (item : DpItem) :
    itemView (dpNodeSet nodes id f) item = itemView nodes item := by
  have hid : ∀ node, (f node).desc.id = node.desc.id := fun node => congrArg DpView.id (hf node)
  rw [itemView, itemView, itemNode, itemNode, dpNodeFindInt, dpNodeFindInt]
  induction nodes with
  | nil => rfl
  | cons node nodes ih =>
    rw [dpNodeSet]
    by_cases hset : node.desc.id = id
    · rw [if_pos hset, List.find?_cons, List.find?_cons, hid]
      split
      · rw [Option.map_some, Option.map_some, hf]
      · rfl
    · rw [if_neg hset, List.find?_cons, List.find?_cons]
      split
      · rfl
      · exact ih

theorem itemView_dpPvStatSet (nodes : List DpNode) (id : UInt8) (pvStat : PvStat) (item : DpItem) :
    itemView (dpPvStatSet nodes id pvStat) item = itemView nodes item := by
  refine itemView_dpNodeSet ?_ nodes id item
  exact fun _ => rfl

theorem countItem_spec (preprocess : Bool) (acc : UInt16 × List DpNode) (item : DpItem) :
    (countItem preprocess acc item).1 =
        (if (itemView acc.2 item).any (fun v => v.type = .obj) = true then acc.1 + 1 else acc.1) ∧
      ∀ item', itemView (countItem preprocess acc item).2 item' = itemView acc.2 item' := by
  rw [countItem, itemView]
  cases itemNode acc.2 item with
  | none => exact ⟨rfl, fun _ => rfl⟩
  | some node =>
    constructor
    · simp [DpNode.view]
    · intro item'
      dsimp only
      split
      · refine itemView_dpNodeSet ?_ _ _ item'
        exact fun _ => rfl
      · rfl

/-- **The first pass** counts the members for nodes of objects, and members see no difference. -/
theorem recvCount_spec (preprocess : Bool) (items : List DpItem) (nodes : List DpNode) :
    (recvCount preprocess items nodes).1 = UInt16.ofNat (objCount nodes items) ∧
      ∀ item, itemView (recvCount preprocess items nodes).2 item = itemView nodes item := by
  have hfold : ∀ (items : List DpItem) (acc : UInt16 × List DpNode),
      (∀ item, itemView acc.2 item = itemView nodes item) →
      (items.foldl (countItem preprocess) acc).1 = acc.1 + UInt16.ofNat (objCount nodes items) ∧
        ∀ item, itemView (items.foldl (countItem preprocess) acc).2 item =
          itemView nodes item := by
    intro items
    induction items with
    | nil => exact fun acc hacc => ⟨(UInt16.add_zero _).symm, hacc⟩
    | cons item items ih =>
      intro acc hacc
      obtain ⟨hcount, hview⟩ := countItem_spec preprocess acc item
      obtain ⟨hcount', hview'⟩ :=
        ih (countItem preprocess acc item) fun item' => (hview item').trans (hacc item')
      refine ⟨?_, hview'⟩
      rw [List.foldl_cons, hcount', hcount, hacc, objCount, objCount, List.countP_cons]
      split
      · rw [UInt16.ofNat_add, UInt16.add_assoc, UInt16.add_comm 1]
        rfl
      · rfl
  have h := hfold items (0, nodes) fun _ => rfl
  rwa [UInt16.zero_add] at h

variable {posix : Nat → UInt32} {mallocRaw : Nat → Bool}

/-- **The second pass** fills in the members before it stops, one after another. -/
theorem recvLoop_spec (items : List DpItem) (k i : Nat)
    (h : ∀ item, itemView nodes' item = itemView nodes item) :
    (recvLoop posix mallocRaw k i items nodes').dps =
        stamp posix i ((beforeStop nodes mallocRaw k items).filterMap (filled nodes)) ∧
      ((recvLoop posix mallocRaw k i items nodes').done = true ↔
        beforeStop nodes mallocRaw k items = items) := by
  induction items generalizing k i nodes' with
  | nil => exact ⟨rfl, iff_of_true rfl rfl⟩
  | cons item items ih =>
    have hitem := h item
    rw [recvLoop, beforeStop, ← hitem]
    cases hnode : itemNode nodes' item with
    | none =>
      have hview : itemView nodes' item = none := by rw [itemView, hnode, Option.map_none]
      have hfilled : filled nodes item = none := by rw [filled, ← hitem, hview, Option.bind_none]
      obtain ⟨hdps, hdone⟩ := @ih nodes' (k + 1) i h
      rw [hview, if_neg (by simp), List.filterMap_cons_none hfilled]
      exact ⟨hdps, hdone.trans (List.cons_inj_right item).symm⟩
    | some node =>
      have hview : itemView nodes' item = some node.view := by
        rw [itemView, hnode, Option.map_some]
      have hfilled : filled nodes item =
          if (rawData node.desc.type item).isSome then none
          else (recvValue node.prop item).map fun value => (node.desc.id, value) := by
        rw [filled, ← hitem, hview, Option.bind_some]
        rfl
      rw [hview]
      dsimp only
      cases hraw : rawData node.desc.type item with
      | some data =>
        rw [hraw, Option.isSome_some, if_pos rfl] at hfilled
        have hany : (some node.view).any (fun v => (rawData v.type item).isSome) = true := by
          rw [Option.any_some, DpNode.view, hraw, Option.isSome_some]
        cases hmalloc : mallocRaw k with
        | false =>
          rw [if_pos ⟨hany, rfl⟩]
          exact ⟨rfl, iff_of_false Bool.false_ne_true fun heq => by cases heq⟩
        | true =>
          obtain ⟨hdps, hdone⟩ := @ih nodes' (k + 1) i h
          rw [if_neg fun hand => Bool.noConfusion hand.2, List.filterMap_cons_none hfilled]
          exact ⟨hdps, hdone.trans (List.cons_inj_right item).symm⟩
      | none =>
        rw [hraw, Option.isSome_none, if_neg Bool.false_ne_true] at hfilled
        have hany : ¬(some node.view).any (fun v => (rawData v.type item).isSome) = true := by
          rw [Option.any_some, DpNode.view, hraw, Option.isSome_none]
          exact Bool.false_ne_true
        have hset : ∀ item', itemView (dpPvStatSet nodes' node.desc.id .statLocal) item' =
            itemView nodes item' :=
          fun item' => (itemView_dpPvStatSet nodes' _ _ item').trans (h item')
        rw [if_neg fun hand => hany hand.1]
        cases hvalue : recvValue node.prop item with
        | none =>
          rw [hvalue, Option.map_none] at hfilled
          obtain ⟨hdps, hdone⟩ := ih (k + 1) i hset
          rw [List.filterMap_cons_none hfilled]
          exact ⟨hdps, hdone.trans (List.cons_inj_right item).symm⟩
        | some value =>
          rw [hvalue, Option.map_some] at hfilled
          obtain ⟨hdps, hdone⟩ := ih (k + 1) (i + 1) hset
          rw [List.filterMap_cons_some hfilled]
          refine ⟨?_, hdone.trans (List.cons_inj_right item).symm⟩
          dsimp only
          rw [hdps, stamp]

end Passes

/-! ### What is delivered -/

theorem length_stamp (posix : Nat → UInt32) (i : Nat) (es : List (UInt8 × DpValue)) :
    (stamp posix i es).length = es.length := by
  induction es generalizing i with
  | nil => rfl
  | cons e es ih => rw [stamp, List.length_cons, List.length_cons, ih]

theorem stamp_eq_nil_iff {posix : Nat → UInt32} {i : Nat} {es : List (UInt8 × DpValue)} :
    stamp posix i es = [] ↔ es = [] := by
  rw [← List.length_eq_zero_iff, length_stamp, List.length_eq_zero_iff]

section Deliver

variable {nodes : List DpNode} {item : DpItem} {items : List DpItem} {v : DpView}

theorem recvValue_of_conformingValue {prop : DpProp} {value : DpValue}
    (h : conformingValue prop item = some value) : recvValue prop item = some value := by
  cases prop with
  | bool old => exact h
  | int min max old => exact h
  | str maxLen curLen old => exact h
  | enum ppEnum old =>
    rw [conformingValue] at h
    rw [recvValue]
    by_cases hstring : item.type = .cJsonString
    · rw [if_pos hstring] at h ⊢
      exact h
    · rw [if_neg hstring] at h
      cases h
  | bitmap maxLen old =>
    rw [conformingValue] at h
    by_cases hnumber : item.type = .cJsonNumber
    · rw [if_pos hnumber] at h
      exact h
    · rw [if_neg hnumber] at h
      cases h

theorem recvValue_eq_conformingValue_iff {prop : DpProp} :
    recvValue prop item = conformingValue prop item ↔
      ¬((prop.propTp = .enum ∧ item.type ≠ .cJsonString) ∨
        (prop.propTp = .bitmap ∧ item.type ≠ .cJsonNumber)) := by
  cases prop with
  | bool old => simp [recvValue, conformingValue, DpProp.propTp]
  | int min max old => simp [recvValue, conformingValue, DpProp.propTp]
  | str maxLen curLen old => simp [recvValue, conformingValue, DpProp.propTp]
  | enum ppEnum old =>
    by_cases hstring : item.type = .cJsonString
    · simp [recvValue, conformingValue, DpProp.propTp, hstring]
    · simp [recvValue, conformingValue, DpProp.propTp, hstring]
  | bitmap maxLen old =>
    by_cases hnumber : item.type = .cJsonNumber
    · simp [recvValue, conformingValue, DpProp.propTp, hnumber]
    · simp [recvValue, conformingValue, DpProp.propTp, hnumber]

theorem filled_of_conforming {e : UInt8 × DpValue} (h : conforming nodes item = some e) :
    filled nodes item = some e := by
  rw [conforming] at h
  rw [filled]
  cases hview : itemView nodes item with
  | none =>
    rw [hview] at h
    cases h
  | some v =>
    rw [hview, Option.bind_some] at h
    by_cases hobj : v.type = .obj
    · rw [if_pos hobj] at h
      obtain ⟨value, hvalue, rfl⟩ := Option.map_eq_some_iff.1 h
      have hraw : rawData v.type item = none := by
        rw [rawData, hobj]
        exact if_neg fun hand => by cases hand.1
      rw [Option.bind_some, hraw, Option.isSome_none, if_neg Bool.false_ne_true,
        recvValue_of_conformingValue hvalue, Option.map_some]
    · rw [if_neg hobj] at h
      cases h

theorem filled_eq_conforming_iff :
    filled nodes item = conforming nodes item ↔
      ∀ v, itemView nodes item = some v → ¬Misread v item := by
  rw [filled, conforming]
  cases hview : itemView nodes item with
  | none => exact iff_of_true rfl fun v hv => by cases hv
  | some v =>
    have hforall : (∀ v', some v = some v' → ¬Misread v' item) ↔ ¬Misread v item :=
      ⟨fun h => h v rfl, fun h v' hv' => Option.some.inj hv' ▸ h⟩
    rw [hforall, Option.bind_some, Option.bind_some, Misread]
    by_cases hobj : v.type = .obj
    · have hraw : rawData v.type item = none := by
        rw [rawData, hobj]
        exact if_neg fun hand => by cases hand.1
      rw [if_pos hobj, hraw, Option.isSome_none, if_neg Bool.false_ne_true,
        (Option.map_injective (Prod.mk_right_injective v.id)).eq_iff,
        recvValue_eq_conformingValue_iff]
      simp [hobj]
    · rw [if_neg hobj]
      cases hraw : rawData v.type item with
      | some data => simp [hobj]
      | none => simp [hobj]

end Deliver

/-! ### When a command is delivered -/

section FilterMap

variable {α β : Type} {f g : α → Option β}

theorem filterMap_sublist_filterMap (h : ∀ x b, g x = some b → f x = some b) (l : List α) :
    (l.filterMap g).Sublist (l.filterMap f) := by
  induction l with
  | nil => exact List.Sublist.slnil
  | cons x l ih =>
    cases hg : g x with
    | some b =>
      rw [List.filterMap_cons_some hg, List.filterMap_cons_some (h x b hg)]
      exact ih.cons_cons b
    | none =>
      rw [List.filterMap_cons_none hg]
      cases hf : f x with
      | none => rwa [List.filterMap_cons_none hf]
      | some b =>
        rw [List.filterMap_cons_some hf]
        exact ih.cons b

theorem filterMap_eq_filterMap_iff (h : ∀ x b, g x = some b → f x = some b) (l : List α) :
    l.filterMap f = l.filterMap g ↔ ∀ x ∈ l, f x = g x := by
  induction l with
  | nil => exact iff_of_true rfl fun x hx => by cases hx
  | cons x l ih =>
    rw [List.forall_mem_cons, ← ih]
    cases hg : g x with
    | some b =>
      rw [List.filterMap_cons_some (h x b hg), List.filterMap_cons_some hg, h x b hg]
      simp
    | none =>
      rw [List.filterMap_cons_none hg]
      cases hf : f x with
      | none =>
        rw [List.filterMap_cons_none hf]
        simp
      | some b =>
        rw [List.filterMap_cons_some hf]
        refine iff_of_false (fun heq => ?_) fun hand => by cases hand.1
        -- `f` picks more
        have hle := (filterMap_sublist_filterMap h l).length_le
        have hlength := congrArg List.length heq
        rw [List.length_cons] at hlength
        omega

end FilterMap

section Parse

variable {env : RecvEnv} {schema : DpSchema} {msg : DpRecvMsg} {items : List DpItem}

theorem toNat_recvCount (schema : DpSchema) (items : List DpItem) :
    (recvCount schema.preprocess items schema.nodes).1.toNat =
      objCount schema.nodes items % 65536 := by
  rw [(recvCount_spec _ _ _).1, UInt16.toNat_ofNat']

theorem recvCount_eq_zero_iff (schema : DpSchema) (items : List DpItem) :
    (recvCount schema.preprocess items schema.nodes).1 = 0 ↔
      objCount schema.nodes items % 65536 = 0 := by
  rw [← toNat_recvCount, ← UInt16.toNat_inj, UInt16.toNat_zero]

theorem dpDataRecvParse_of_not_hasArray (h : ¬HasArray env schema.nodes items) :
    let out := dpDataRecvParse env (some schema) { msg with dps := some items }
    out.writes = [] ∧ out.calls.filterMap RecvCall.objs = [] := by
  rw [HasArray, Classical.not_imp, Bool.not_eq_true] at h
  obtain ⟨hn, hmalloc⟩ := h
  have hcount := fun heq => hn ((recvCount_eq_zero_iff schema items).1 heq)
  simp only [dpDataRecvParse]
  rw [if_pos ⟨hcount, hmalloc⟩]
  exact ⟨rfl, rfl⟩

theorem filterMap_objs_raws (cmdTp dttTp : UInt8) (devid : Bytes) (raws : List (UInt8 × Bytes)) :
    (raws.map fun e => RecvCall.raw cmdTp dttTp devid e.1 e.2).filterMap RecvCall.objs = [] := by
  rw [List.filterMap_eq_nil_iff]
  intro call hcall
  obtain ⟨e, -, rfl⟩ := List.mem_map.1 hcall
  rfl

theorem dpDataRecvParse_of_hasArray (h : HasArray env schema.nodes items) :
    let out := dpDataRecvParse env (some schema) { msg with dps := some items }
    let n := objCount schema.nodes items % 65536
    let es := (beforeStop schema.nodes env.mallocRaw 0 items).filterMap (filled schema.nodes)
    out.slots = n ∧ out.writes = List.range es.length ∧
      (n = 0 ∨ beforeStop schema.nodes env.mallocRaw 0 items ≠ items →
        out.calls.filterMap RecvCall.objs = []) ∧
      (n ≠ 0 → beforeStop schema.nodes env.mallocRaw 0 items = items →
        ∃ dpscnt, dpscnt.toNat = n ∧ out.calls.filterMap RecvCall.objs =
          [(dpscnt, (stamp env.posix 0 es ++ List.replicate n zeroObj).take n)]) := by
  have harray : ¬((recvCount schema.preprocess items schema.nodes).1 ≠ 0 ∧ env.malloc = false) := by
    rw [Ne, recvCount_eq_zero_iff]
    rintro ⟨hn, hmalloc⟩
    rw [h hn] at hmalloc
    cases hmalloc
  obtain ⟨hdps, hdone⟩ := @recvLoop_spec schema.nodes
    (recvCount schema.preprocess items schema.nodes).2 env.posix env.mallocRaw items 0 0
    (recvCount_spec _ _ _).2
  have hzero := recvCount_eq_zero_iff schema items
  simp only [dpDataRecvParse]
  rw [if_neg harray]
  dsimp only
  rw [hdps, length_stamp, toNat_recvCount, List.filterMap_append, filterMap_objs_raws,
    List.nil_append]
  refine ⟨rfl, rfl, fun hnone => ?_, fun hn hall => ?_⟩
  · rw [if_neg]
    · rfl
    · rintro ⟨hall, hne⟩
      exact hnone.elim (fun hn => hne (hzero.2 hn)) fun hstop => hstop (hdone.1 hall)
  · rw [if_pos ⟨hdone.2 hall, fun heq => hn (hzero.1 heq)⟩]
    exact ⟨_, toNat_recvCount schema items, rfl⟩

theorem forall_mem_range_lt_iff {n m : Nat} : (∀ i ∈ List.range n, i < m) ↔ n ≤ m := by
  simp only [List.mem_range]
  exact ⟨fun h => Nat.le_of_not_lt fun hlt => absurd (h m hlt) (lt_irrefl m),
    fun h i hi => lt_of_lt_of_le hi h⟩

theorem parsesExactly_iff_of_hasMemory (h : HasMemory env schema.nodes items) :
    ParsesExactly env schema msg items ↔
      items.filterMap (filled schema.nodes) = items.filterMap (conforming schema.nodes) ∧
        objCount schema.nodes items % 65536 =
          (items.filterMap (conforming schema.nodes)).length := by
  have hnil : expected env.posix schema.nodes items = [] ↔
      items.filterMap (conforming schema.nodes) = [] := stamp_eq_nil_iff
  have hlength : (expected env.posix schema.nodes items).length =
      (items.filterMap (conforming schema.nodes)).length := length_stamp _ _ _
  have hsub := filterMap_sublist_filterMap
    (fun item e => @filled_of_conforming schema.nodes item e) items
  obtain ⟨hslots, hwrites, hnone, hsome⟩ := @dpDataRecvParse_of_hasArray env schema msg items h.1
  rw [h.2] at hwrites hsome
  rw [ParsesExactly, hslots, hwrites, forall_mem_range_lt_iff, hnil]
  by_cases hn : objCount schema.nodes items % 65536 = 0
  · rw [hnone (Or.inl hn), hn]
    constructor
    · rintro ⟨hwritten, ⟨hempty, -⟩ | ⟨-, dpscnt, heq, -⟩⟩
      · have hfilled := List.eq_nil_of_length_eq_zero (Nat.le_zero.1 hwritten)
        rw [hfilled, hempty]
        exact ⟨rfl, rfl⟩
      · cases heq
    · rintro ⟨heq, hzero⟩
      have hempty := List.eq_nil_of_length_eq_zero hzero.symm
      rw [heq, hempty]
      exact ⟨le_rfl, Or.inl ⟨rfl, rfl⟩⟩
  · obtain ⟨dpscnt, hcount, hcalls⟩ := hsome hn rfl
    rw [hcalls]
    constructor
    · rintro ⟨hwritten, ⟨-, heq⟩ | ⟨-, dpscnt', heq, hcount'⟩⟩
      · cases heq
      · -- as many are filled in as conform
        obtain ⟨rfl, -⟩ := Prod.mk.inj (List.cons.inj heq).1
        rw [hcount, hlength] at hcount'
        rw [hcount'] at hwritten
        exact ⟨(hsub.eq_of_length_le hwritten).symm, hcount'⟩
    · rintro ⟨heq, hall⟩
      have htake : (stamp env.posix 0 (items.filterMap (conforming schema.nodes)) ++
          List.replicate (objCount schema.nodes items % 65536) zeroObj).take
            (objCount schema.nodes items % 65536) = expected env.posix schema.nodes items := by
        rw [List.take_left' (by rw [length_stamp, hall])]
        rfl
      rw [heq, htake]
      refine ⟨le_of_eq hall.symm, Or.inr ⟨fun hempty => hn ?_, dpscnt, rfl, ?_⟩⟩
      · rw [hall, ← hlength, hempty, List.length_nil]
      · rw [hcount, hall, hlength]

theorem parsesExactly_iff_of_not_hasMemory (h : ¬HasMemory env schema.nodes items) :
    ParsesExactly env schema msg items ↔
      items.filterMap (conforming schema.nodes) = [] ∧
        (HasArray env schema.nodes items →
          ((beforeStop schema.nodes env.mallocRaw 0 items).filterMap
            (filled schema.nodes)).length ≤ objCount schema.nodes items % 65536) := by
  have hnil : expected env.posix schema.nodes items = [] ↔
      items.filterMap (conforming schema.nodes) = [] := stamp_eq_nil_iff
  rw [ParsesExactly]
  by_cases harray : HasArray env schema.nodes items
  · have hstop : beforeStop schema.nodes env.mallocRaw 0 items ≠ items :=
      fun hall => h ⟨harray, hall⟩
    obtain ⟨hslots, hwrites, hnone, -⟩ := @dpDataRecvParse_of_hasArray env schema msg items harray
    rw [hslots, hwrites, forall_mem_range_lt_iff, hnil, hnone (Or.inr hstop)]
    constructor
    · rintro ⟨hwritten, ⟨hempty, -⟩ | ⟨-, dpscnt, heq, -⟩⟩
      · exact ⟨hempty, fun _ => hwritten⟩
      · cases heq
    · rintro ⟨hempty, hwritten⟩
      exact ⟨hwritten harray, Or.inl ⟨hempty, rfl⟩⟩
  · obtain ⟨hwrites, hcalls⟩ := @dpDataRecvParse_of_not_hasArray env schema msg items harray
    rw [hwrites, hcalls, hnil]
    constructor
    · rintro ⟨-, ⟨hempty, -⟩ | ⟨-, dpscnt, heq, -⟩⟩
      · exact ⟨hempty, fun harray' => absurd harray' harray⟩
      · cases heq
    · rintro ⟨hempty, -⟩
      exact ⟨fun i hi => (List.not_mem_nil hi).elim, Or.inl ⟨hempty, rfl⟩⟩

/-- A command is delivered as it ought to be if and only if it meets the condition. -/
theorem parsesExactly_iff (env : RecvEnv) (schema : DpSchema) (msg : DpRecvMsg)
    (items : List DpItem) :
    ParsesExactly env schema msg items ↔ RecvCond env schema.nodes items := by
  have hiff := filterMap_eq_filterMap_iff
    (fun item e => @filled_of_conforming schema.nodes item e) items
  simp only [filled_eq_conforming_iff] at hiff
  rw [RecvCond]
  by_cases hmemory : HasMemory env schema.nodes items
  · rw [parsesExactly_iff_of_hasMemory hmemory, hiff]
    simp [hmemory]
  · rw [parsesExactly_iff_of_not_hasMemory hmemory]
    simp [hmemory]

end Parse

/-- A command with a number for an enumeration: it is delivered as the first name. -/
theorem not_parsesExactly_enum :
    ¬ParsesExactly ⟨fun _ => 0, true, fun _ => true⟩
      ⟨[], false, [⟨⟨1, .rw, .psvFalse, .obj, .pulse⟩, .enum [[97], [98]] 1, .statCloud, 0⟩]⟩
      ⟨[], 1, 0, none⟩ [⟨[49], .cJsonNumber, [], 1⟩] := by
  rintro ⟨-, ⟨-, hcalls⟩ | ⟨hne, -⟩⟩
  · exact absurd hcalls (by decide)
  · exact hne (by decide)

end TuyaOpen.Dp
