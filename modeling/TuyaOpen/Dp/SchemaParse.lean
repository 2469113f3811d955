import TuyaOpen.Common.CJson
import TuyaOpen.Dp.Receive

/-!
# The schema of the cloud

`dp_schema_create` of `dp_schema.c` makes the nodes of a schema from a JSON text. The text is not
read as a whole: `dp_node_pos_decode` counts braces to find where each object of the array starts
and ends, and `dp_node_parse` copies one object after the other into a buffer and has `cJSON` read
it there. The positions have 16 bits, and the length of an object is not compared with the buffer.

What `cJSON` reads, the memory and the mutexes are parameters.
-/

namespace TuyaOpen.Dp

/-! ### Where the objects are -/

/-- `dp_node_pos_t`: the positions of the first and the last byte. -/
structure NodePos where
  startPos : UInt16
  endPos : UInt16
  deriving DecidableEq

/-- The loop of `dp_node_pos_decode` at position `i`, with the braces that are open, the start of
the entry that comes next, and the entries so far. -/
def posLoop (posNum : Nat) : Bytes → Nat → ℤ → UInt16 → List NodePos → List NodePos
  | [], _, _, _, pos => pos
  | c :: text, i, brace, start, pos =>
    if c = 0 then pos
    else if c = 0x7b then
      posLoop posNum text (i + 1) (brace + 1) (if brace = 0 then UInt16.ofNat i else start) pos
    else if c = 0x7d then
      let pos := if brace - 1 = 0 then pos ++ [⟨start, UInt16.ofNat i⟩] else pos
      if posNum ≤ pos.length then pos else posLoop posNum text (i + 1) (brace - 1) start pos
    else posLoop posNum text (i + 1) brace start pos

/-- `dp_node_pos_decode`. -/
def dpNodePosDecode (schemaJson : Bytes) (posNum : Nat) : List NodePos :=
  posLoop posNum schemaJson 0 0 0 []

/-- `MAX_ITEM_LEN`. -/
def maxItemLen : Nat := 1024

/-- An object in the buffer, as a C string. There is none when the copy leaves the text or the
buffer (a negative length is a large one), or when no NUL is left in the buffer. -/
def copyItem (schemaJson : Bytes) (pos : NodePos) : Option Bytes :=
  if pos.endPos.toNat + 1 < pos.startPos.toNat then none
  else
    (readSpan schemaJson pos.startPos.toNat
        (pos.endPos.toNat + 1 - pos.startPos.toNat)).bind fun item =>
      (memcpy (List.replicate maxItemLen 0) 0 item).bind fun pBuf =>
        if 0 ∈ pBuf then some (cString pBuf) else none

/-! ### A node -/

/-- Why an object is not turned into a node: a string or an item that is not there is read, or an
error. -/
inductive ItemStop
  | null
  | err (rt : FailCode)
  deriving DecidableEq

def ItemStop.ofRet (rt : OperateRet) (h : rt ≠ oprtOk := by decide) : ItemStop := .err ⟨rt, h⟩

/-- `dp_route_t`. -/
inductive DpRoute
  | default
  | bleFirst
  | forceBt
  deriving DecidableEq

/-- `dp_stat_tp_t`. -/
inductive DpStat
  | none
  | inc
  | total
  deriving DecidableEq

/-- A node, with what its description has beyond `DpDesc` and the scale of a number. -/
structure SchemaNode where
  node : DpNode
  route : DpRoute
  stat : DpStat
  scale : UInt16

/-- What there is for a node: the result of making its mutex, and memory for the names of an
enumeration. -/
structure NodeMem where
  mutexRet : OperateRet
  mallocEnum : Bool
  mallocName : Nat → Bool

/-- `!strcmp(item->valuestring, s)`. -/
def strIs (item : CJson) (s : List Char) : Except ItemStop Bool :=
  match item.valuestring with
  | none => .error .null
  | some t => .ok (cString t = asciiBytes s)

def needItem (cjson : CJson) (name : List Char) : Except ItemStop CJson :=
  match cjson.getObjectItem name with
  | none => .error (.ofRet oprtCjsonGetErr oprtCjsonGetErr_ne_ok)
  | some item => .ok item

def withItem {α : Type} (cjson : CJson) (name : List Char) (missing : α)
    (f : CJson → Except ItemStop α) : Except ItemStop α :=
  match cjson.getObjectItem name with
  | none => .ok missing
  | some item => f item

def parseId (item : CJson) : UInt8 :=
  match item.valuestring with
  | some s => UInt8.ofInt (atoi s)
  | none => UInt8.ofInt item.valueint.toInt

def parseMode (item : CJson) : Except ItemStop DpMode := do
  if ← strIs item ['r', 'w'] then return .rw
  if ← strIs item ['r', 'o'] then return .ro
  return .wr

def parseTrig (item : CJson) : Except ItemStop DpTrig := do
  if ← strIs item ['p', 'u', 'l', 's', 'e'] then return .pulse
  return .direct

def parseRoute (item : CJson) : Except ItemStop DpRoute :=
  .ok (if item.valueint = 2 then .forceBt else if item.valueint = 1 then .bleFirst else .default)

def parseStat (item : CJson) : Except ItemStop DpStat := do
  if ← strIs item ['t', 'o', 't', 'a', 'l'] then return .total
  return .inc

def parseType (item : CJson) : Except ItemStop DpType := do
  if ← strIs item ['o', 'b', 'j'] then return .obj
  if ← strIs item ['r', 'a', 'w'] then return .raw
  return .file

/-- The names of an enumeration, from the one with index `i` on: a name that is no string has no
copy. -/
def parseNames (mallocName : Nat → Bool) : Nat → List CJson → Except ItemStop (List Bytes)
  | _, [] => .ok []
  | i, item :: items =>
    match item.valuestring with
    | none => .error (.ofRet oprtMallocFailed oprtMallocFailed_ne_ok)
    | some s =>
      if mallocName i = false then .error (.ofRet oprtMallocFailed oprtMallocFailed_ne_ok)
      else do
        let names ← parseNames mallocName (i + 1) items
        return cString s :: names

def parseInt (item : CJson) : Except ItemStop (DpProp × UInt16) := do
  let max ← needItem item ['m', 'a', 'x']
  let min ← needItem item ['m', 'i', 'n']
  let scale := ((item.getObjectItem ['s', 'c', 'a', 'l', 'e']).map CJson.valueint).getD 0
  return (.int min.valueint max.valueint 0, UInt16.ofInt scale.toInt)

def parseEnum (mem : NodeMem) (item : CJson) : Except ItemStop DpProp := do
  let range ← needItem item ['r', 'a', 'n', 'g', 'e']
  if range.children = [] then throw (.ofRet oprtCjsonGetErr oprtCjsonGetErr_ne_ok)
  if mem.mallocEnum = false then throw (.ofRet oprtMallocFailed oprtMallocFailed_ne_ok)
  let names ← parseNames mem.mallocName 0 range.children
  return .enum names 0

def parseStr (mem : NodeMem) (item : CJson) : Except ItemStop DpProp := do
  let maxlen ← needItem item ['m', 'a', 'x', 'l', 'e', 'n']
  if mem.mutexRet ≠ oprtOk then throw (.ofRet oprtCrMutexErr)
  return .str maxlen.valueint 0 none

def parseProp (mem : NodeMem) (item : CJson) : Except ItemStop (DpProp × UInt16) := do
  let type ← needItem item ['t', 'y', 'p', 'e']
  if ← strIs type ['b', 'o', 'o', 'l'] then return (.bool false, 0)
  if ← strIs type ['v', 'a', 'l', 'u', 'e'] then return ← parseInt item
  if ← strIs type ['s', 't', 'r', 'i', 'n', 'g'] then return (← parseStr mem item, 0)
  if ← strIs type ['e', 'n', 'u', 'm'] then return (← parseEnum mem item, 0)
  if ← strIs type ['b', 'i', 't', 'm', 'a', 'p'] then
    let maxlen ← needItem item ['m', 'a', 'x', 'l', 'e', 'n']
    return (.bitmap maxlen.valueint.toUInt32 0, 0)
  throw (.ofRet oprtSvcDevosScmaInvalid)

/-- The property of a node: a raw or a file node is left with what its zeroed memory is. -/
def parseNodeProp (mem : NodeMem) (type : DpType) (cjson : CJson) :
    Except ItemStop (DpProp × UInt16) :=
  if type = .obj then do parseProp mem (← needItem cjson ['p', 'r', 'o', 'p', 'e', 'r', 't', 'y'])
  else .ok (.bool false, 0)

/-- A turn of `dp_node_parse`: the node, and whether it has a member `passive`. -/
def parseItem (mem : NodeMem) (cjson : CJson) : Except ItemStop (SchemaNode × Bool) := do
  let id ← needItem cjson ['i', 'd']
  let mode ← parseMode (← needItem cjson ['m', 'o', 'd', 'e'])
  let preprocess := (cjson.getObjectItem ['p', 'a', 's', 's', 'i', 'v', 'e']).isSome
  let trig ← withItem cjson ['t', 'r', 'i', 'g', 'g', 'e', 'r'] .pulse parseTrig
  let route ← withItem cjson ['r', 'o', 'u', 't', 'e'] .default parseRoute
  let stat ← withItem cjson ['s', 't', 'a', 't'] .none parseStat
  let type ← withItem cjson ['t', 'y', 'p', 'e'] .obj parseType
  let prop ← parseNodeProp mem type cjson
  let desc : DpDesc :=
    { id := parseId id, mode := mode, passive := .psvFalse, type := type, trig := trig }
  return ({ node := { desc := desc, prop := prop.1, pvStat := .statInvalid, timeStamp := 0 }
            route := route
            stat := stat
            scale := prop.2 }, preprocess)

/-! ### The nodes -/

/-- What a schema is made with: the parser, memory for the buffer, and what there is for each
node. -/
structure SchemaEnv where
  parse : Bytes → Option CJson
  mallocBuf : Bool
  mem : Nat → NodeMem

/-- Why `dp_node_parse` stops: an object is not copied in bounds, or it is not turned into a node.
-/
inductive ParseStop
  | copy
  | item (stop : ItemStop)
  deriving DecidableEq

def nodeOf (env : SchemaEnv) (i : Nat) (item : Bytes) : Except ItemStop (SchemaNode × Bool) :=
  match env.parse item with
  | none => .error (.ofRet oprtCjsonParseErr)
  | some cjson => parseItem (env.mem i) cjson

/-- The loop of `dp_node_parse`, from the object `i` on. -/
def nodeLoop (env : SchemaEnv) (schemaJson : Bytes) :
    Nat → List NodePos → Except ParseStop (List SchemaNode × Bool)
  | _, [] => .ok ([], false)
  | i, pos :: nodepos =>
    match copyItem schemaJson pos with
    | none => .error .copy
    | some item =>
      match nodeOf env i item with
      | .error stop => .error (.item stop)
      | .ok r =>
        match nodeLoop env schemaJson (i + 1) nodepos with
        | .error stop => .error stop
        | .ok rs => .ok (r.1 :: rs.1, r.2 || rs.2)

/-- `dp_node_parse`: the nodes, and whether one of them has a member `passive`. -/
def dpNodeParse (env : SchemaEnv) (schemaJson : Bytes) (nodepos : List NodePos) :
    Except ParseStop (List SchemaNode × Bool) :=
  if env.mallocBuf = false then .error (.item (.ofRet oprtComError oprtComError_ne_ok))
  else nodeLoop env schemaJson 0 nodepos

/-! ### A schema -/

/-- `DEV_ID_LEN`. -/
def devIdLen : Nat := 25

/-- What `dp_schema_create` is called with: memory for the positions and for the schema, and the
result of making its mutex. -/
structure CreateEnv extends SchemaEnv where
  mallocPos : Bool
  mallocSchema : Bool
  mutexRet : OperateRet

/-- `dp_schema_create` up to the registration of the schema. The identifier of the device is cut to
its place. -/
def dpSchemaCreate (env : CreateEnv) (devid schemaJson : Bytes) : Except ParseStop DpSchema :=
  if env.mallocPos = false then .error (.item (.ofRet oprtMallocFailed oprtMallocFailed_ne_ok))
  else
    let nodepos := dpNodePosDecode schemaJson 255
    if nodepos.length = 0 ∨ 255 ≤ nodepos.length then
      .error (.item (.ofRet oprtSvcDevosDevDpCntInvalid))
    else if env.mallocSchema = false then .error (.item (.ofRet oprtMallocFailed oprtMallocFailed_ne_ok))
    else if h : env.mutexRet ≠ oprtOk then .error (.item (.ofRet env.mutexRet h))
    else
      match dpNodeParse env.toSchemaEnv schemaJson nodepos with
      | .error stop => .error stop
      | .ok r =>
        .ok { devid := (cString devid).take devIdLen
              preprocess := r.2
              nodes := r.1.map SchemaNode.node }

/-! ### New nodes -/

def rawEnv : CreateEnv where
  parse _ := some (.object [(asciiBytes ['i', 'd'], .number 1),
    (asciiBytes ['m', 'o', 'd', 'e'], .string (asciiBytes ['r', 'w'])),
    (asciiBytes ['t', 'y', 'p', 'e'], .string (asciiBytes ['r', 'a', 'w']))])
  mallocBuf := true
  mem _ := ⟨oprtOk, true, fun _ => true⟩
  mallocPos := true
  mallocSchema := true
  mutexRet := oprtOk

end TuyaOpen.Dp
