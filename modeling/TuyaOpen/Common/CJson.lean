import TuyaOpen.Basic.Text

/-!
# Items of cJSON

What the functions of the source see of a text that `cJSON_Parse` has read: items with their types,
`valuestring` and `valueint`, and the members of an object. The parser itself is not part of the
source. `cJSON_GetObjectItem` does not distinguish between capital and small letters.
-/

namespace TuyaOpen

/-- `cJSON`. -/
inductive CJson
  | false
  | true
  | null
  | number (valueint : Int32)
  | string (valuestring : Bytes)
  | array (items : List CJson)
  | object (members : List (Bytes × CJson))

namespace CJson

/-- `valuestring`, which is `NULL` if the item is no string. -/
def valuestring : CJson → Option Bytes
  | string s => some s
  | _ => none

/-- `valueint`. -/
def valueint : CJson → Int32
  | number n => n
  | true => 1
  | _ => 0

/-- `tolower`. -/
def toLower (b : UInt8) : UInt8 := if 65 ≤ b.toNat ∧ b.toNat ≤ 90 then b + 32 else b

/-- `cJSON_GetObjectItem`: the first member with the name. -/
def getObjectItem (item : CJson) (name : List Char) : Option CJson :=
  match item with
  | object members =>
    (members.find? fun m => m.1.map toLower = (asciiBytes name).map toLower).map Prod.snd
  | _ => none

/-- The items that `cJSON_GetArrayItem` gives. -/
def children : CJson → List CJson
  | array items => items
  | object members => members.map Prod.snd
  | _ => []

end CJson

end TuyaOpen
