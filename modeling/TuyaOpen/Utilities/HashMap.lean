import Mathlib.Data.List.Infix
import Mathlib.Data.Multiset.AddSub
import Mathlib.Logic.Function.Basic
import TuyaOpen.Basic.Bytes
import TuyaOpen.Basic.Transition

/-!
# The hash map

`tuya_hashmap.c` keeps its elements in lists, one for each value of a hash function of the keys.
Keys with the same hash share a list. An element is added at the head of its list, and a search
takes the first one that fits. A traversal goes from an element to the next one with the same key.

`tuya_hashmap_remove` looks for an element with `HLIST_FOR_EACH_ENTRY`. When the loop ends without a
`break`, its variable still holds the last element of the list, and this one is deleted.

Elements are named by their addresses. An address is not used again, and what has been freed is not
read: a step that does so has no result.
-/

namespace TuyaOpen.Hashmap

/-! ### The map -/

/-- `MAP_MISSING`. -/
def mapMissing : ℤ := -2

/-- `MAP_OMEM`. -/
def mapOmem : ℤ := -1

/-- `MAP_OK`. -/
def mapOk : ℤ := 0

/-- `HASHMAP_ELEMENT_T`. The key is the string that it points to. -/
structure HashmapElement where
  addr : Nat
  key : Bytes
  data : Nat
  deriving DecidableEq

/-- `HASHMAP_T`, with the elements of each list in their order. -/
structure HashmapT where
  size : ℤ
  tableSize : UInt32
  list : List (List HashmapElement)

/-- `crc32_tab`. -/
def crc32Tab : List UInt32 :=
  [
    0x00000000, 0x77073096, 0xee0e612c, 0x990951ba, 0x076dc419, 0x706af48f, 0xe963a535, 0x9e6495a3,
    0x0edb8832, 0x79dcb8a4, 0xe0d5e91e, 0x97d2d988, 0x09b64c2b, 0x7eb17cbd, 0xe7b82d07, 0x90bf1d91,
    0x1db71064, 0x6ab020f2, 0xf3b97148, 0x84be41de, 0x1adad47d, 0x6ddde4eb, 0xf4d4b551, 0x83d385c7,
    0x136c9856, 0x646ba8c0, 0xfd62f97a, 0x8a65c9ec, 0x14015c4f, 0x63066cd9, 0xfa0f3d63, 0x8d080df5,
    0x3b6e20c8, 0x4c69105e, 0xd56041e4, 0xa2677172, 0x3c03e4d1, 0x4b04d447, 0xd20d85fd, 0xa50ab56b,
    0x35b5a8fa, 0x42b2986c, 0xdbbbc9d6, 0xacbcf940, 0x32d86ce3, 0x45df5c75, 0xdcd60dcf, 0xabd13d59,
    0x26d930ac, 0x51de003a, 0xc8d75180, 0xbfd06116, 0x21b4f4b5, 0x56b3c423, 0xcfba9599, 0xb8bda50f,
    0x2802b89e, 0x5f058808, 0xc60cd9b2, 0xb10be924, 0x2f6f7c87, 0x58684c11, 0xc1611dab, 0xb6662d3d,
    0x76dc4190, 0x01db7106, 0x98d220bc, 0xefd5102a, 0x71b18589, 0x06b6b51f, 0x9fbfe4a5, 0xe8b8d433,
    0x7807c9a2, 0x0f00f934, 0x9609a88e, 0xe10e9818, 0x7f6a0dbb, 0x086d3d2d, 0x91646c97, 0xe6635c01,
    0x6b6b51f4, 0x1c6c6162, 0x856530d8, 0xf262004e, 0x6c0695ed, 0x1b01a57b, 0x8208f4c1, 0xf50fc457,
    0x65b0d9c6, 0x12b7e950, 0x8bbeb8ea, 0xfcb9887c, 0x62dd1ddf, 0x15da2d49, 0x8cd37cf3, 0xfbd44c65,
    0x4db26158, 0x3ab551ce, 0xa3bc0074, 0xd4bb30e2, 0x4adfa541, 0x3dd895d7, 0xa4d1c46d, 0xd3d6f4fb,
    0x4369e96a, 0x346ed9fc, 0xad678846, 0xda60b8d0, 0x44042d73, 0x33031de5, 0xaa0a4c5f, 0xdd0d7cc9,
    0x5005713c, 0x270241aa, 0xbe0b1010, 0xc90c2086, 0x5768b525, 0x206f85b3, 0xb966d409, 0xce61e49f,
    0x5edef90e, 0x29d9c998, 0xb0d09822, 0xc7d7a8b4, 0x59b33d17, 0x2eb40d81, 0xb7bd5c3b, 0xc0ba6cad,
    0xedb88320, 0x9abfb3b6, 0x03b6e20c, 0x74b1d29a, 0xead54739, 0x9dd277af, 0x04db2615, 0x73dc1683,
    0xe3630b12, 0x94643b84, 0x0d6d6a3e, 0x7a6a5aa8, 0xe40ecf0b, 0x9309ff9d, 0x0a00ae27, 0x7d079eb1,
    0xf00f9344, 0x8708a3d2, 0x1e01f268, 0x6906c2fe, 0xf762575d, 0x806567cb, 0x196c3671, 0x6e6b06e7,
    0xfed41b76, 0x89d32be0, 0x10da7a5a, 0x67dd4acc, 0xf9b9df6f, 0x8ebeeff9, 0x17b7be43, 0x60b08ed5,
    0xd6d6a3e8, 0xa1d1937e, 0x38d8c2c4, 0x4fdff252, 0xd1bb67f1, 0xa6bc5767, 0x3fb506dd, 0x48b2364b,
    0xd80d2bda, 0xaf0a1b4c, 0x36034af6, 0x41047a60, 0xdf60efc3, 0xa867df55, 0x316e8eef, 0x4669be79,
    0xcb61b38c, 0xbc66831a, 0x256fd2a0, 0x5268e236, 0xcc0c7795, 0xbb0b4703, 0x220216b9, 0x5505262f,
    0xc5ba3bbe, 0xb2bd0b28, 0x2bb45a92, 0x5cb36a04, 0xc2d7ffa7, 0xb5d0cf31, 0x2cd99e8b, 0x5bdeae1d,
    0x9b64c2b0, 0xec63f226, 0x756aa39c, 0x026d930a, 0x9c0906a9, 0xeb0e363f, 0x72076785, 0x05005713,
    0x95bf4a82, 0xe2b87a14, 0x7bb12bae, 0x0cb61b38, 0x92d28e9b, 0xe5d5be0d, 0x7cdcefb7, 0x0bdbdf21,
    0x86d3d2d4, 0xf1d4e242, 0x68ddb3f8, 0x1fda836e, 0x81be16cd, 0xf6b9265b, 0x6fb077e1, 0x18b74777,
    0x88085ae6, 0xff0f6a70, 0x66063bca, 0x11010b5c, 0x8f659eff, 0xf862ae69, 0x616bffd3, 0x166ccf45,
    0xa00ae278, 0xd70dd2ee, 0x4e048354, 0x3903b3c2, 0xa7672661, 0xd06016f7, 0x4969474d, 0x3e6e77db,
    0xaed16a4a, 0xd9d65adc, 0x40df0b66, 0x37d83bf0, 0xa9bcae53, 0xdebb9ec5, 0x47b2cf7f, 0x30b5ffe9,
    0xbdbdf21c, 0xcabac28a, 0x53b39330, 0x24b4a3a6, 0xbad03605, 0xcdd70693, 0x54de5729, 0x23d967bf,
    0xb3667a2e, 0xc4614ab8, 0x5d681b02, 0x2a6f2b94, 0xb40bbe37, 0xc30c8ea1, 0x5a05df1b, 0x2d02ef8d]

/-- `__crc32_hashmap`. -/
def crc32Hashmap (s : Bytes) : UInt32 :=
  s.foldl (fun crc32val b =>
    crc32Tab.getD ((crc32val ^^^ b.toUInt32) &&& 0xff).toNat 0 ^^^ (crc32val >>> 8)) 0

/-- `__hashmap_hash_int`. -/
def hashmapHashInt (m : HashmapT) (keystring : Bytes) : UInt32 :=
  let key := crc32Hashmap keystring
  let key := key + (key <<< 12)
  let key := key ^^^ (key >>> 22)
  let key := key + (key <<< 4)
  let key := key ^^^ (key >>> 9)
  let key := key + (key <<< 10)
  let key := key ^^^ (key >>> 2)
  let key := key + (key <<< 7)
  let key := key ^^^ (key >>> 12)
  let key := (key >>> 3) * 2654435761
  key % m.tableSize

def HashmapT.bucket? (m : HashmapT) (key : Bytes) : Option (List HashmapElement) :=
  m.list[(hashmapHashInt m key).toNat]?

def HashmapT.elements (m : HashmapT) : List HashmapElement := m.list.flatten

def HashmapT.setBucket (m : HashmapT) (key : Bytes) (b : List HashmapElement) :
    List (List HashmapElement) :=
  m.list.set (hashmapHashInt m key).toNat b

/-- `tuya_hashmap_new`, when `malloc` may fail. The size of the array is a product of 32 bits. -/
def tuyaHashmapNew (tableSize : UInt32) (malloc mallocList : Bool) : Option HashmapT :=
  if tableSize = 0 then none
  else if !malloc then none
  else if !mallocList then none
  else some ⟨0, tableSize, List.replicate (u32 (tableSize.toNat * 4) / 4) []⟩

/-- `__hash_find`. -/
def hashFind (m : HashmapT) (key : Bytes) : Option (Option HashmapElement) :=
  (m.bucket? key).map fun b => b.find? fun e => key = e.key

def nodesFrom (addr : Nat) : List HashmapElement → Option (HashmapElement × List HashmapElement)
  | [] => none
  | e :: es => if e.addr = addr then some (e, es) else nodesFrom addr es

/-- `__hash_find_next_element`, when the element has not been freed. -/
def hashFindNextElement (m : HashmapT) (curr : Nat) : Option (Option HashmapElement) :=
  (m.list.findSome? (nodesFrom curr)).map fun r => r.2.find? fun e => r.1.key = e.key

/-- `tuya_hashmap_put`, with the address that `malloc` gives. -/
def tuyaHashmapPut (m : HashmapT) (key : Bytes) (data : Nat) (element : Option Nat) :
    Option (ℤ × HashmapT) :=
  match element with
  | none => some (mapOmem, m)
  | some addr =>
    (m.bucket? key).map fun b =>
      (mapOk, { m with size := m.size + 1, list := m.setBucket key (⟨addr, key, data⟩ :: b) })

/-- `tuya_hashmap_get`. -/
def tuyaHashmapGet (m : HashmapT) (key : Bytes) : Option (ℤ × Nat) :=
  (hashFind m key).map fun element =>
    match element with
    | none => (mapMissing, 0)
    | some e => (mapOk, e.data)

/-- `tuya_hashmap_data_traversal`. The iterator points to the data of an element. -/
def tuyaHashmapDataTraversal (m : HashmapT) (key : Bytes) (argIterator : Option Nat) :
    Option (ℤ × Option Nat) :=
  let element :=
    match argIterator with
    | none => hashFind m key
    | some curr => hashFindNextElement m curr
  element.map fun element =>
    match element with
    | none => (mapMissing, none)
    | some e => (mapOk, some e.addr)

/-- An element has a key and data. `NULL` stands for any data. -/
def HashmapElement.Matches (e : HashmapElement) (key : Bytes) (data : Nat) : Prop :=
  key = e.key ∧ (data = 0 ∨ e.data = data)

instance instDecidableMatches (e : HashmapElement) (key : Bytes) (data : Nat) :
    Decidable (e.Matches key data) :=
  inferInstanceAs (Decidable (_ ∧ _))

/-- `tmp_element` after the loop of `tuya_hashmap_remove`: the element at which the loop breaks, or
the last one. -/
def removeCursor (key : Bytes) (data : Nat) : List HashmapElement → Option HashmapElement
  | [] => none
  | [e] => some e
  | e :: es => if e.Matches key data then some e else removeCursor key data es

/-- `tuya_hashmap_remove`. -/
def tuyaHashmapRemove (m : HashmapT) (key : Bytes) (data : Nat) : Option (ℤ × HashmapT) :=
  (m.bucket? key).map fun b =>
    match removeCursor key data b with
    | none => (mapMissing, m)
    | some tmp => (mapOk, { m with
        size := m.size - 1
        list := m.setBucket key (b.filter fun e => e.addr ≠ tmp.addr) })

/-! ### Its user -/

/-- A traversal. An observer notes its key, the elements with this key at the start, and those that
have been visited. -/
structure Traversal where
  iter : Option Nat
  key : Bytes
  started : Multiset Nat
  visited : List Nat

/-- The traversal to which a call belongs. A call with `NULL` starts one. -/
def Traversal.begin (t : Traversal) (entries : Multiset HashmapElement) (key : Bytes) :
    Traversal :=
  if t.iter = none then
    ⟨none, key, (entries.filter fun e => e.key = key).map HashmapElement.addr, []⟩
  else t

def Traversal.visit (t : Traversal) (iter : Option Nat) : Traversal :=
  { t with iter := iter, visited := t.visited ++ iter.toList }

/-- The map, the address of the next element, and the iterators of the user. -/
structure MapState where
  map : HashmapT
  fresh : Nat
  traversals : Nat → Traversal

inductive MapEvent
  | put (key : Bytes) (data : Nat) (malloc : Bool)
  | get (key : Bytes)
  /-- A call of `tuya_hashmap_data_traversal` with an iterator of the user. -/
  | dataTraversal (v : Nat) (key : Bytes)
  /-- The user sets an iterator to `NULL`. -/
  | reset (v : Nat)
  | remove (key : Bytes) (data : Nat)

/-- The code of a call, and what it gives back. -/
structure MapResult where
  code : ℤ
  arg : Nat
  iter : Option Nat
  deriving DecidableEq

/-- A call. There is no result when an index is outside the array or an element has been freed. -/
def mapStep (s : MapState) : MapEvent → Option (MapResult × MapState)
  | .put key data malloc =>
    (tuyaHashmapPut s.map key data (if malloc then some s.fresh else none)).map fun r =>
      (⟨r.1, 0, none⟩,
        { s with map := r.2, fresh := if malloc then s.fresh + 1 else s.fresh })
  | .get key => (tuyaHashmapGet s.map key).map fun r => (⟨r.1, r.2, none⟩, s)
  | .dataTraversal v key =>
    (tuyaHashmapDataTraversal s.map key (s.traversals v).iter).map fun r =>
      (⟨r.1, 0, r.2⟩,
        { s with
          traversals := Function.update s.traversals v
            (((s.traversals v).begin s.map.elements key).visit r.2) })
  | .reset v =>
    some (⟨mapOk, 0, none⟩,
      { s with traversals := Function.update s.traversals v { s.traversals v with iter := none } })
  | .remove key data =>
    (tuyaHashmapRemove s.map key data).map fun r => (⟨r.1, 0, none⟩, { s with map := r.2 })

def MapState.next (s : MapState) (ev : MapEvent) : MapState :=
  ((mapStep s ev).map Prod.snd).getD s

def MapState.init (map : HashmapT) : MapState := ⟨map, 0, fun _ => ⟨none, [], 0, []⟩⟩

/-! ### The multimap -/

/-- A multimap, with the iterators of its user. -/
structure Multimap where
  entries : Multiset HashmapElement
  traversals : Nat → Traversal

def MapState.toMultimap (s : MapState) : Multimap := ⟨s.map.elements, s.traversals⟩

def Multimap.traversal (a : Multimap) (v : Nat) (key : Bytes) : Traversal :=
  (a.traversals v).begin a.entries key

def Multimap.visit (a : Multimap) (v : Nat) (key : Bytes) (iter : Option Nat) : Multimap :=
  { a with traversals := Function.update a.traversals v ((a.traversal v key).visit iter) }

/-- What a call should do to a multimap, and what it should give back. -/
inductive MultimapStep (a : Multimap) : MapEvent → MapResult → Multimap → Prop
  | put (key : Bytes) (data addr : Nat) (hfresh : ∀ e ∈ a.entries, e.addr ≠ addr) :
    MultimapStep a (.put key data true) ⟨mapOk, 0, none⟩
      { a with entries := ⟨addr, key, data⟩ ::ₘ a.entries }
  | omem (key : Bytes) (data : Nat) :
    MultimapStep a (.put key data false) ⟨mapOmem, 0, none⟩ a
  | get (key : Bytes) (e : HashmapElement) (hmem : e ∈ a.entries) (hkey : e.key = key) :
    MultimapStep a (.get key) ⟨mapOk, e.data, none⟩ a
  | getMissing (key : Bytes) (hnone : ∀ e ∈ a.entries, e.key ≠ key) :
    MultimapStep a (.get key) ⟨mapMissing, 0, none⟩ a
  /-- A traversal visits an element that was stored under its key at the start, not twice. -/
  | visit (v : Nat) (key : Bytes) (e : HashmapElement) (hmem : e ∈ a.entries)
      (hkey : e.key = (a.traversal v key).key) (hstarted : e.addr ∈ (a.traversal v key).started)
      (hvisited : e.addr ∉ (a.traversal v key).visited) :
    MultimapStep a (.dataTraversal v key) ⟨mapOk, 0, some e.addr⟩ (a.visit v key (some e.addr))
  /-- At the end it has visited all of them that are still stored. -/
  | visited (v : Nat) (key : Bytes)
      (hall : ∀ e ∈ a.entries, e.addr ∈ (a.traversal v key).started →
        e.addr ∈ (a.traversal v key).visited) :
    MultimapStep a (.dataTraversal v key) ⟨mapMissing, 0, none⟩ (a.visit v key none)
  | reset (v : Nat) :
    MultimapStep a (.reset v) ⟨mapOk, 0, none⟩
      { a with traversals := Function.update a.traversals v { a.traversals v with iter := none } }
  | remove (key : Bytes) (data : Nat) (e : HashmapElement) (entries : Multiset HashmapElement)
      (hmatches : e.Matches key data) (hentries : a.entries = e ::ₘ entries) :
    MultimapStep a (.remove key data) ⟨mapOk, 0, none⟩ { a with entries := entries }
  | removeMissing (key : Bytes) (data : Nat) (hnone : ∀ e ∈ a.entries, ¬e.Matches key data) :
    MultimapStep a (.remove key data) ⟨mapMissing, 0, none⟩ a

def Refines (s : MapState) (ev : MapEvent) : Prop :=
  ∃ r s', mapStep s ev = some (r, s') ∧ MultimapStep s.toMultimap ev r s'.toMultimap

def HashmapT.InRange (m : HashmapT) (key : Bytes) : Prop :=
  (hashmapHashInt m key).toNat < m.list.length

instance instDecidableInRange (m : HashmapT) (key : Bytes) : Decidable (m.InRange key) :=
  inferInstanceAs (Decidable (_ < _))

/-- The calls that are served. An iterator points to an element that has not been removed, and a
removal finds what it looks for, or no element with the hash of its key. -/
def Served (s : MapState) : MapEvent → Prop
  | .put key _ malloc => malloc = true → s.map.InRange key
  | .get key => s.map.InRange key
  | .dataTraversal v key =>
    match (s.traversals v).iter with
    | none => s.map.InRange key
    | some curr => ∃ e ∈ s.map.elements, e.addr = curr
  | .reset _ => True
  | .remove key data =>
    match s.map.bucket? key with
    | none => False
    | some b => b = [] ∨ ∃ e ∈ b, e.Matches key data

instance instDecidableServed (s : MapState) (ev : MapEvent) : Decidable (Served s ev) :=
  match ev with
  | .put key _ malloc => inferInstanceAs (Decidable (malloc = true → s.map.InRange key))
  | .get key => inferInstanceAs (Decidable (s.map.InRange key))
  | .dataTraversal v key =>
    match h : (s.traversals v).iter with
    | none => decidable_of_iff (s.map.InRange key) (by simp only [Served, h])
    | some curr => decidable_of_iff (∃ e ∈ s.map.elements, e.addr = curr) (by simp only [Served, h])
  | .reset _ => isTrue trivial
  | .remove key data =>
    match h : s.map.bucket? key with
    | none => isFalse (by simp only [Served, h, not_false_eq_true])
    | some b => decidable_of_iff (b = [] ∨ ∃ e ∈ b, e.Matches key data) (by simp only [Served, h])

/-! ### Lists of elements -/

section Lists

variable {m : HashmapT} {b post : List HashmapElement} {e e' : HashmapElement} {key : Bytes}
  {data addr : Nat}

theorem nodesFrom_eq_some (h : nodesFrom addr b = some (e, post)) :
    e.addr = addr ∧ e :: post <:+ b := by
  fun_induction nodesFrom addr b with
  | case1 => cases h
  | case2 e' es heq =>
    obtain ⟨rfl, rfl⟩ := Prod.mk.inj (Option.some.inj h)
    exact ⟨heq, List.suffix_rfl⟩
  | case3 e' es hne ih =>
    obtain ⟨heq, hsuffix⟩ := ih h
    exact ⟨heq, hsuffix.trans (List.suffix_cons e' es)⟩

theorem nodesFrom_isSome (hmem : e ∈ b) : (nodesFrom e.addr b).isSome := by
  fun_induction nodesFrom e.addr b with
  | case1 => cases hmem
  | case2 e' es heq => rfl
  | case3 e' es hne ih =>
    rcases List.mem_cons.1 hmem with rfl | hmem
    · exact absurd rfl hne
    · exact ih hmem

theorem removeCursor_matches (h : ∃ e ∈ b, e.Matches key data) :
    ∃ e ∈ b, e.Matches key data ∧ removeCursor key data b = some e := by
  fun_induction removeCursor key data b with
  | case1 => simp at h
  | case2 e => 
    obtain ⟨e', hmem, hmatches⟩ := h
    obtain rfl := List.mem_singleton.1 hmem
    exact ⟨e', hmem, hmatches, rfl⟩
  | case3 e es _ hmatches => exact ⟨e, List.mem_cons_self, hmatches, rfl⟩
  | case4 e es _ hmatches ih =>
    obtain ⟨e', hmem, hmatches'⟩ := h
    have hmem' : e' ∈ es := by
      rcases List.mem_cons.1 hmem with rfl | hmem
      · exact absurd hmatches' hmatches
      · exact hmem
    obtain ⟨e'', hmem'', hfound⟩ := ih ⟨e', hmem', hmatches'⟩
    exact ⟨e'', List.mem_cons_of_mem e hmem'', hfound⟩

theorem removeCursor_isSome (key : Bytes) (data : Nat) (hb : b ≠ []) :
    ∃ e, removeCursor key data b = some e := by
  fun_induction removeCursor key data b with
  | case1 => exact absurd rfl hb
  | case2 e => exact ⟨e, rfl⟩
  | case3 e es _ _ => exact ⟨e, rfl⟩
  | case4 e es hes _ ih => exact ih hes

theorem exists_perm_setBucket (h : m.bucket? key = some b) :
    ∃ others, ∀ b', (m.setBucket key b').flatten.Perm (b' ++ others) := by
  obtain ⟨hlt, -⟩ := List.getElem?_eq_some_iff.1 h
  refine ⟨(m.list.take (hashmapHashInt m key).toNat).flatten ++
    (m.list.drop ((hashmapHashInt m key).toNat + 1)).flatten, fun b' => ?_⟩
  rw [HashmapT.setBucket, List.set_eq_take_append_cons_drop, if_pos hlt, List.flatten_append,
    List.flatten_cons, ← List.append_assoc, ← List.append_assoc]
  refine List.Perm.trans (List.perm_append_comm.append_right _) ?_
  rw [List.append_assoc]

theorem setBucket_self (h : m.bucket? key = some b) : m.setBucket key b = m.list := by
  obtain ⟨hlt, hb⟩ := List.getElem?_eq_some_iff.1 h
  rw [HashmapT.setBucket, ← hb, List.set_getElem_self]

theorem perm_setBucket_cons (h : m.bucket? key = some b) (e : HashmapElement) :
    (m.setBucket key (e :: b)).flatten.Perm (e :: m.elements) := by
  obtain ⟨others, hperm⟩ := exists_perm_setBucket h
  have hself := hperm b
  rw [setBucket_self h] at hself
  exact (hperm (e :: b)).trans (hself.symm.cons e)

theorem perm_setBucket_filter (h : m.bucket? key = some b) (hmem : e ∈ b)
    (hnodup : (b.map HashmapElement.addr).Nodup) :
    m.elements.Perm (e :: (m.setBucket key (b.filter fun e' => e'.addr ≠ e.addr)).flatten) := by
  obtain ⟨others, hperm⟩ := exists_perm_setBucket h
  have hself := hperm b
  rw [setBucket_self h] at hself
  obtain ⟨pre, post, rfl⟩ := List.append_of_mem hmem
  have hfilter : ((pre ++ e :: post).filter fun e' => e'.addr ≠ e.addr) = pre ++ post := by
    rw [List.map_append, List.map_cons, List.nodup_middle, List.nodup_cons, ← List.map_append]
      at hnodup
    rw [List.filter_append, List.filter_cons_of_neg (by simp), ← List.filter_append,
      List.filter_eq_self]
    intro e' hmem'
    have hne : e'.addr ≠ e.addr := fun heq => hnodup.1 (heq ▸ List.mem_map_of_mem hmem')
    simpa using hne
  rw [hfilter]
  refine hself.trans (((List.perm_middle).append_right others).trans ?_)
  exact ((hperm (pre ++ post)).symm.cons e)

theorem mem_elements_of_mem (hb : b ∈ m.list) (hmem : e ∈ b) : e ∈ m.elements :=
  List.mem_flatten_of_mem hb hmem

theorem eq_of_cons_suffix {post' : List HashmapElement} (hb : b.Nodup) (h : e :: post <:+ b)
    (h' : e :: post' <:+ b) : post = post' := by
  have hlonger {p p' : List HashmapElement} (hp' : e :: p' <:+ b) (hp : e :: p <:+ e :: p') :
      p = p' := by
    rcases List.suffix_cons_iff.1 hp with heq | hp
    · exact (List.cons.inj heq).2
    · exact absurd (hp.subset List.mem_cons_self) (List.nodup_cons.1 (hb.sublist hp'.sublist)).1
  rcases Nat.le_total (e :: post).length (e :: post').length with hle | hle
  · exact hlonger h' (List.suffix_of_suffix_length_le h h' hle)
  · exact (hlonger h (List.suffix_of_suffix_length_le h' h hle)).symm

end Lists

/-! ### The invariant -/

/-- What is left of a traversal: the elements in which it looks for the next one. -/
structure Pending (m : HashmapT) (t : Traversal) (left : List HashmapElement) : Prop where
  unvisited : ∀ e ∈ left, e.key = t.key → e.addr ∈ t.started ∧ e.addr ∉ t.visited
  covered : ∀ e ∈ m.elements, e.addr ∈ t.started → e ∈ left ∨ e.addr ∈ t.visited

/-- A traversal. What follows its element is left, as long as the element is stored. -/
structure Visiting (m : HashmapT) (fresh : Nat) (t : Traversal) : Prop where
  started : ∀ addr ∈ t.started, addr < fresh
  iter : ∀ addr, t.iter = some addr → addr < fresh
  key : ∀ e ∈ m.elements, e.addr ∈ t.started → e.key = t.key
  rest : ∀ b ∈ m.list, ∀ e post, e :: post <:+ b → t.iter = some e.addr →
    e.key = t.key ∧ Pending m t post

/-- The invariant of the map: every element is in the list of its hash, the addresses differ, and
the traversals go on. -/
structure Stored (s : MapState) : Prop where
  placed : ∀ i b, s.map.list[i]? = some b → ∀ e ∈ b, (hashmapHashInt s.map e.key).toNat = i
  fresh : ∀ e ∈ s.map.elements, e.addr < s.fresh
  nodup : (s.map.elements.map HashmapElement.addr).Nodup
  visiting : ∀ v, Visiting s.map s.fresh (s.traversals v)

section Invariant

variable {s : MapState} {b post left : List HashmapElement} {e e' : HashmapElement} {key : Bytes}
  {data v : Nat} {m m' : HashmapT} {fresh fresh' : Nat} {t : Traversal}

theorem Stored.eq_of_addr (h : Stored s) (hmem : e ∈ s.map.elements) (hmem' : e' ∈ s.map.elements)
    (haddr : e.addr = e'.addr) : e = e' :=
  List.inj_on_of_nodup_map h.nodup hmem hmem' haddr

theorem Stored.mem_bucket (h : Stored s) (hb : s.map.bucket? key = some b)
    (hmem : e ∈ s.map.elements) (hkey : e.key = key) : e ∈ b := by
  obtain ⟨b', hb', hmem'⟩ := List.mem_flatten.1 hmem
  obtain ⟨i, hi⟩ := List.mem_iff_getElem?.1 hb'
  have hindex := h.placed i b' hi e hmem'
  rw [HashmapT.bucket?, ← hkey, hindex, hi] at hb
  rwa [← Option.some.inj hb]

theorem mem_list_of_bucket (hb : m.bucket? key = some b) : b ∈ m.list :=
  List.mem_iff_getElem?.2 ⟨_, hb⟩

theorem Stored.eq_post (h : Stored s) {b' post' : List HashmapElement} (hb : b ∈ s.map.list)
    (hb' : b' ∈ s.map.list) (hsuffix : e :: post <:+ b) (hsuffix' : e :: post' <:+ b') :
    post = post' := by
  obtain ⟨i, hi⟩ := List.mem_iff_getElem?.1 hb
  obtain ⟨i', hi'⟩ := List.mem_iff_getElem?.1 hb'
  have hindex := h.placed i b hi e (hsuffix.subset List.mem_cons_self)
  have hindex' := h.placed i' b' hi' e (hsuffix'.subset List.mem_cons_self)
  rw [← hindex', hindex, hi] at hi'
  obtain rfl := Option.some.inj hi'
  exact eq_of_cons_suffix ((List.Nodup.of_map _ h.nodup).sublist (List.sublist_flatten_of_mem hb))
    hsuffix hsuffix'

theorem Pending.visited (h : Pending m t left) (ht : Visiting m fresh t)
    (hfind : (left.find? fun e => t.key = e.key) = none) :
    ∀ e ∈ m.elements, e.addr ∈ t.started → e.addr ∈ t.visited := by
  intro e hmem hstarted
  rcases h.covered e hmem hstarted with hleft | hvisited
  · have hne := List.find?_eq_none.1 hfind e hleft
    exact absurd (decide_eq_true (ht.key e hmem hstarted).symm) hne
  · exact hvisited

theorem Pending.visit (h : Pending m t left) (ht : Visiting m fresh t) (hs : Stored s)
    (hm : s.map = m) (hf : s.fresh = fresh) (hb : b ∈ m.list) (hleft : left <:+ b)
    (hfind : (left.find? fun e => t.key = e.key) = some e) :
    e ∈ m.elements ∧ e.key = t.key ∧ e.addr ∈ t.started ∧ e.addr ∉ t.visited ∧
      Visiting m fresh (t.visit (some e.addr)) := by
  subst hm hf
  obtain ⟨hkey, pre, post, heq, hpre⟩ := List.find?_eq_some_iff_append.1 hfind
  have hkey : e.key = t.key := (of_decide_eq_true hkey).symm
  have hmem : e ∈ left := List.mem_of_find?_eq_some hfind
  have hstored : e ∈ s.map.elements := mem_elements_of_mem hb (hleft.subset hmem)
  obtain ⟨hstarted, hvisited⟩ := h.unvisited e hmem hkey
  refine ⟨hstored, hkey, hstarted, hvisited, ht.started, ?_, ht.key, ?_⟩
  · rintro addr ⟨rfl⟩
    exact hs.fresh e hstored
  · intro b' hb' e' post' hsuffix hiter
    have haddr : e.addr = e'.addr := Option.some.inj hiter
    have hsuffix₁ : e :: post <:+ b := by
      rw [heq] at hleft
      exact (List.suffix_append pre _).trans hleft
    have hstored' : e' ∈ s.map.elements :=
      mem_elements_of_mem hb' (hsuffix.subset List.mem_cons_self)
    obtain rfl := hs.eq_of_addr hstored hstored' haddr
    obtain rfl := hs.eq_post hb hb' hsuffix₁ hsuffix
    have hnodup : (left.map HashmapElement.addr).Nodup := by
      refine hs.nodup.sublist (List.Sublist.map _ ?_)
      exact hleft.sublist.trans (List.sublist_flatten_of_mem hb)
    rw [heq, List.map_append, List.map_cons, List.nodup_append, List.nodup_cons] at hnodup
    refine ⟨hkey, fun e'' hmem'' hkey'' => ?_, fun e'' hmem'' hstarted'' => ?_⟩
    · have hleft'' : e'' ∈ left := heq ▸ List.mem_append_right _ (List.mem_cons_of_mem _ hmem'')
      obtain ⟨h₁, h₂⟩ := h.unvisited e'' hleft'' hkey''
      refine ⟨h₁, fun hnew => ?_⟩
      rcases List.mem_append.1 hnew with hold | hnew
      · exact h₂ hold
      · obtain haddr'' : e''.addr = e.addr := List.mem_singleton.1 hnew
        exact hnodup.2.1.1 (haddr'' ▸ List.mem_map_of_mem hmem'')
    · rcases h.covered e'' hmem'' hstarted'' with hleft'' | hvisited''
      · rw [heq, List.mem_append, List.mem_cons] at hleft''
        rcases hleft'' with hmem | rfl | hmem
        · have hne := hpre e'' hmem
          rw [ht.key e'' hmem'' hstarted''] at hne
          simp at hne
        · exact .inr (List.mem_append_right _ List.mem_cons_self)
        · exact .inl hmem
      · exact .inr (List.mem_append_left _ hvisited'')

theorem Visiting.mono (h : Visiting m fresh t) (hfresh : fresh ≤ fresh')
    (hsub : ∀ e ∈ m'.elements, e.addr < fresh → e ∈ m.elements)
    (hlist : ∀ b' ∈ m'.list, ∀ e post', e :: post' <:+ b' → e.addr < fresh →
      ∃ b ∈ m.list, ∃ post, e :: post <:+ b ∧ post' ⊆ post ∧
        ∀ e' ∈ post, e' ∈ m'.elements → e' ∈ post') :
    Visiting m' fresh' t where
  started addr haddr := (h.started addr haddr).trans_le hfresh
  iter addr haddr := (h.iter addr haddr).trans_le hfresh
  key e hmem hstarted := h.key e (hsub e hmem (h.started _ hstarted)) hstarted
  rest b' hb' e post' hsuffix hiter := by
    obtain ⟨b, hb, post, hsuffix, hpost, hkept⟩ := hlist b' hb' e post' hsuffix (h.iter _ hiter)
    obtain ⟨hkey, hpending⟩ := h.rest b hb e post hsuffix hiter
    refine ⟨hkey, fun e' hmem => hpending.unvisited e' (hpost hmem), fun e' hmem hstarted => ?_⟩
    rcases hpending.covered e' (hsub e' hmem (h.started _ hstarted)) hstarted with hleft | hvisited
    · exact .inl (hkept e' hleft hmem)
    · exact .inr hvisited

end Invariant

/-! ### The calls -/

section Calls

variable {s s' : MapState} {b : List HashmapElement} {e : HashmapElement} {key : Bytes}
  {data v : Nat} {r : MapResult} {ev : MapEvent}

theorem bucket_of_inRange {m : HashmapT} (h : m.InRange key) : ∃ b, m.bucket? key = some b :=
  ⟨_, List.getElem?_eq_getElem h⟩

theorem bucket_eq_none {m : HashmapT} (h : ¬m.InRange key) : m.bucket? key = none :=
  List.getElem?_eq_none (Nat.le_of_not_lt h)

theorem placed_setBucket (h : Stored s) {b' : List HashmapElement}
    (hb : s.map.bucket? key = some b)
    (hb' : ∀ e ∈ b', e ∈ b ∨ e.key = key) :
    ∀ i b'', (s.map.setBucket key b')[i]? = some b'' →
      ∀ e ∈ b'', (hashmapHashInt s.map e.key).toNat = i := by
  intro i b'' hi e hmem
  rw [HashmapT.setBucket, List.getElem?_set] at hi
  split_ifs at hi with hindex hlt
  · obtain rfl := Option.some.inj hi
    rcases hb' e hmem with hold | hkey
    · exact h.placed i b (hindex ▸ hb) e hold
    · rw [hkey, hindex]
  · exact h.placed i b'' hi e hmem

theorem Stored.put (h : Stored s) (hb : s.map.bucket? key = some b) :
    Stored { s with
      map := { s.map with
        size := s.map.size + 1
        list := s.map.setBucket key (⟨s.fresh, key, data⟩ :: b) }
      fresh := s.fresh + 1 } := by
  have hperm := perm_setBucket_cons hb ⟨s.fresh, key, data⟩
  refine ⟨placed_setBucket h hb ?_, ?_, ?_, fun v => (h.visiting v).mono (Nat.le_succ _) ?_ ?_⟩
  · intro e hmem
    rcases List.mem_cons.1 hmem with rfl | hmem
    · exact .inr rfl
    · exact .inl hmem
  · intro e hmem
    rcases List.mem_cons.1 (hperm.mem_iff.1 hmem) with rfl | hmem
    · exact Nat.lt_succ_self _
    · exact (h.fresh e hmem).trans (Nat.lt_succ_self _)
  · rw [HashmapT.elements, (hperm.map HashmapElement.addr).nodup_iff, List.map_cons,
      List.nodup_cons]
    refine ⟨fun hmem => ?_, h.nodup⟩
    obtain ⟨e, hmem, haddr⟩ := List.mem_map.1 hmem
    exact (h.fresh e hmem).ne haddr
  · intro e hmem hlt
    rcases List.mem_cons.1 (hperm.mem_iff.1 hmem) with rfl | hmem
    · exact absurd hlt (Nat.lt_irrefl _)
    · exact hmem
  · intro b' hb' e post hsuffix hlt
    rcases List.mem_or_eq_of_mem_set hb' with hb' | rfl
    · exact ⟨b', hb', post, hsuffix, List.Subset.refl _, fun _ hmem _ => hmem⟩
    · rcases List.suffix_cons_iff.1 hsuffix with heq | hsuffix
      · obtain ⟨rfl, -⟩ := List.cons.inj heq
        exact absurd hlt (Nat.lt_irrefl _)
      · exact ⟨b, mem_list_of_bucket hb, post, hsuffix, List.Subset.refl _, fun _ hmem _ => hmem⟩

theorem Stored.perm_remove (h : Stored s) (hb : s.map.bucket? key = some b) (hmem : e ∈ b) :
    s.map.elements.Perm
      (e :: (s.map.setBucket key (b.filter fun e' => e'.addr ≠ e.addr)).flatten) :=
  perm_setBucket_filter hb hmem (h.nodup.sublist
    (List.Sublist.map _ (List.sublist_flatten_of_mem (mem_list_of_bucket hb))))

theorem Stored.remove (h : Stored s) (hb : s.map.bucket? key = some b) (hmem : e ∈ b) :
    Stored { s with
      map := { s.map with
        size := s.map.size - 1
        list := s.map.setBucket key (b.filter fun e' => e'.addr ≠ e.addr) } } := by
  have hperm := h.perm_remove hb hmem
  have hnodup := h.nodup
  rw [(hperm.map HashmapElement.addr).nodup_iff, List.map_cons, List.nodup_cons] at hnodup
  refine ⟨placed_setBucket h hb fun e' hmem' => .inl (List.mem_of_mem_filter hmem'), ?_, hnodup.2,
    fun v => (h.visiting v).mono le_rfl ?_ ?_⟩
  · exact fun e' hmem' => h.fresh e' (hperm.mem_iff.2 (List.mem_cons_of_mem _ hmem'))
  · exact fun e' hmem' _ => hperm.mem_iff.2 (List.mem_cons_of_mem _ hmem')
  · intro b' hb' e' post' hsuffix hlt
    rcases List.mem_or_eq_of_mem_set hb' with hb' | rfl
    · exact ⟨b', hb', post', hsuffix, List.Subset.refl _, fun _ hmem _ => hmem⟩
    · obtain ⟨l, hl, heq⟩ := List.suffix_filter_iff.1 hsuffix
      obtain ⟨l₁, post, rfl, -, -, rfl⟩ := List.filter_eq_cons_iff.1 heq.symm
      refine ⟨b, mem_list_of_bucket hb, post, (List.suffix_append l₁ _).trans hl,
        List.filter_subset_self _, fun e'' hpost hkept => ?_⟩
      refine List.mem_filter.2 ⟨hpost, decide_eq_true fun haddr => hnodup.1 ?_⟩
      have haddr' := List.mem_map_of_mem (f := HashmapElement.addr) hkept
      rwa [haddr] at haddr'

theorem Stored.update (h : Stored s) {t : Traversal} (ht : Visiting s.map s.fresh t) (v : Nat) :
    Stored { s with traversals := Function.update s.traversals v t } where
  placed := h.placed
  fresh := h.fresh
  nodup := h.nodup
  visiting v' := by
    dsimp only
    by_cases hv : v' = v
    · rw [hv, Function.update_self]
      exact ht
    · rw [Function.update_of_ne hv]
      exact h.visiting v'

theorem Visiting.none {m : HashmapT} {fresh : Nat} {t : Traversal} (ht : Visiting m fresh t) :
    Visiting m fresh { t with iter := none } :=
  ⟨ht.started, by simp, ht.key, by simp⟩

theorem Stored.pending_begin (h : Stored s) (hb : s.map.bucket? key = some b) {t : Traversal}
    (hiter : t.iter = none) :
    (t.begin s.map.elements key).key = key ∧
      Visiting s.map s.fresh (t.begin s.map.elements key) ∧
      Pending s.map (t.begin s.map.elements key) b := by
  rw [Traversal.begin, if_pos hiter]
  have hkey (e : HashmapElement) (hmem : e ∈ s.map.elements)
      (hstarted : e.addr ∈ ((s.map.elements : Multiset HashmapElement).filter
        fun e => e.key = key).map HashmapElement.addr) : e.key = key := by
    obtain ⟨e', hmem', haddr⟩ := Multiset.mem_map.1 hstarted
    obtain ⟨hmem', hkey⟩ := Multiset.mem_filter.1 hmem'
    rwa [← h.eq_of_addr hmem' hmem haddr]
  refine ⟨rfl, ⟨?_, by simp, hkey, by simp⟩, ⟨fun e hmem hkey' => ⟨?_, by simp⟩,
    fun e hmem hstarted => .inl (h.mem_bucket hb hmem (hkey e hmem hstarted))⟩⟩
  · dsimp only
    intro addr haddr
    obtain ⟨e, hmem, rfl⟩ := Multiset.mem_map.1 haddr
    exact h.fresh e (Multiset.mem_filter.1 hmem).1
  · dsimp only at hkey' ⊢
    refine Multiset.mem_map_of_mem _ (Multiset.mem_filter.2 ⟨?_, hkey'⟩)
    exact mem_elements_of_mem (mem_list_of_bucket hb) hmem

theorem Stored.search (h : Stored s) (hserved : Served s (.dataTraversal v key)) :
    ∃ b ∈ s.map.list, ∃ left, left <:+ b ∧
      Visiting s.map s.fresh (s.toMultimap.traversal v key) ∧
      Pending s.map (s.toMultimap.traversal v key) left ∧
      tuyaHashmapDataTraversal s.map key (s.traversals v).iter =
        some (match left.find? fun e => (s.toMultimap.traversal v key).key = e.key with
          | none => (mapMissing, none)
          | some e => (mapOk, some e.addr)) := by
  cases hiter : (s.traversals v).iter with
  | none =>
    rw [Served, hiter] at hserved
    obtain ⟨b, hb⟩ := bucket_of_inRange hserved
    obtain ⟨hkey, ht, hpending⟩ := h.pending_begin hb hiter
    refine ⟨b, mem_list_of_bucket hb, b, List.suffix_rfl, ht, hpending, ?_⟩
    have hkey' : (s.toMultimap.traversal v key).key = key := hkey
    rw [hkey', tuyaHashmapDataTraversal, hashFind, hb]
    rfl
  | some curr =>
    rw [Served, hiter] at hserved
    obtain ⟨e, hmem, rfl⟩ := hserved
    have hbegin : s.toMultimap.traversal v key = s.traversals v :=
      if_neg (by rw [MapState.toMultimap, hiter]; exact Option.some_ne_none _)
    have hfound : (s.map.list.findSome? (nodesFrom e.addr)).isSome := by
      obtain ⟨b, hb, hmem⟩ := List.mem_flatten.1 hmem
      exact List.findSome?_isSome_iff.2 ⟨b, hb, nodesFrom_isSome hmem⟩
    obtain ⟨⟨e', post⟩, hfound⟩ := Option.isSome_iff_exists.1 hfound
    obtain ⟨b, hb, hnodes⟩ := List.exists_of_findSome?_eq_some hfound
    obtain ⟨haddr, hsuffix⟩ := nodesFrom_eq_some hnodes
    obtain ⟨hkey, hpending⟩ := (h.visiting v).rest b hb e' post hsuffix (haddr ▸ hiter)
    refine ⟨b, hb, post, (List.suffix_cons e' post).trans hsuffix, ?_, ?_, ?_⟩
    · rw [hbegin]
      exact h.visiting v
    · rw [hbegin]
      exact hpending
    · rw [hbegin, ← hkey, tuyaHashmapDataTraversal, hashFindNextElement, hfound]
      rfl

def Serves (s : MapState) (ev : MapEvent) : Prop :=
  ∃ r s', mapStep s ev = some (r, s') ∧ MultimapStep s.toMultimap ev r s'.toMultimap ∧ Stored s'

theorem Stored.serves_put (h : Stored s) (hb : s.map.bucket? key = some b) (data : Nat) :
    Serves s (.put key data true) := by
  have hstep : mapStep s (.put key data true) = some (⟨mapOk, 0, none⟩,
      { s with
        map := { s.map with
          size := s.map.size + 1
          list := s.map.setBucket key (⟨s.fresh, key, data⟩ :: b) }
        fresh := s.fresh + 1 }) := by
    rw [mapStep, if_pos rfl]
    simp only [tuyaHashmapPut, hb, Option.map_some, if_true]
  refine ⟨_, _, hstep, ?_, h.put hb⟩
  have hput : MultimapStep s.toMultimap (.put key data true) _ _ :=
    .put key data s.fresh fun e hmem => (h.fresh e hmem).ne
  have hentries : ⟨s.fresh, key, data⟩ ::ₘ s.toMultimap.entries =
      ((s.map.setBucket key (⟨s.fresh, key, data⟩ :: b)).flatten : Multiset HashmapElement) := by
    rw [MapState.toMultimap, Multiset.cons_coe]
    exact Multiset.coe_eq_coe.2 (perm_setBucket_cons hb _).symm
  rw [hentries] at hput
  exact hput

theorem Stored.serves_get (h : Stored s) (hb : s.map.bucket? key = some b) :
    Serves s (.get key) := by
  cases hfind : b.find? fun e => key = e.key with
  | none =>
    refine ⟨⟨mapMissing, 0, none⟩, s, ?_, .getMissing key fun e hmem hkey => ?_, h⟩
    · rw [mapStep, tuyaHashmapGet, hashFind, hb, Option.map_some, hfind]
      rfl
    · have hne := List.find?_eq_none.1 hfind e (h.mem_bucket hb hmem hkey)
      exact hne (decide_eq_true hkey.symm)
  | some e =>
    refine ⟨⟨mapOk, e.data, none⟩, s, ?_, .get key e ?_ ?_, h⟩
    · rw [mapStep, tuyaHashmapGet, hashFind, hb, Option.map_some, hfind]
      rfl
    · exact mem_elements_of_mem (mem_list_of_bucket hb) (List.mem_of_find?_eq_some hfind)
    · have hkey := List.find?_some hfind
      exact (of_decide_eq_true hkey).symm

def MapState.visit (s : MapState) (v : Nat) (key : Bytes) (iter : Option Nat) : MapState :=
  { s with
    traversals := Function.update s.traversals v ((s.toMultimap.traversal v key).visit iter) }

theorem mapStep_dataTraversal {code : ℤ} {iter : Option Nat}
    (hcall : tuyaHashmapDataTraversal s.map key (s.traversals v).iter = some (code, iter)) :
    mapStep s (.dataTraversal v key) = some (⟨code, 0, iter⟩, s.visit v key iter) := by
  rw [mapStep, hcall]
  rfl

theorem Stored.serves_dataTraversal (h : Stored s) (hserved : Served s (.dataTraversal v key)) :
    Serves s (.dataTraversal v key) := by
  obtain ⟨b, hb, left, hleft, ht, hpending, hcall⟩ := h.search hserved
  cases hfind : left.find? fun e => (s.toMultimap.traversal v key).key = e.key with
  | none =>
    rw [hfind] at hcall
    refine ⟨_, s.visit v key none, mapStep_dataTraversal hcall,
      MultimapStep.visited v key (hpending.visited ht hfind), h.update ?_ v⟩
    rw [Traversal.visit, Option.toList_none, List.append_nil]
    exact ht.none
  | some e =>
    rw [hfind] at hcall
    obtain ⟨hmem, hkey, hstarted, hvisited, ht'⟩ := hpending.visit ht h rfl rfl hb hleft hfind
    exact ⟨_, s.visit v key (some e.addr), mapStep_dataTraversal hcall,
      MultimapStep.visit v key e hmem hkey hstarted hvisited, h.update ht' v⟩

theorem Stored.serves_remove (h : Stored s) (hb : s.map.bucket? key = some b)
    (hserved : b = [] ∨ ∃ e ∈ b, e.Matches key data) : Serves s (.remove key data) := by
  rcases hserved with rfl | hmatches
  · refine ⟨⟨mapMissing, 0, none⟩, s, ?_, .removeMissing key data fun e hmem hmatches => ?_, h⟩
    · rw [mapStep, tuyaHashmapRemove, hb]
      rfl
    · exact absurd (h.mem_bucket hb hmem hmatches.1.symm) List.not_mem_nil
  · obtain ⟨e, hmem, hmatches, hcursor⟩ := removeCursor_matches hmatches
    have hstep : mapStep s (.remove key data) = some (⟨mapOk, 0, none⟩,
        { s with map := { s.map with
            size := s.map.size - 1
            list := s.map.setBucket key (b.filter fun e' => e'.addr ≠ e.addr) } }) := by
      rw [mapStep, tuyaHashmapRemove, hb, Option.map_some, hcursor]
      rfl
    refine ⟨_, _, hstep, ?_, h.remove hb hmem⟩
    have hentries : s.toMultimap.entries = e ::ₘ
        ((s.map.setBucket key (b.filter fun e' => e'.addr ≠ e.addr)).flatten :
          Multiset HashmapElement) := by
      rw [MapState.toMultimap, Multiset.cons_coe]
      exact Multiset.coe_eq_coe.2 (h.perm_remove hb hmem)
    exact .remove key data e _ hmatches hentries

/-- **Step lemma.** A call that is served does what it should, and keeps the invariant. -/
theorem Stored.step (h : Stored s) (hserved : Served s ev) : Serves s ev := by
  match ev with
  | .put key data false => exact ⟨_, _, rfl, .omem key data, h⟩
  | .put key data true =>
    obtain ⟨b, hb⟩ := bucket_of_inRange (hserved rfl)
    exact h.serves_put hb data
  | .get key =>
    obtain ⟨b, hb⟩ := bucket_of_inRange hserved
    exact h.serves_get hb
  | .dataTraversal v key => exact h.serves_dataTraversal hserved
  | .reset v => exact ⟨_, _, rfl, .reset v, h.update (h.visiting v).none v⟩
  | .remove key data =>
    cases hb : s.map.bucket? key with
    | none =>
      rw [Served, hb] at hserved
      exact hserved.elim
    | some b =>
      rw [Served, hb] at hserved
      exact h.serves_remove hb hserved

theorem Stored.served (h : Stored s) (hrefines : Refines s ev) : Served s ev := by
  obtain ⟨r, s', hstep, hmulti⟩ := hrefines
  match ev with
  | .put key data malloc =>
    rintro rfl
    by_contra hrange
    simp [mapStep, tuyaHashmapPut, bucket_eq_none hrange] at hstep
  | .get key =>
    by_contra hrange
    simp [mapStep, tuyaHashmapGet, hashFind, bucket_eq_none hrange] at hstep
  | .dataTraversal v key =>
    rw [Served]
    cases hiter : (s.traversals v).iter with
    | none =>
      by_contra hrange
      simp [mapStep, tuyaHashmapDataTraversal, hiter, hashFind, bucket_eq_none hrange] at hstep
    | some curr =>
      cases hfound : s.map.list.findSome? (nodesFrom curr) with
      | none =>
        simp [mapStep, tuyaHashmapDataTraversal, hiter, hashFindNextElement, hfound] at hstep
      | some nodes =>
        obtain ⟨e, post⟩ := nodes
        obtain ⟨b, hb, hnodes⟩ := List.exists_of_findSome?_eq_some hfound
        obtain ⟨haddr, hsuffix⟩ := nodesFrom_eq_some hnodes
        exact ⟨e, mem_elements_of_mem hb (hsuffix.subset List.mem_cons_self), haddr⟩
  | .reset v => trivial
  | .remove key data =>
    rw [Served]
    cases hb : s.map.bucket? key with
    | none => simp [mapStep, tuyaHashmapRemove, hb] at hstep
    | some b =>
      refine or_iff_not_imp_left.2 fun hne => ?_
      obtain ⟨tmp, htmp⟩ := removeCursor_isSome key data hne
      have hcode : r.code = mapOk := by
        rw [mapStep, tuyaHashmapRemove, hb, Option.map_some, htmp] at hstep
        obtain ⟨rfl, -⟩ := Prod.mk.inj (Option.some.inj hstep)
        rfl
      generalize htarget : s'.toMultimap = target at hmulti
      cases hmulti with
      | remove _ _ e entries hmatches hentries =>
        have hmem : e ∈ s.toMultimap.entries := hentries ▸ Multiset.mem_cons_self e entries
        exact ⟨e, h.mem_bucket hb hmem hmatches.1.symm, hmatches⟩
      | removeMissing => cases hcode

theorem Stored.next (h : Stored s) (hserved : Served s ev) : Stored (s.next ev) := by
  obtain ⟨r, s', hstep, -, hstored⟩ := h.step hserved
  rw [MapState.next, hstep]
  exact hstored

theorem stored_init {tableSize : UInt32} {malloc mallocList : Bool} {m : HashmapT}
    (hnew : tuyaHashmapNew tableSize malloc mallocList = some m) : Stored (.init m) := by
  rw [tuyaHashmapNew] at hnew
  split_ifs at hnew
  obtain rfl := Option.some.inj hnew
  have helements : (HashmapT.elements ⟨0, tableSize,
      List.replicate (u32 (tableSize.toNat * 4) / 4) []⟩) = [] :=
    List.flatten_replicate_nil
  refine ⟨fun i b hi e hmem => ?_, ?_, ?_, fun v => ⟨?_, ?_, ?_, ?_⟩⟩
  · have hb := List.eq_of_mem_replicate (List.mem_iff_getElem?.2 ⟨i, hi⟩)
    rw [hb] at hmem
    cases hmem
  · rw [MapState.init, helements]
    exact fun _ hmem => absurd hmem List.not_mem_nil
  · rw [MapState.init, helements]
    exact List.nodup_nil
  all_goals simp [MapState.init, helements]

end Calls

/-- **The hash map.** Along every sequence of calls, on a table of every size, the map is a multimap
if and only if every call is served. -/
theorem refines_iff {tableSize : UInt32} {malloc mallocList : Bool} {m : HashmapT}
    (hnew : tuyaHashmapNew tableSize malloc mallocList = some m) (evs : List MapEvent) :
    Guarded MapState.next Refines (.init m) evs ↔ Guarded MapState.next Served (.init m) evs := by
  refine guarded_iff_of_invariant (fun s ev h => ⟨h.served, fun hserved => ?_⟩)
    (fun s ev h => h.next) (stored_init hnew)
  obtain ⟨r, s', hstep, hmulti, -⟩ := h.step hserved
  exact ⟨r, s', hstep, hmulti⟩

/-- On a table of two lists the keys "a" and "b" are put, a traversal visits the first one, the
second one is removed, and the traversal ends. -/
def twoKeys : List MapEvent :=
  [.put [97] 1 true, .put [98] 2 true, .put [97] 3 false, .get [97], .dataTraversal 0 [97],
    .remove [98] 2, .dataTraversal 0 [97]]

theorem refines_iff_twoKeys :
    ∃ m, tuyaHashmapNew 2 true true = some m ∧ Guarded MapState.next Refines (.init m) twoKeys := by
  obtain ⟨m, hnew⟩ : ∃ m, tuyaHashmapNew 2 true true = some m := ⟨_, rfl⟩
  refine ⟨m, hnew, (refines_iff hnew twoKeys).2 ?_⟩
  obtain rfl := Option.some.inj hnew
  decide +kernel

/-- On a table of one list the key "a" is put, and "b" is removed. This deletes "a". -/
theorem not_refines_otherKey :
    ∃ m, tuyaHashmapNew 1 true true = some m ∧
      ¬Guarded MapState.next Refines (.init m) [.put [97] 1 true, .remove [98] 1] ∧
      (([.put [97] 1 true, .remove [98] 1] : List MapEvent).foldl MapState.next
        (.init m)).map.elements = [] := by
  obtain ⟨m, hnew⟩ : ∃ m, tuyaHashmapNew 1 true true = some m := ⟨_, rfl⟩
  refine ⟨m, hnew, ?_, ?_⟩
  · rintro ⟨-, hrefines, -⟩
    have hput : Served (.init m) (.put [97] 1 true) := by
      obtain rfl := Option.some.inj hnew
      decide +kernel
    have hserved := ((stored_init hnew).next hput).served hrefines
    revert hserved
    obtain rfl := Option.some.inj hnew
    decide +kernel
  · obtain rfl := Option.some.inj hnew
    decide +kernel

end TuyaOpen.Hashmap
