import TuyaOpen.Common.ByteOrder
import TuyaOpen.Common.OperateRet

/-!
# KLV lists

The lists of `ble_dp.c` in which data points go over BLE, and their serial form. A record is

  identifier + type + length + value,

with a big-endian length of two bytes. The serial form starts with a head. The parser is for the
part behind the head; it prepends every record that it reads, so the list comes out reversed. The
serial forms other than that of protocol 4 are not reached and left out.

## Main results

* `readKlv_cases`: one record.
* `klvLoop_spec`: the records from any point on.
* `klv_grammar`: the parser accepts exactly the serial forms of lists that are not empty.
-/

namespace TuyaOpen.Ble

/-! ### Nodes -/

/-- `DT_RAW`. -/
def dtRaw : UInt8 := 0

/-- `DT_BOOL`. -/
def dtBool : UInt8 := 1

/-- `DT_VALUE`. -/
def dtValue : UInt8 := 2

/-- `DT_STRING`. -/
def dtString : UInt8 := 3

/-- `DT_ENUM`. -/
def dtEnum : UInt8 := 4

/-- `DT_BITMAP`. -/
def dtBitmap : UInt8 := 5

/-- `DT_LMT`. -/
def dtLmt : UInt8 := 10

/-- `klv_node_s`. Its `len` is the length of `data`, and the pointer is `NULL` if there is none. -/
structure KlvNode where
  id : UInt8
  type : UInt8
  data : Bytes
  length_data_lt : data.length < 65536

/-- `sizeof(klv_node_s)`, with pointers of 64 bits. -/
def sizeofKlvNode : Nat := 24

/-- `tuya_change_bt_dp_tlv`: the bytes that `data` has afterwards. Words are little-endian in
memory. -/
def tuyaChangeBtDpTlv (type : UInt8) (data : Bytes) : Bytes :=
  if type = dtEnum then
    let enumValue := leNat (data.take 4)
    if enumValue ≤ 0xff then beBytes 1 enumValue
    else if enumValue ≤ 0xffff then beBytes 2 enumValue
    else beBytes 4 enumValue
  else if type = dtBool then beBytes 1 (leNat (data.take 4))
  else data

theorem length_tuyaChangeBtDpTlv_lt {type : UInt8} {data : Bytes} (h : data.length < 65536) :
    (tuyaChangeBtDpTlv type data).length < 65536 := by
  unfold tuyaChangeBtDpTlv
  simp only
  split_ifs
  all_goals first | exact h | (rw [length_beBytes]; decide)

/-- `make_klv_list`, which gives `NULL`, that is the empty list, when it fails. Other than in the
source, where it is read behind its end, a bitmap of less than four bytes has no result. -/
def makeKlvList (malloc : Nat → Bool) (list : List KlvNode) (id type : UInt8) (data : Bytes)
    (hdata : data.length < 65536) : Option (List KlvNode) :=
  let len := data.length
  if dtLmt ≤ type then some []
  else if type = dtValue ∧ len ≠ 4 then some []
  else if type = dtBitmap ∧ 4 < len then some []
  else if type = dtBool ∧ len ≠ 4 then some []
  else if type = dtEnum ∧ len ≠ 4 then some []
  else if 0 < len ∧ ¬malloc len then some []
  else
    let pData := tuyaChangeBtDpTlv type data
    if ¬malloc sizeofKlvNode then some []
    else if 0 < pData.length ∧ ¬malloc pData.length then some []
    else if type = dtValue ∨ type = dtBitmap then
      if len < 4 then none
      else
        some (⟨id, type, beBytes 4 (leNat (data.take 4)), by rw [length_beBytes]; decide⟩ :: list)
    else some (⟨id, type, pData, length_tuyaChangeBtDpTlv_lt hdata⟩ :: list)

/-! ### The serial form -/

def klvBytes (node : KlvNode) : Bytes :=
  node.id :: node.type :: (beBytes 2 node.data.length ++ node.data)

def klvRecords (list : List KlvNode) : Bytes := (list.map klvBytes).flatten

/-- The head of `klvlist_2_data`: version, sequence number, type, flag and, if it is given, the
time as it lies in memory. -/
def klvHead (sn : UInt32) (timeStamp : Option UInt32) (query : Bool) (flag : UInt8) : Bytes :=
  0 :: beBytes 4 sn.toNat ++ [if query then 1 else 0, flag] ++
    match timeStamp with
    | none => []
    | some t => 1 :: leBytes 4 t.toNat

def klvHeadLen (timeStamp : Option UInt32) : Nat := 7 + if timeStamp.isSome then 5 else 0

def klvSerial (sn : UInt32) (timeStamp : Option UInt32) (query : Bool) (flag : UInt8)
    (list : List KlvNode) : Bytes :=
  klvHead sn timeStamp query flag ++ klvRecords list

/-- `mk_data_len`: 16 bytes more for a node than its data. -/
def mkDataLen (timeStamp : Option UInt32) (list : List KlvNode) : Nat :=
  u32 (klvHeadLen timeStamp + (list.map fun node => 16 + node.data.length).sum)

/-- `klvlist_2_data`: the return value, the data and the new value of `sn`. There is no result when
the data is written behind the end of the memory for it. -/
def klvlist2Data (malloc : Nat → Bool) (sn : UInt32) (timeStamp : Option UInt32) (query : Bool)
    (flag : UInt8) (list : List KlvNode) : Option (OperateRet × Option Bytes × UInt32) :=
  if list = [] then some (oprtInvalidParm, none, sn)
  else if ¬malloc (mkDataLen timeStamp list) then some (oprtMallocFailed, none, sn)
  else
    let mkData := klvSerial sn timeStamp query flag list
    if mkDataLen timeStamp list < mkData.length then none
    else some (oprtOk, some mkData, sn + 1)

/-! ### Reading -/

def klvLen (head : Bytes) : Nat := beNat (slice head 2 2)

theorem klvLen_lt (head : Bytes) : klvLen head < 65536 := by
  have hlen : (slice head 2 2).length ≤ 2 := List.length_take_le _ _
  exact Nat.lt_of_lt_of_le (beNat_lt _) (Nat.pow_le_pow_right (by decide) hlen)

/-- A turn of the loop of `data_2_klvlist`: the error that it returns, or the record at `offset` and
the offset behind it. There is no result when bytes behind the data are read. -/
def readKlv (malloc : Nat → Bool) (data : Bytes) (offset : Nat) :
    Option (Except OperateRet (KlvNode × Nat)) :=
  if u32Sub data.length offset < 4 then some (.error oprtComError)
  else if ¬malloc sizeofKlvNode then some (.error oprtMallocFailed)
  else
    match readSpan data offset 4 with
    | none => none
    | some head =>
      if 0 < klvLen head ∧ ¬malloc (klvLen head + 1) then some (.error oprtMallocFailed)
      else if 0 < klvLen head ∧ u32Sub data.length (offset + 4) < klvLen head then
        some (.error oprtComError)
      else if data.length < offset + 4 + klvLen head then none
      else
        some (.ok (⟨head.getD 0 0, head.getD 1 0, slice data (offset + 4) (klvLen head),
          Nat.lt_of_le_of_lt (List.length_take_le _ _) (klvLen_lt head)⟩,
          u32 (offset + 4 + klvLen head)))

/-- The loop of `data_2_klvlist`, in at most `fuel` turns: the return value and the list. -/
def klvLoop (malloc : Nat → Bool) (data : Bytes) :
    Nat → Nat → List KlvNode → Option (OperateRet × Option (List KlvNode))
  | 0, _, _ => none
  | fuel + 1, offset, klvList =>
    match readKlv malloc data offset with
    | none => none
    | some (.error rt) => some (rt, none)
    | some (.ok (node, offset)) =>
      if offset < data.length then klvLoop malloc data fuel offset (node :: klvList)
      else some (oprtOk, some (node :: klvList))

/-- `data_2_klvlist`. A turn takes four bytes at least. -/
def data2Klvlist (malloc : Nat → Bool) (data : Bytes) :
    Option (OperateRet × Option (List KlvNode)) :=
  klvLoop malloc data (data.length + 1) 0 []

def Allocatable (malloc : Nat → Bool) (node : KlvNode) : Prop :=
  malloc sizeofKlvNode ∧ (0 < node.data.length → malloc (node.data.length + 1))

/-! ### One record -/

section Record

variable {malloc : Nat → Bool} {data rest : Bytes} {node node' : KlvNode} {offset : Nat}

theorem length_klvBytes (node : KlvNode) : (klvBytes node).length = 4 + node.data.length := by
  simp only [klvBytes, List.length_cons, List.length_append, length_beBytes]
  omega

theorem klvLen_klvBytes (node : KlvNode) (rest : Bytes) :
    klvLen (klvBytes node ++ rest) = node.data.length := by
  have hspan : slice (klvBytes node ++ rest) 2 2 = beBytes 2 node.data.length :=
    slice_eq_of_append [node.id, node.type] (node.data ++ rest)
      (by simp only [klvBytes, List.cons_append, List.nil_append, List.append_assoc]) rfl
      (length_beBytes 2 _)
  rw [klvLen, hspan]
  exact beNat_beBytes_of_lt node.length_data_lt

theorem klvBytes_append_inj {rest' : Bytes} (h : klvBytes node ++ rest = klvBytes node' ++ rest') :
    node = node' ∧ rest = rest' := by
  have hlen : node.data.length = node'.data.length := by
    rw [← klvLen_klvBytes node rest, h, klvLen_klvBytes]
  obtain ⟨hbytes, hrest⟩ := List.append_inj h (by rw [length_klvBytes, length_klvBytes, hlen])
  refine ⟨?_, hrest⟩
  simp only [klvBytes, List.cons.injEq] at hbytes
  obtain ⟨hid, htype, hdata⟩ := hbytes
  rw [hlen] at hdata
  cases node
  cases node'
  simp only [KlvNode.mk.injEq]
  exact ⟨hid, htype, List.append_cancel_left hdata⟩

theorem exists_klvBytes (hhead : 4 ≤ data.length) (hvalue : 4 + klvLen data ≤ data.length) :
    ∃ node, data = klvBytes node ++ data.drop (4 + klvLen data) ∧ node.id = data.getD 0 0 ∧
      node.type = data.getD 1 0 ∧ node.data = slice data 4 (klvLen data) := by
  have hlen : (slice data 4 (klvLen data)).length = klvLen data := length_slice hvalue
  have hfield : beBytes 2 (klvLen data) = slice data 2 2 := by
    have hspan : (slice data 2 2).length = 2 := length_slice hhead
    have hfield := beBytes_beNat (slice data 2 2)
    rwa [hspan] at hfield
  refine ⟨⟨data.getD 0 0, data.getD 1 0, slice data 4 (klvLen data), ?_⟩, ?_, rfl, rfl, rfl⟩
  · rw [hlen]
    exact klvLen_lt _
  rw [klvBytes]
  simp only [hlen, hfield]
  obtain ⟨a, b, rest, rfl⟩ : ∃ a b rest, data = a :: b :: rest := by
    match data, hhead with
    | a :: b :: rest, _ => exact ⟨a, b, rest, rfl⟩
  have hsplit : slice (a :: b :: rest) 2 2 ++
      (slice (a :: b :: rest) 4 (klvLen (a :: b :: rest)) ++
        (a :: b :: rest).drop (4 + klvLen (a :: b :: rest))) = (a :: b :: rest).drop 2 := by
    rw [slice_append_drop, slice_append_drop]
  rw [List.cons_append, List.cons_append, List.append_assoc, hsplit]
  rfl

/-- **One turn** of the parser takes a record from the front of what is left, if memory for it can
be allocated, and otherwise fails. It reads nothing behind the data. -/
theorem readKlv_cases (hlen : data.length < 4294967296) (hoff : offset ≤ data.length) :
    (∃ node rest, data.drop offset = klvBytes node ++ rest ∧ Allocatable malloc node ∧
        readKlv malloc data offset = some (.ok (node, offset + (klvBytes node).length))) ∨
      ∃ rt, rt ≠ oprtOk ∧ readKlv malloc data offset = some (.error rt) ∧
        ∀ node rest, data.drop offset = klvBytes node ++ rest → ¬Allocatable malloc node := by
  have hcom : oprtComError ≠ oprtOk := by decide
  have hmalloc : oprtMallocFailed ≠ oprtOk := by decide
  have hdrop : (data.drop offset).length = data.length - offset := List.length_drop
  have hlenOf {node : KlvNode} {rest : Bytes} (h : data.drop offset = klvBytes node ++ rest) :
      data.length - offset = 4 + node.data.length + rest.length := by
    rw [← hdrop, h, List.length_append, length_klvBytes]
  rw [readKlv, u32Sub_of_le hlen hoff]
  by_cases hshort : data.length - offset < 4
  · refine .inr ⟨_, hcom, if_pos hshort, fun node rest h => ?_⟩
    have := hlenOf h
    omega
  rw [if_neg hshort]
  by_cases hnode : malloc sizeofKlvNode
  swap
  · exact .inr ⟨_, hmalloc, if_pos hnode, fun node rest h halloc => hnode halloc.1⟩
  have hhead : readSpan data offset 4 = some (slice data offset 4) := readSpan_of_le (by omega)
  have hklv : klvLen (slice data offset 4) = klvLen (data.drop offset) := by
    rw [klvLen, klvLen, slice_slice (by decide), slice, slice, List.drop_drop]
  rw [if_neg (not_not.mpr hnode), hhead]
  dsimp only
  have hnlt : klvLen (slice data offset 4) < 65536 := klvLen_lt _
  set n := klvLen (slice data offset 4)
  have hnOf {node : KlvNode} {rest : Bytes} (h : data.drop offset = klvBytes node ++ rest) :
      node.data.length = n := by
    rw [hklv, h, klvLen_klvBytes]
  by_cases hvalue : 0 < n ∧ ¬malloc (n + 1)
  · refine .inr ⟨_, hmalloc, if_pos hvalue, fun node rest h halloc => hvalue.2 ?_⟩
    rw [← hnOf h]
    exact halloc.2 (by rw [hnOf h]; exact hvalue.1)
  rw [if_neg hvalue, u32Sub_of_le hlen (by omega)]
  by_cases hrest : 0 < n ∧ data.length - (offset + 4) < n
  · refine .inr ⟨_, hcom, if_pos hrest, fun node rest h => ?_⟩
    have := hlenOf h
    have := hnOf h
    omega
  have hfits : ¬data.length < offset + 4 + n := by omega
  obtain ⟨node, hnode', hid, htype, hdata⟩ :=
    @exists_klvBytes (data.drop offset) (by omega) (by rw [← hklv]; omega)
  have hnodeLen : node.data.length = n := by
    rw [hdata, ← hklv, length_slice]
    omega
  refine .inl ⟨node, _, hnode', ⟨hnode, fun hpos => ?_⟩, ?_⟩
  · by_contra hno
    rw [hnodeLen] at hpos hno
    exact hvalue ⟨hpos, hno⟩
  · have hget (i : Nat) (hi : i < 4) : (slice data offset 4).getD i 0 =
        (data.drop offset).getD i 0 := by
      rw [slice, List.getD_eq_getElem?_getD, List.getD_eq_getElem?_getD, List.getElem?_take,
        if_pos hi]
    have hspan : slice data (offset + 4) n = slice (data.drop offset) 4 n := by
      rw [slice, slice, List.drop_drop]
    have hsum : u32 (offset + 4 + n) = offset + (klvBytes node).length := by
      rw [length_klvBytes, hnodeLen, u32_of_lt (by omega), Nat.add_assoc]
    have hdata' : node.data = slice (data.drop offset) 4 n := by rw [hdata, ← hklv]
    rw [if_neg hrest, if_neg hfits]
    simp only [Option.some.injEq, Except.ok.injEq, Prod.mk.injEq]
    refine ⟨?_, hsum⟩
    cases node
    simp only [KlvNode.mk.injEq]
    exact ⟨(hget 0 (by decide)).trans hid.symm, (hget 1 (by decide)).trans htype.symm,
      hspan.trans hdata'.symm⟩

end Record

/-! ### Lists of records -/

section Records

variable {malloc : Nat → Bool} {data : Bytes} {offset : Nat} {klvList list recs : List KlvNode}

theorem klvRecords_cons (node : KlvNode) (recs : List KlvNode) :
    klvRecords (node :: recs) = klvBytes node ++ klvRecords recs := rfl

theorem klvRecords_ne_nil (h : recs ≠ []) : klvRecords recs ≠ [] := by
  cases recs with
  | nil => exact absurd rfl h
  | cons node recs => exact List.cons_ne_nil _ _

theorem klvRecords_inj {recs' : List KlvNode} (h : klvRecords recs = klvRecords recs') :
    recs = recs' := by
  induction recs generalizing recs' with
  | nil =>
    by_contra hne
    exact klvRecords_ne_nil (Ne.symm hne) h.symm
  | cons node recs ih =>
    cases recs' with
    | nil => exact absurd h (klvRecords_ne_nil (List.cons_ne_nil _ _))
    | cons node' recs' =>
      obtain ⟨rfl, hrest⟩ := klvBytes_append_inj h
      rw [ih hrest]

/-- The bytes are the records of a list that is not empty, and there is memory for them. -/
def Parses (malloc : Nat → Bool) (data : Bytes) (recs : List KlvNode) : Prop :=
  recs ≠ [] ∧ data = klvRecords recs ∧ ∀ node ∈ recs, Allocatable malloc node

/-- **The loop** from any point on: it succeeds just when what is left are records, and has
prepended them then. -/
theorem klvLoop_spec (hlen : data.length < 4294967296) (hoff : offset ≤ data.length) {fuel : Nat}
    (hfuel : data.length - offset < fuel) :
    ∃ rt out, klvLoop malloc data fuel offset klvList = some (rt, out) ∧
      (rt = oprtOk ↔ ∃ recs, Parses malloc (data.drop offset) recs) ∧
      ∀ recs, Parses malloc (data.drop offset) recs → out = some (recs.reverse ++ klvList) := by
  induction fuel generalizing offset klvList with
  | zero => omega
  | succ fuel ih =>
    rw [klvLoop]
    rcases @readKlv_cases malloc data offset hlen hoff with
      ⟨node, rest, hdrop, halloc, hread⟩ | ⟨rt, hrt, hread, hno⟩
    · -- A list of records starts with the record that has been read.
      have hparses (recs : List KlvNode) : Parses malloc (data.drop offset) recs ↔
          ∃ recs', recs = node :: recs' ∧ rest = klvRecords recs' ∧
            ∀ n ∈ recs', Allocatable malloc n := by
        constructor
        · rintro ⟨hne, hdata, hall⟩
          cases recs with
          | nil => exact absurd rfl hne
          | cons node' recs' =>
            rw [hdrop, klvRecords_cons] at hdata
            obtain ⟨rfl, hrest⟩ := klvBytes_append_inj hdata
            exact ⟨recs', rfl, hrest, (List.forall_mem_cons.mp hall).2⟩
        · rintro ⟨recs', rfl, hrest, hall⟩
          exact ⟨List.cons_ne_nil _ _, by rw [hdrop, hrest, klvRecords_cons],
            List.forall_mem_cons.mpr ⟨halloc, hall⟩⟩
      have hnext : data.drop (offset + (klvBytes node).length) = rest := by
        rw [← List.drop_drop, hdrop, List.drop_left]
      have htotal : data.length - offset = (klvBytes node).length + rest.length := by
        rw [← List.length_drop, hdrop, List.length_append]
      have hpos := length_klvBytes node
      rw [hread]
      dsimp only
      by_cases hmore : offset + (klvBytes node).length < data.length
      · rw [if_pos hmore]
        have hrest : rest ≠ [] := List.ne_nil_of_length_pos (by omega)
        obtain ⟨rt, out, hloop, hok, hout⟩ := @ih (offset + (klvBytes node).length)
          (node :: klvList) (by omega) (by omega)
        rw [hnext] at hok hout
        refine ⟨rt, out, hloop, hok.trans ?_, fun recs hrecs => ?_⟩
        · constructor
          · rintro ⟨recs', hne, hdata, hall⟩
            exact ⟨node :: recs', (hparses _).mpr ⟨recs', rfl, hdata, hall⟩⟩
          · rintro ⟨recs, hrecs⟩
            obtain ⟨recs', -, hdata, hall⟩ := (hparses _).mp hrecs
            refine ⟨recs', fun hnil => hrest ?_, hdata, hall⟩
            rw [hdata, hnil]
            rfl
        · obtain ⟨recs', rfl, hdata, hall⟩ := (hparses _).mp hrecs
          have hne : recs' ≠ [] := fun hnil => hrest (by rw [hdata, hnil]; rfl)
          rw [hout recs' ⟨hne, hdata, hall⟩, List.reverse_cons, List.append_assoc,
            List.singleton_append]
      · rw [if_neg hmore]
        have hrest : rest = [] := List.eq_nil_of_length_eq_zero (by omega)
        refine ⟨oprtOk, _, rfl, iff_of_true rfl ⟨[node], ?_⟩, fun recs hrecs => ?_⟩
        · exact (hparses _).mpr ⟨[], rfl, hrest, fun n hn => by cases hn⟩
        · obtain ⟨recs', rfl, hdata, -⟩ := (hparses _).mp hrecs
          have hnil : recs' = [] := by
            by_contra hne
            exact klvRecords_ne_nil hne (hdata.symm.trans hrest)
          rw [hnil]
          rfl
    · rw [hread]
      have hnone (recs : List KlvNode) : ¬Parses malloc (data.drop offset) recs := by
        rintro ⟨hne, hdata, hall⟩
        cases recs with
        | nil => exact hne rfl
        | cons node recs' =>
          exact hno node (klvRecords recs') hdata (List.forall_mem_cons.mp hall).1
      exact ⟨rt, none, rfl, iff_of_false hrt fun ⟨recs, hrecs⟩ => hnone recs hrecs,
        fun recs hrecs => absurd hrecs (hnone recs)⟩

theorem data2Klvlist_spec (malloc : Nat → Bool) (hlen : data.length < 4294967296) :
    ∃ rt out, data2Klvlist malloc data = some (rt, out) ∧
      (rt = oprtOk ↔ ∃ recs, Parses malloc data recs) ∧
      ∀ recs, Parses malloc data recs → out = some recs.reverse := by
  obtain ⟨rt, out, hloop, hok, hout⟩ :=
    @klvLoop_spec malloc data 0 [] hlen (Nat.zero_le _) (data.length + 1) (by omega)
  rw [List.drop_zero] at hok hout
  exact ⟨rt, out, hloop, hok, fun recs hrecs => (hout recs hrecs).trans (by rw [List.append_nil])⟩

/-! ### The serial form is read back -/

variable {sn sn' : UInt32} {timeStamp : Option UInt32} {query : Bool} {flag : UInt8}

theorem length_klvHead (sn : UInt32) (timeStamp : Option UInt32) (query : Bool) (flag : UInt8) :
    (klvHead sn timeStamp query flag).length = klvHeadLen timeStamp := by
  cases timeStamp with
  | none => simp [klvHead, klvHeadLen]
  | some t => simp [klvHead, klvHeadLen, leBytes]

theorem drop_klvSerial (sn : UInt32) (timeStamp : Option UInt32) (query : Bool) (flag : UInt8)
    (list : List KlvNode) :
    (klvSerial sn timeStamp query flag list).drop (klvHeadLen timeStamp) = klvRecords list := by
  rw [klvSerial, ← length_klvHead sn timeStamp query flag, List.drop_left]

theorem length_klvRecords_le (list : List KlvNode) :
    (klvRecords list).length ≤ (list.map fun node => 16 + node.data.length).sum := by
  induction list with
  | nil => exact Nat.le_refl 0
  | cons node list ih =>
    rw [klvRecords_cons, List.length_append, length_klvBytes, List.map_cons, List.sum_cons]
    omega

theorem klvlist2Data_eq_ok {bytes : Bytes}
    (h : klvlist2Data malloc sn timeStamp query flag list = some (oprtOk, some bytes, sn')) :
    list ≠ [] ∧ bytes = klvSerial sn timeStamp query flag list ∧ bytes.length < 4294967296 := by
  rw [klvlist2Data] at h
  by_cases hnil : list = []
  · rw [if_pos hnil] at h
    cases h
  by_cases hmalloc : malloc (mkDataLen timeStamp list)
  swap
  · rw [if_neg hnil, if_pos hmalloc] at h
    cases h
  by_cases hlong : mkDataLen timeStamp list < (klvSerial sn timeStamp query flag list).length
  · rw [if_neg hnil, if_neg (not_not.mpr hmalloc), if_pos hlong] at h
    cases h
  · rw [if_neg hnil, if_neg (not_not.mpr hmalloc), if_neg hlong] at h
    obtain ⟨-, hrest⟩ := Prod.mk.inj (Option.some.inj h)
    obtain rfl := Option.some.inj (Prod.mk.inj hrest).1
    exact ⟨hnil, rfl, Nat.lt_of_le_of_lt (Nat.not_lt.mp hlong) (u32_lt _)⟩

theorem exists_klvlist2Data (hne : list ≠ [])
    (hsize : klvHeadLen timeStamp + (list.map fun node => 16 + node.data.length).sum < 4294967296)
    (hmalloc : malloc (mkDataLen timeStamp list)) :
    klvlist2Data malloc sn timeStamp query flag list =
      some (oprtOk, some (klvSerial sn timeStamp query flag list), sn + 1) := by
  have hfits : ¬mkDataLen timeStamp list < (klvSerial sn timeStamp query flag list).length := by
    have hle := length_klvRecords_le list
    rw [mkDataLen, u32_of_lt hsize, klvSerial, List.length_append, length_klvHead]
    omega
  rw [klvlist2Data, if_neg hne, if_neg (not_not.mpr hmalloc)]
  exact if_neg hfits

/-- **The grammar of KLV lists.** The parser reads nothing behind its data. It succeeds just when
the data are the records of a list that is not empty, and gives the list reversed. The records of
every list that `klvlist_2_data` writes are parsed to the reversed list. -/
theorem klv_grammar (malloc : Nat → Bool) :
    (∀ data : Bytes, data.length < 4294967296 →
      ∃ rt out, data2Klvlist malloc data = some (rt, out) ∧
        (rt = oprtOk ↔ ∃ recs, Parses malloc data recs) ∧
        ∀ recs, Parses malloc data recs → out = some recs.reverse) ∧
    ∀ (sn : UInt32) (timeStamp : Option UInt32) (query : Bool) (flag : UInt8)
        (list : List KlvNode), list ≠ [] → (∀ node ∈ list, Allocatable malloc node) →
      (∀ bytes sn',
        klvlist2Data malloc sn timeStamp query flag list = some (oprtOk, some bytes, sn') →
          data2Klvlist malloc (bytes.drop (klvHeadLen timeStamp)) =
            some (oprtOk, some list.reverse)) ∧
      (klvHeadLen timeStamp + (list.map fun node => 16 + node.data.length).sum < 4294967296 →
        malloc (mkDataLen timeStamp list) →
          ∃ bytes sn',
            klvlist2Data malloc sn timeStamp query flag list = some (oprtOk, some bytes, sn')) := by
  refine ⟨fun data hlen => data2Klvlist_spec malloc hlen,
    fun sn timeStamp query flag list hne hall => ⟨fun bytes sn' hok => ?_, fun hsize hmalloc => ?_⟩⟩
  · obtain ⟨-, rfl, hlen⟩ := klvlist2Data_eq_ok hok
    rw [drop_klvSerial]
    have hlen' : (klvRecords list).length < 4294967296 := by
      rw [klvSerial, List.length_append] at hlen
      omega
    have hparses : Parses malloc (klvRecords list) list := ⟨hne, rfl, hall⟩
    obtain ⟨rt, out, hparse, hrt, hout⟩ := data2Klvlist_spec malloc hlen'
    rw [hparse, hrt.mpr ⟨list, hparses⟩, hout list hparses]
  · exact ⟨_, _, exists_klvlist2Data hne hsize hmalloc⟩

end Records

example : ((data2Klvlist (fun _ => true) [1, 1, 0, 1, 1, 7, 3, 0, 0]).bind Prod.snd).map
      (List.map fun node => (node.id, node.data)) =
    some [(7, []), (1, [1])] := by
  decide +kernel

end TuyaOpen.Ble
