import TuyaOpen.Basic.Fill
import TuyaOpen.Basic.Json
import TuyaOpen.Basic.PrintBuffer
import TuyaOpen.Common.OperateRet

/-!
# The list of access points

The reply to the command `get_wifi_list`, which `ap_ext_cmd_parse` of `ap_netcfg.c` prints with
`ap_get_wifi_list` into a buffer of 4128 bytes. Before each access point with a name the function
asks for 64 free bytes. An access point takes up to 66, and the closing brackets and the terminator
are printed behind the last one without a further question. Names are printed between quotes as they
are. The requested count is passed on as a 16-bit number.

A JSON text is read at the level of bytes.
-/

namespace TuyaOpen.Netcfg

/-! ### The functions -/

/-- `AP_IF_S`, with the name as a C string. -/
structure ApIf where
  ssid : Bytes
  rssi : Int8
  security : UInt8
  zero_notMem : 0 ∉ ssid
  length_le : ssid.length ≤ 32
  deriving DecidableEq

def nameText (name : List Char) : Bytes := 0x22 :: (asciiBytes name ++ [0x22, 0x3a])

/-- What `ap_ext_cmd_parse` prints first. -/
def replyHead : Bytes :=
  0x7b :: nameText ['r', 'e', 'q', 'T', 'y', 'p', 'e'] ++
    0x22 :: asciiBytes ['w', 'i', 'f', 'i', '_', 'l', 'i', 's', 't', '_', 'r', 'p', 't'] ++
    [0x22, 0x2c] ++ nameText ['d', 'a', 't', 'a']

/-- What `ap_get_wifi_list` prints first. -/
def listHead : Bytes :=
  0x7b :: nameText ['w', 'i', 'f', 'i', '_', 'l', 'i', 's', 't'] ++ [0x5b]

def apText (ap : ApIf) : Bytes :=
  0x7b :: nameText ['s', 's', 'i', 'd'] ++ 0x22 :: ap.ssid ++ [0x22, 0x2c] ++
    nameText ['r', 's', 's', 'i'] ++ Json.intText ap.rssi.toInt ++ 0x2c ::
    nameText ['s', 'e', 'c'] ++ Json.intText ap.security.toNat ++ [0x7d]

/-- The loop of `ap_get_wifi_list`. The text of the list begins at `base`. -/
def wifiListLoop (base wifiListSize : Nat) :
    List ApIf → (firstAp : Bool) → PrintBuf → Option PrintBuf
  | [], _, b => some b
  | ap :: aps, firstAp, b =>
    if ap.ssid = [] then wifiListLoop base wifiListSize aps firstAp b
    else if wifiListSize < b.offset - base + 64 then some b
    else
      (if firstAp then some b else b.print [0x2c]).bind fun b =>
        (b.print (apText ap)).bind fun b => wifiListLoop base wifiListSize aps false b

/-- What `tal_wifi_all_ap_scan` gives. -/
abbrev ScanResult := OperateRet × List ApIf

/-- `ap_get_wifi_list` where the offset of the buffer is. -/
def apGetWifiList (scan : ScanResult) (wifiListSize : Nat) (maxCnt : UInt16) (b : PrintBuf) :
    Option PrintBuf :=
  if scan.1 ≠ oprtOk ∨ scan.2 = [] then b.print (listHead ++ [0x5d, 0x7d])
  else
    (b.print listHead).bind fun b' =>
      (wifiListLoop b.offset wifiListSize (scan.2.take (min maxCnt.toNat scan.2.length)) true
        b').bind fun b' => b'.print [0x5d, 0x7d]

def bufferSize : Nat := 1024 * 4 + 32

/-- The branch `get_wifi_list` of `ap_ext_cmd_parse` with the buffer `mem` and the requested count:
a fault, or the reply that is sent. -/
def wifiListReply (mem : Bytes) (scan : ScanResult) (cnt : Int32) : Option Bytes :=
  (PrintBuf.print ⟨mem, 0⟩ replyHead).bind fun b =>
    (apGetWifiList scan (bufferSize - b.offset) (UInt16.ofInt cnt.toInt) b).bind fun b =>
      (PrintBuf.print ⟨b.mem, (cString b.mem).length⟩ [0x7d]).map fun b => cString b.mem

/-! ### What the reply ought to be -/

def listSize : Nat := bufferSize - replyHead.length

def apsText : List ApIf → Bytes
  | [] => []
  | ap :: aps => apText ap ++ aps.flatMap fun ap => 0x2c :: apText ap

def openList (aps : List ApIf) : Bytes := listHead ++ apsText aps

def SpaceOut (aps : List ApIf) : Prop := listSize < (openList aps).length + 64

instance : DecidablePred SpaceOut := fun _ => inferInstanceAs (Decidable (_ < _))

def replyText (aps : List ApIf) : Bytes := replyHead ++ openList aps ++ [0x5d, 0x7d] ++ [0x7d]

def apJson (ap : ApIf) : Json :=
  .object [(asciiBytes ['s', 's', 'i', 'd'], .string ap.ssid),
    (asciiBytes ['r', 's', 's', 'i'], .number ap.rssi.toInt 0),
    (asciiBytes ['s', 'e', 'c'], .number ap.security.toNat 0)]

def replyJson (aps : List ApIf) : Json :=
  .object [(asciiBytes ['r', 'e', 'q', 'T', 'y', 'p', 'e'],
      .string (asciiBytes ['w', 'i', 'f', 'i', '_', 'l', 'i', 's', 't', '_', 'r', 'p', 't'])),
    (asciiBytes ['d', 'a', 't', 'a'],
      .object [(asciiBytes ['w', 'i', 'f', 'i', '_', 'l', 'i', 's', 't'],
        .array (aps.map apJson))])]

/-- The access points with names, among the first `n` of a scan. -/
def named (scan : ScanResult) (n : Nat) : List ApIf :=
  if scan.1 ≠ oprtOk then [] else (scan.2.take n).filter fun ap => ap.ssid ≠ []

def wanted (scan : ScanResult) (cnt : Int32) : List ApIf := named scan cnt.toInt.toNat

/-- The access points with names, among as many as the function looks at. -/
def lookedAt (scan : ScanResult) (cnt : Int32) : List ApIf :=
  named scan (UInt16.ofInt cnt.toInt).toNat

/-- The reply stays in the buffer. It is the JSON text of a list of the access points with names in
their order, until there is no space. -/
def ReplyOk (scan : ScanResult) (cnt : Int32) : Prop :=
  ∀ mem : Bytes, mem.length = bufferSize →
    ∃ text aps, wifiListReply mem scan cnt = some text ∧
      Json.parseText true text = some (replyJson aps) ∧
      aps <+: wanted scan cnt ∧ (aps = wanted scan cnt ∨ SpaceOut aps)

/-- The condition on a scan. An access point with a name for which 64 bytes are free leaves room for
the closing brackets and the terminator, and its name has no quote, no backslash and no control
character; and the count, as a 16-bit number, says the same, or there is no space either way. -/
structure ReplyCond (scan : ScanResult) (cnt : Int32) : Prop where
  fits : ∀ pre ap, pre ++ [ap] <+: lookedAt scan cnt → ¬ SpaceOut pre →
    (openList (pre ++ [ap])).length + 4 ≤ listSize
  plain : ∀ pre ap, pre ++ [ap] <+: lookedAt scan cnt → ¬ SpaceOut pre →
    ∀ c ∈ ap.ssid, Json.Plain true c
  count : lookedAt scan cnt = wanted scan cnt ∨
    (SpaceOut (lookedAt scan cnt) ∧ SpaceOut (wanted scan cnt))

/-! ### The text -/

section Text

variable {aps : List ApIf} {ap : ApIf}

theorem apsText_concat (aps : List ApIf) (ap : ApIf) :
    apsText (aps ++ [ap]) = apsText aps ++ (if aps = [] then [] else [0x2c]) ++ apText ap := by
  cases aps with
  | nil => simp [apsText]
  | cons a aps => simp [apsText]

theorem openList_concat (aps : List ApIf) (ap : ApIf) :
    openList (aps ++ [ap]) = openList aps ++ (if aps = [] then [] else [0x2c]) ++ apText ap := by
  rw [openList, apsText_concat, openList, List.append_assoc, List.append_assoc, List.append_assoc]

theorem openList_isPrefix {x y : List ApIf} (h : x <+: y) : openList x <+: openList y := by
  obtain ⟨t, rfl⟩ := h
  refine (List.prefix_append_right_inj _).mpr ?_
  cases x with
  | nil => exact List.nil_prefix
  | cons a x =>
    rw [List.cons_append, apsText, apsText, List.flatMap_append, ← List.append_assoc]
    exact List.prefix_append _ _

theorem spaceOut_mono (x y : List ApIf) (h : x <+: y) (hx : SpaceOut x) : SpaceOut y :=
  Nat.lt_of_lt_of_le hx (Nat.add_le_add_right (openList_isPrefix h).length_le 64)

theorem zero_notMem_intText (v : ℤ) : 0 ∉ Json.intText v := by
  rw [Json.intText]
  split_ifs
  · simpa using zero_notMem_decimal v.natAbs
  · exact zero_notMem_decimal v.natAbs

theorem zero_notMem_apText (ap : ApIf) : 0 ∉ apText ap := by
  have hnames : 0 ∉ nameText ['s', 's', 'i', 'd'] ∧ 0 ∉ nameText ['r', 's', 's', 'i'] ∧
      0 ∉ nameText ['s', 'e', 'c'] := by decide
  simp [apText, hnames, ap.zero_notMem, zero_notMem_intText]

theorem zero_notMem_openList (aps : List ApIf) : 0 ∉ openList aps := by
  have hhead : 0 ∉ listHead := by decide
  cases aps with
  | nil => simp [openList, apsText, hhead]
  | cons ap aps => simp [openList, apsText, hhead, zero_notMem_apText]

end Text

/-! ### The run -/

section Run

variable {b : PrintBuf} {size : Nat} {head : Bytes}

/-- **The loop.** It prints access points as long as there is space. -/
theorem wifiListLoop_prints (aps done : List ApIf) (h : b.Holds size (head ++ openList done)) :
    PrintBuf.Prints (wifiListLoop head.length listSize aps (decide (done = [])) b) size
      (head ++ openList (fillFrom SpaceOut done (aps.filter fun ap => ap.ssid ≠ []))) := by
  induction aps generalizing b done with
  | nil => exact h.prints
  | cons ap aps ih =>
    rw [wifiListLoop]
    by_cases hssid : ap.ssid = []
    · rw [if_pos hssid, List.filter_cons_of_neg (by simpa using hssid)]
      exact ih done h
    · rw [if_neg hssid, List.filter_cons_of_pos (by simpa using hssid), fillFrom]
      have hoff : b.offset - head.length = (openList done).length := by
        rw [h.offset, List.length_append, Nat.add_sub_cancel_left]
      have hspace : listSize < b.offset - head.length + 64 ↔ SpaceOut done := by
        rw [hoff]
        exact Iff.rfl
      by_cases hout : SpaceOut done
      · rw [if_pos (hspace.mpr hout), if_pos hout]
        exact h.prints
      · rw [if_neg (hspace.not.mpr hout), if_neg hout]
        have hcomma : PrintBuf.Prints (if decide (done = []) = true then some b else b.print [0x2c])
            size (head ++ openList done ++ if done = [] then [] else [0x2c]) := by
          by_cases hnil : done = []
          · rw [if_pos (decide_eq_true hnil), if_pos hnil, List.append_nil]
            exact h.prints
          · rw [if_neg (by simpa using hnil), if_neg hnil]
            exact h.prints_print _
        have hap := hcomma.print (apText ap)
        have htext : head ++ openList done ++ (if done = [] then [] else [0x2c]) ++ apText ap =
            head ++ openList (done ++ [ap]) := by
          rw [openList_concat, List.append_assoc, List.append_assoc, List.append_assoc]
        rw [htext] at hap
        rw [← Option.bind_assoc]
        refine hap.bind ?_ fun b' hb' => ?_
        · have hle := (openList_isPrefix (prefix_fillFrom SpaceOut (done ++ [ap])
            (aps.filter fun ap => ap.ssid ≠ []))).length_le
          rw [List.length_append, List.length_append]
          omega
        · have hrest := ih (done ++ [ap]) hb'
          rwa [decide_eq_false (by simp)] at hrest

def listed (scan : ScanResult) (cnt : Int32) : List ApIf := fill SpaceOut (lookedAt scan cnt)

theorem exists_apGetWifiList_eq (scan : ScanResult) (cnt : Int32) (h : b.Holds size replyHead) :
    ∃ o text s,
      apGetWifiList scan (bufferSize - b.offset) (UInt16.ofInt cnt.toInt) b =
        o.bind (fun b => PrintBuf.print b s) ∧
      PrintBuf.Prints o size text ∧
      text ++ s = replyHead ++ openList (listed scan cnt) ++ [0x5d, 0x7d] := by
  have hsize : bufferSize - b.offset = listSize := by rw [h.offset]; rfl
  rw [apGetWifiList, hsize]
  split_ifs with hnone
  · have hlisted : listed scan cnt = [] := by
      rw [listed, lookedAt, named]
      rcases hnone with hret | hnil
      · rw [if_pos hret]
        rfl
      · rw [hnil, List.take_nil]
        split_ifs <;> rfl
    refine ⟨some b, _, _, rfl, h.prints, ?_⟩
    rw [hlisted]
    rfl
  · have hret : scan.1 = oprtOk := not_not.mp fun hne => hnone (.inl hne)
    have htake : scan.2.take (min (UInt16.ofInt cnt.toInt).toNat scan.2.length) =
        scan.2.take (UInt16.ofInt cnt.toInt).toNat := by
      rw [List.take_eq_take_iff, Nat.min_assoc, Nat.min_self]
    have hlisted : listed scan cnt =
        fillFrom SpaceOut [] ((scan.2.take (UInt16.ofInt cnt.toInt).toNat).filter
          fun ap => ap.ssid ≠ []) := by
      rw [listed, lookedAt, named, if_neg (not_not.mpr hret)]
      rfl
    rw [htake, hlisted, h.offset, ← Option.bind_assoc]
    have hhead : replyHead ++ listHead = replyHead ++ openList [] := by
      rw [openList, apsText, List.append_nil]
    have hopen := h.prints_print listHead
    rw [hhead] at hopen
    refine ⟨_, _, _, rfl, hopen.bind ?_ fun b' hb' => wifiListLoop_prints _ [] hb', rfl⟩
    have hle := (openList_isPrefix (List.nil_prefix (l := fillFrom SpaceOut []
      ((scan.2.take (UInt16.ofInt cnt.toInt).toNat).filter fun ap => ap.ssid ≠ [])))).length_le
    rw [List.length_append, List.length_append]
    omega

/-- **The reply.** A text that fits with its terminator is sent. -/
theorem wifiListReply_eq {mem : Bytes} (hmem : mem.length = bufferSize) (scan : ScanResult)
    (cnt : Int32) :
    wifiListReply mem scan cnt =
      if (replyText (listed scan cnt)).length + 1 ≤ bufferSize then
        some (replyText (listed scan cnt))
      else none := by
  set text := replyHead ++ openList (listed scan cnt) ++ [0x5d, 0x7d] with htext
  have hreply : replyText (listed scan cnt) = text ++ [0x7d] := rfl
  have hzero : 0 ∉ text ++ [0x7d] := by
    have hhead : 0 ∉ replyHead := by decide
    simp [htext, hhead, zero_notMem_openList]
  rw [wifiListReply, ← Option.bind_assoc, hreply]
  have hstart := (PrintBuf.Holds.init hmem).prints_print replyHead
  rw [List.nil_append] at hstart
  set o := (PrintBuf.print ⟨mem, 0⟩ replyHead).bind fun b =>
    apGetWifiList scan (bufferSize - b.offset) (UInt16.ofInt cnt.toInt) b with ho
  have hprints : PrintBuf.Prints o bufferSize text := by
    refine hstart.bind ?_ fun b hb => ?_
    · rw [htext, List.append_assoc, List.length_append]
      exact Nat.le_add_right _ _
    · obtain ⟨o', text', s, heq, ho', hs⟩ := exists_apGetWifiList_eq scan cnt hb
      rw [heq, htext, ← hs]
      exact ho'.print s
  have hstring : ∀ b, o = some b → cString b.mem = text := by
    intro b hb
    obtain ⟨b₀, hb₀, hb⟩ := Option.bind_eq_some_iff.mp hb
    obtain ⟨o', text', s, heq, ho', hs⟩ :=
      exists_apGetWifiList_eq scan cnt (hstart.holds b₀ hb₀)
    rw [heq] at hb
    obtain ⟨b₁, hb₁, hb⟩ := Option.bind_eq_some_iff.mp hb
    have hcString := (ho'.holds b₁ hb₁).cString_of_print hb
    rw [hs] at hcString
    exact hcString fun hmem => hzero (List.mem_append_left _ hmem)
  cases hrun : o with
  | none =>
    rw [if_neg]
    · rfl
    · intro hfit
      rw [List.length_append] at hfit
      obtain ⟨b, hb, -⟩ := hprints.fits (by omega)
      rw [hrun] at hb
      cases hb
  | some b =>
    have hholds := hprints.holds b hrun
    have hoffset : (⟨b.mem, (cString b.mem).length⟩ : PrintBuf) = b := by
      rw [hstring b hrun, ← hholds.offset]
    rw [Option.bind_some, hoffset, List.length_append]
    split_ifs with hfit
    · obtain ⟨b', hb', -⟩ := hholds.print hfit
      rw [hb', Option.map_some, hholds.cString_of_print hb' hzero]
    · rw [hholds.print_eq_none (Nat.lt_of_not_le hfit)]
      rfl

end Run

end TuyaOpen.Netcfg
