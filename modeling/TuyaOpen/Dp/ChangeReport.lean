import TuyaOpen.Dp.NodeRun

/-!
# The report of a changed value

A report of one entry, with a value that is in the range that the schema gives, that is not the
cached one, and whose data point may be reported. The cache takes it and it is noted, unless it is a
bitmap, which `dp_type_check` compares with a type of `cJSON`, or there is no memory for it.
-/

namespace TuyaOpen.Dp

/-- A value is in the range of a property: the bounds of a number, the length of a string, the names
of an enumeration, the bits of a bitmap. -/
def InSchemaRange (value : DpValue) (prop : DpProp) : Prop :=
  match value, prop with
  | .bool _, .bool _ => True
  | .value v, .int min max _ => min ≤ v ∧ v ≤ max
  | .str s, .str maxLen _ _ => (s.length : Int) ≤ maxLen.toInt
  | .enum e, .enum ppEnum _ => e.toNat < ppEnum.length
  | .bitmap m, .bitmap maxLen _ => m.toNat < 2 ^ maxLen.toNat
  | _, _ => False

/-- The entry has a new value for a data point that may be reported. -/
structure NewValue (schema : DpSchema) (dp : DpObj) (node : DpNode) : Prop where
  find : dpNodeFind schema.nodes dp.id = some node
  reportable : Reportable schema.preprocess node
  range : InSchemaRange dp.value node.prop
  differs : node.prop.cached ≠ some dp.value

/-- A descriptor without identifiers, and with room for one. -/
structure FreshValid (valid : DpReptValid) : Prop where
  num : valid.num = 0
  room : 0 < valid.dpid.length

def checkOne (schema : DpSchema) (reptType : ReptType) (flags : UInt32) (malloc : Nat → Bool)
    (dp : DpObj) (valid : DpReptValid) : OperateRet × List DpNode × DpReptValid :=
  dpReptValidCheck schema malloc { reptType, flags, dpscnt := 1, dps := [dp] } valid

/-- The value is cached and marked as not uploaded, and its identifier is noted. -/
def ReportsChange (schema : DpSchema) (reptType : ReptType) (flags : UInt32) (malloc : Nat → Bool)
    (dp : DpObj) (valid : DpReptValid) : Prop :=
  let r := checkOne schema reptType flags malloc dp valid
  (∃ node, dpNodeFind r.2.1 dp.id = some node ∧ node.prop.cached = some dp.value ∧
    node.pvStat = .statLocal) ∧ dp.id ∈ r.2.2.ids

/-- The report is one of objects or of statistics, the property is no bitmap, and there is memory
for the value. -/
def ChangeCond (reptType : ReptType) (malloc : Bool) (value : DpValue) (prop : DpProp) : Prop :=
  (reptType = .obj ∨ reptType = .stat) ∧ prop.propTp ≠ .bitmap ∧ CanStore malloc value prop

section Update

variable {new : DpValue} {prop : DpProp}

theorem InSchemaRange.type (h : InSchemaRange new prop) : new.type = some prop.propTp := by
  cases new with
  | bool b => cases prop with
    | bool old => rfl
    | _ => cases h
  | value v => cases prop with
    | int min max old => rfl
    | _ => cases h
  | str s => cases prop with
    | str maxLen curLen old => rfl
    | _ => cases h
  | enum e => cases prop with
    | enum ppEnum old => rfl
    | _ => cases h
  | bitmap m => cases prop with
    | bitmap maxLen old => rfl
    | _ => cases h
  | other type => cases h

theorem InSchemaRange.check_iff (h : InSchemaRange new prop) :
    dpValueCheck new prop = true ↔ prop.propTp ≠ .bitmap := by
  cases new with
  | bool b => cases prop with
    | bool old => simp [dpValueCheck, DpProp.propTp]
    | _ => cases h
  | value v => cases prop with
    | int min max old =>
      have hmax : ¬(max < v ∨ v < min) := fun hor =>
        hor.elim (fun hlt => absurd h.2 (Int32.not_le.2 hlt))
          fun hlt => absurd h.1 (Int32.not_le.2 hlt)
      simp [dpValueCheck, DpProp.propTp, hmax]
    | _ => cases h
  | str s => cases prop with
    | str maxLen curLen old =>
      have hle : (s.length : Int) ≤ maxLen.toInt := h
      have hfit : ¬(0 ≤ maxLen.toInt ∧ maxLen.toInt < s.length) := fun hlt => by omega
      simp [dpValueCheck, DpProp.propTp, hfit]
    | _ => cases h
  | enum e => cases prop with
    | enum ppEnum old =>
      have hlt : e.toNat < ppEnum.length := h
      simp [dpValueCheck, DpProp.propTp, hlt]
    | _ => cases h
  | bitmap m => cases prop with
    | bitmap maxLen old => simp [dpValueCheck, DpProp.propTp]
    | _ => cases h
  | other type => cases h

end Update

section Report

variable {schema : DpSchema} {reptType : ReptType} {flags : UInt32} {malloc : Nat → Bool}
  {dp : DpObj} {valid : DpReptValid} {node : DpNode}

theorem FreshValid.ids_note (h : FreshValid valid) (dp : DpObj) (n : Nat) :
    (valid.note dp n).ids = [dp.id] := by
  have hroom := h.room
  rw [DpReptValid.ids, DpReptValid.note, h.num]
  cases hdpid : valid.dpid with
  | nil =>
    rw [hdpid] at hroom
    cases hroom
  | cons id dpid => rfl

theorem checkOne_nodes (schema : DpSchema) (reptType : ReptType) (flags : UInt32)
    (malloc : Nat → Bool) (dp : DpObj) (valid : DpReptValid) :
    (checkOne schema reptType flags malloc dp valid).2.1 =
      (checkEntry schema.preprocess reptType flags (malloc 0) schema.nodes dp).2 := by
  have hloop : (checkOne schema reptType flags malloc dp valid).2.1 =
      (checkLoop schema.preprocess reptType flags malloc 0 [dp] schema.nodes).2.1 := by
    rw [checkOne, dpReptValidCheck]
    dsimp only
    split_ifs <;> rfl
  rw [hloop, checkLoop]
  cases hentry : checkEntry schema.preprocess reptType flags (malloc 0) schema.nodes dp with
  | mk fate nodes =>
    cases fate <;> rfl

theorem FreshValid.ids_checkOne (h : FreshValid valid) {n : Nat}
    (hentry : (checkEntry schema.preprocess reptType flags (malloc 0) schema.nodes dp).1 =
      .note n) :
    (checkOne schema reptType flags malloc dp valid).2.2.ids = [dp.id] := by
  have hloop : (checkOne schema reptType flags malloc dp valid).2.2 =
      (checkLoop schema.preprocess reptType flags malloc 0 [dp] schema.nodes).2.2.foldl
        (fun v e => v.note e.1 e.2) valid := by
    rw [checkOne, dpReptValidCheck]
    dsimp only
    split_ifs <;> rfl
  rw [hloop, checkLoop]
  cases heq : checkEntry schema.preprocess reptType flags (malloc 0) schema.nodes dp with
  | mk fate nodes =>
    rw [heq] at hentry
    dsimp only at hentry
    rw [hentry]
    exact h.ids_note dp n

theorem dpTypeCheck_eq (h : Reportable schema.preprocess node)
    (hrept : reptType = .obj ∨ reptType = .stat) (dp : DpObj) :
    dpTypeCheck reptType dp node = dpValueCheck dp.value node.prop := by
  obtain ⟨hmode, hobj, -⟩ := h
  rw [dpTypeCheck, hobj]
  rcases hrept with rfl | rfl
  · rw [if_neg (by simp [hmode])]
  · rw [if_neg (by simp [hmode])]

theorem NewValue.checkEntry_eq (h : NewValue schema dp node)
    (hrept : reptType = .obj ∨ reptType = .stat) (hbitmap : node.prop.propTp ≠ .bitmap)
    (malloc : Bool) :
    checkEntry schema.preprocess reptType flags malloc schema.nodes dp =
      let r := dpReptUpdate reptType flags malloc dp node
      let nodes := dpNodeSet schema.nodes dp.id fun _ => r.2
      if r.1 then (.skip, nodes) else (noteFate dp.value r.2.prop, nodes) := by
  have hcheck := h.range.check_iff.2 hbitmap
  have htrans : reptType ≠ .reTrans := by rcases hrept with rfl | rfl <;> decide
  rw [checkEntry, h.find]
  dsimp only
  rw [if_neg (not_not_intro h.range.type), if_neg htrans, dpTypeCheck_eq h.reportable hrept, hcheck,
    if_neg (by decide), if_neg h.reportable.2.2]

theorem NewValue.nodes_checkEntry (h : NewValue schema dp node)
    (hcond : ¬((reptType = .obj ∨ reptType = .stat) ∧ node.prop.propTp ≠ .bitmap))
    (malloc : Bool) :
    (checkEntry schema.preprocess reptType flags malloc schema.nodes dp).2 = schema.nodes := by
  rw [checkEntry, h.find]
  dsimp only
  rw [if_neg (not_not_intro h.range.type)]
  by_cases htrans : reptType = .reTrans
  · rw [if_pos htrans]
  have hfail : dpTypeCheck reptType dp node = false := by
    by_cases hrept : reptType = .obj ∨ reptType = .stat
    · rw [dpTypeCheck_eq h.reportable hrept, ← Bool.not_eq_true, h.range.check_iff]
      exact fun hbitmap => hcond ⟨hrept, hbitmap⟩
    · have hraw : reptType = .raw := by
        cases reptType with
        | raw => rfl
        | obj => exact absurd (Or.inl rfl) hrept
        | stat => exact absurd (Or.inr rfl) hrept
        | reTrans => exact absurd rfl htrans
      have hobj : node.desc.type ≠ .raw := by
        rw [h.reportable.2.1]
        decide
      rw [dpTypeCheck, if_pos (Or.inr (Or.inr ⟨hobj, hraw⟩))]
  rw [if_neg htrans, if_pos hfail]

/-- **The node after a new value.** It has the value and is marked, or it has lost its string. -/
theorem exists_dpReptUpdate (hobj : node.desc.type = .obj)
    (hcheck : dpValueCheck dp.value node.prop = true)
    (htype : dp.value.type = some node.prop.propTp) (hdiffers : node.prop.cached ≠ some dp.value)
    (malloc : Bool) :
    ∃ skip node', dpReptUpdate reptType flags malloc dp node = (skip, node') ∧
      SameFrame node node' ∧
      ((CanStore malloc dp.value node.prop ∧ skip = false ∧ node'.prop.cached = some dp.value ∧
          node'.pvStat = .statLocal) ∨
        (¬CanStore malloc dp.value node.prop ∧ skip = true ∧ node'.prop.cached = none)) := by
  have hfits : FitsNode dp node := by
    refine ⟨htype, fun hfile => ?_, fun _ => hcheck⟩
    rw [hobj] at hfile
    cases hfile
  obtain ⟨hstore, node', hupdate, hstored⟩ | ⟨hstore, node', hupdate, hlost⟩ :=
    @dpReptUpdate_of_needed reptType flags malloc dp node hobj hfits (Or.inr hdiffers)
  · exact ⟨false, node', hupdate, sameFrame_of_kind hstored.kind,
      Or.inl ⟨hstore, rfl, hstored.cached, hstored.pvStat⟩⟩
  · exact ⟨true, node', hupdate, sameFrame_of_kind hlost.kind, Or.inr ⟨hstore, rfl, hlost.cached⟩⟩

/-- A new value is reported if and only if the report is one of objects or of statistics, the
property is no bitmap, and there is memory for the value. -/
theorem reportsChange_iff (h : NewValue schema dp node) (hvalid : FreshValid valid)
    (reptType : ReptType) (flags : UInt32) (malloc : Nat → Bool) :
    ReportsChange schema reptType flags malloc dp valid ↔
      ChangeCond reptType (malloc 0) dp.value node.prop := by
  rw [ReportsChange, ChangeCond, checkOne_nodes]
  by_cases hcond : (reptType = .obj ∨ reptType = .stat) ∧ node.prop.propTp ≠ .bitmap
  · obtain ⟨hrept, hbitmap⟩ := hcond
    have hcheck := h.range.check_iff.2 hbitmap
    have hentry := @NewValue.checkEntry_eq _ _ flags _ _ h hrept hbitmap (malloc 0)
    obtain ⟨skip, node', hupdate, hframe, hcases⟩ :=
      @exists_dpReptUpdate reptType flags _ _ h.reportable.2.1 hcheck h.range.type h.differs
        (malloc 0)
    have hfound := hframe.dpNodeFind_dpNodeSet h.find dp.id
    rw [if_pos rfl] at hfound
    rw [hupdate] at hentry
    rcases hcases with ⟨hstore, rfl, hcached, hlocal⟩ | ⟨hstore, rfl, hcached⟩
    · obtain ⟨n, hn⟩ := exists_noteFate (hframe.check dp.value) hcheck h.range.type
      dsimp only at hentry
      rw [if_neg Bool.false_ne_true, hn] at hentry
      refine iff_of_true ⟨⟨node', ?_, hcached, hlocal⟩, ?_⟩ ⟨hrept, hbitmap, hstore⟩
      · rw [hentry, hfound]
      · rw [hvalid.ids_checkOne (congrArg Prod.fst hentry)]
        exact List.mem_singleton_self dp.id
    · dsimp only at hentry
      rw [if_pos rfl] at hentry
      refine iff_of_false ?_ fun hall => hstore hall.2.2
      rintro ⟨⟨node'', hfind, hcached', -⟩, -⟩
      rw [hentry, hfound] at hfind
      obtain rfl := Option.some.inj hfind
      rw [hcached] at hcached'
      cases hcached'
  · refine iff_of_false ?_ fun hall => hcond ⟨hall.1, hall.2.1⟩
    rintro ⟨⟨node', hfind, hcached, -⟩, -⟩
    rw [h.nodes_checkEntry hcond, h.find] at hfind
    obtain rfl := Option.some.inj hfind
    exact h.differs hcached

end Report

/-- The switch that has not been reported is on. -/
theorem reportsChange_switchOn :
    ReportsChange switchSchema .obj 0 (fun _ => false) switchOn ⟨0, 0, 0, [0], []⟩ := by
  have hnew : NewValue switchSchema switchOn switchNode :=
    ⟨rfl, ⟨by decide, rfl, by decide⟩, trivial, by decide⟩
  exact (reportsChange_iff hnew ⟨rfl, by decide⟩ .obj 0 fun _ => false).2
    ⟨Or.inl rfl, by decide, trivial⟩

def faultNode : DpNode where
  desc := { id := 9, mode := .ro, passive := .psvFalse, type := .obj, trig := .pulse }
  prop := .bitmap 8 0
  pvStat := .statCloud
  timeStamp := 0

def faultSet : DpObj := { id := 9, value := .bitmap 1, timeStamp := 0 }

/-- A new value of a bitmap is not reported. -/
theorem not_reportsChange_faultSet :
    NewValue ⟨[], false, [faultNode]⟩ faultSet faultNode ∧
      ¬ReportsChange ⟨[], false, [faultNode]⟩ .obj 0 (fun _ => true) faultSet
        ⟨0, 0, 0, [0], []⟩ := by
  have hrange : InSchemaRange faultSet.value faultNode.prop := by
    rw [faultSet, faultNode, InSchemaRange]
    decide
  refine ⟨⟨rfl, ⟨by decide, rfl, by decide⟩, hrange, by decide⟩, ?_⟩
  rintro ⟨-, hids⟩
  exact absurd hids (by decide)

end TuyaOpen.Dp
