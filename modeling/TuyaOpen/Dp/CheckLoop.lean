import TuyaOpen.Dp.Report

/-!
# The check of any report

What `dp_rept_valid_check` does in reports of all types: the nodes keep their kinds, every entry
that has been looked at has the type of its node, and the zeroed descriptor holds the entries that
are noted.

## Main results

* `sameKinds_checkEntry`: a turn of the check keeps the kinds of the nodes.
* `checkLoop_noted`: the entries that are noted.
* `dpReptValidCheck_of_zeroValid`: when a report is accepted, and its descriptor.
-/

namespace TuyaOpen.Dp

/-! ### The kinds of the nodes -/

def DpProp.names : DpProp → List Bytes
  | .enum ppEnum _ => ppEnum
  | _ => []

/-- What no report changes in a node: the description, the type of the property, the names, and
which values fit. -/
structure DpKind where
  desc : DpDesc
  propTp : PropTp
  names : List Bytes
  check : DpValue → Bool

def DpNode.kind (node : DpNode) : DpKind where
  desc := node.desc
  propTp := node.prop.propTp
  names := node.prop.names
  check value := dpValueCheck value node.prop

def SameKinds (nodes nodes' : List DpNode) : Prop :=
  ∀ id, (dpNodeFind nodes' id).map DpNode.kind = (dpNodeFind nodes id).map DpNode.kind

section Kind

variable {node node' : DpNode} {nodes nodes' nodes'' : List DpNode}

theorem desc_eq_of_kind (h : node'.kind = node.kind) : node'.desc = node.desc :=
  congrArg DpKind.desc h

theorem propTp_eq_of_kind (h : node'.kind = node.kind) : node'.prop.propTp = node.prop.propTp :=
  congrArg DpKind.propTp h

theorem names_eq_of_kind (h : node'.kind = node.kind) : node'.prop.names = node.prop.names :=
  congrArg DpKind.names h

theorem check_eq_of_kind (h : node'.kind = node.kind) (value : DpValue) :
    dpValueCheck value node'.prop = dpValueCheck value node.prop :=
  congrFun (congrArg DpKind.check h) value

theorem sameFrame_of_kind (h : node'.kind = node.kind) : SameFrame node node' :=
  ⟨desc_eq_of_kind h, propTp_eq_of_kind h, check_eq_of_kind h⟩

theorem SameKinds.trans (h : SameKinds nodes nodes') (h' : SameKinds nodes' nodes'') :
    SameKinds nodes nodes'' := fun id => (h' id).trans (h id)

theorem SameKinds.exists_of_some (h : SameKinds nodes nodes') {id : UInt8}
    (hfind : dpNodeFind nodes' id = some node') :
    ∃ node, dpNodeFind nodes id = some node ∧ node'.kind = node.kind := by
  have hkind := h id
  rw [hfind, Option.map_some, eq_comm, Option.map_eq_some_iff] at hkind
  obtain ⟨node, hnode, heq⟩ := hkind
  exact ⟨node, hnode, heq.symm⟩

theorem SameKinds.some (h : SameKinds nodes nodes') {id : UInt8}
    (hfind : dpNodeFind nodes id = .some node) :
    ∃ node', dpNodeFind nodes' id = .some node' ∧ node'.kind = node.kind := by
  have hkind := h id
  rw [hfind, Option.map_some, Option.map_eq_some_iff] at hkind
  exact hkind

theorem updateProp_names (need malloc : Bool) (new : DpValue) (prop : DpProp) :
    (updateProp need malloc new prop).2.names = prop.names := by
  unfold updateProp
  split <;> dsimp only
  all_goals
    split_ifs <;> rfl

theorem kind_dpReptUpdate (reptType : ReptType) (flags : UInt32) (malloc : Bool) (dp : DpObj)
    (node : DpNode) : (dpReptUpdate reptType flags malloc dp node).2.kind = node.kind := by
  obtain ⟨hprop, hcheck⟩ :=
    updateProp_limits (isNeedUpdate reptType flags node) malloc dp.value node.prop
  have hnames := updateProp_names (isNeedUpdate reptType flags node) malloc dp.value node.prop
  have hcheck' := funext hcheck
  rw [dpReptUpdate]
  split
  · dsimp only
    split
    · rw [markLocal, DpNode.kind, DpNode.kind, hprop, hnames, hcheck']
    · rw [DpNode.kind, DpNode.kind, hprop, hnames, hcheck']
  · rfl
  · rfl

theorem eq_of_kind {α : Type} {F : DpProp → α} (h : node'.kind = node.kind)
    (henum : ∀ ppEnum old old', F (.enum ppEnum old) = F (.enum ppEnum old'))
    (hother : ∀ prop prop', prop.propTp ≠ .enum → prop'.propTp = prop.propTp → F prop' = F prop) :
    F node'.prop = F node.prop := by
  have htype := propTp_eq_of_kind h
  have hnames := names_eq_of_kind h
  by_cases hisEnum : node.prop.propTp = .enum
  · rw [hisEnum] at htype
    cases hprop : node.prop with
    | enum ppEnum old =>
      cases hprop' : node'.prop with
      | enum ppEnum' old' =>
        rw [hprop, hprop'] at hnames
        obtain rfl : ppEnum' = ppEnum := hnames
        exact henum _ _ _
      | _ =>
        rw [hprop'] at htype
        cases htype
    | _ =>
      rw [hprop] at hisEnum
      cases hisEnum
  · exact hother _ _ hisEnum htype

theorem recordLen_congr (h : node'.kind = node.kind) (value : DpValue) :
    recordLen value node'.prop = recordLen value node.prop := by
  refine eq_of_kind h (fun ppEnum old old' => by cases value <;> rfl) fun prop prop' hne heq => ?_
  cases value with
  | enum e =>
    cases prop with
    | enum ppEnum old => exact absurd rfl hne
    | _ =>
      cases prop' with
      | enum ppEnum old => cases heq
      | _ => rfl
  | _ => rfl

end Kind

section Check

variable {preprocess : Bool} {reptType : ReptType} {flags : UInt32} {malloc : Bool}
  {nodes : List DpNode} {dp : DpObj}

theorem sameKinds_checkEntry (preprocess : Bool) (reptType : ReptType) (flags : UInt32)
    (malloc : Bool) (nodes : List DpNode) (dp : DpObj) :
    SameKinds nodes (checkEntry preprocess reptType flags malloc nodes dp).2 := by
  intro id
  rw [checkEntry]
  cases hfind : dpNodeFind nodes dp.id with
  | none => rfl
  | some node =>
    have hkind := kind_dpReptUpdate reptType flags malloc dp node
    have hid : (dpReptUpdate reptType flags malloc dp node).2.desc.id = dp.id := by
      rw [desc_eq_of_kind hkind]
      exact id_of_dpNodeFind hfind
    have hset : (dpNodeFind (dpNodeSet nodes dp.id fun _ =>
        (dpReptUpdate reptType flags malloc dp node).2) id).map DpNode.kind =
        (dpNodeFind nodes id).map DpNode.kind := by
      rw [dpNodeFind_dpNodeSet fun _ _ => hid]
      by_cases heq : id = dp.id
      · rw [if_pos heq, heq, hfind, Option.map_some, Option.map_some, Option.map_some, hkind]
      · rw [if_neg heq]
    dsimp only
    split_ifs
    · rfl
    · rfl
    · rfl
    · rfl
    · exact hset
    · exact hset

theorem recordLen_of_noteFate {value : DpValue} {prop : DpProp} {n : Nat}
    (h : noteFate value prop = .note n) : recordLen value prop = .ok n := by
  rw [noteFate] at h
  split at h
  · next m hm => rw [hm, EntryFate.note.inj h]
  · cases h

theorem checkEntry_of_not_fail
    (h : ∀ rt, (checkEntry preprocess reptType flags malloc nodes dp).1 ≠ .fail rt) :
    (∀ node, dpNodeFind nodes dp.id = some node → dp.value.type = some node.prop.propTp) ∧
      ∀ n, (checkEntry preprocess reptType flags malloc nodes dp).1 = .note n →
        ∃ node, dpNodeFind nodes dp.id = some node ∧ recordLen dp.value node.prop = .ok n := by
  rw [checkEntry] at h ⊢
  cases hfind : dpNodeFind nodes dp.id with
  | none => exact ⟨fun node hnode => (by cases hnode), fun n hn => (by cases hn)⟩
  | some node =>
    have hkind := kind_dpReptUpdate reptType flags malloc dp node
    rw [hfind] at h
    dsimp only at h ⊢
    by_cases htype : dp.value.type = some node.prop.propTp
    · rw [if_neg (not_not_intro htype)]
      refine ⟨fun node' hnode' => by rwa [← Option.some.inj hnode'], fun n hn => ?_⟩
      refine ⟨node, rfl, ?_⟩
      split_ifs at hn
      · exact recordLen_of_noteFate hn
      · rw [← recordLen_congr hkind]
        exact recordLen_of_noteFate hn
    · rw [if_pos htype] at h
      exact absurd rfl (h oprtSvcDpTpNotMatch)

end Check

/-- **The entries that are noted** in a report whose check succeeds: entries of the report, with
nodes; and every entry with a node has its type. -/
theorem checkLoop_noted {preprocess : Bool} {reptType : ReptType} {flags : UInt32}
    {malloc : Nat → Bool} {i : Nat} {dps : List DpObj} {nodes : List DpNode}
    (h : (checkLoop preprocess reptType flags malloc i dps nodes).1 = oprtOk) :
    let r := checkLoop preprocess reptType flags malloc i dps nodes
    SameKinds nodes r.2.1 ∧
      (∀ dp ∈ dps, ∀ node, dpNodeFind nodes dp.id = some node →
        dp.value.type = some node.prop.propTp) ∧
      ∀ e ∈ r.2.2, e.1 ∈ dps ∧
        ∃ node, dpNodeFind nodes e.1.id = some node ∧ recordLen e.1.value node.prop = .ok e.2 := by
  dsimp only
  induction dps generalizing i nodes with
  | nil => exact ⟨fun _ => rfl, fun dp hdp => (by cases hdp), fun e he => (by cases he)⟩
  | cons dp dps ih =>
    have hkinds := sameKinds_checkEntry preprocess reptType flags (malloc i) nodes dp
    have hentry := @checkEntry_of_not_fail preprocess reptType flags (malloc i) nodes dp
    have hok := @checkEntry_ne_fail_ok preprocess reptType flags (malloc i) nodes dp
    rw [checkLoop] at h ⊢
    cases hfate : checkEntry preprocess reptType flags (malloc i) nodes dp with
    | mk fate nodes' =>
      rw [hfate] at h hkinds hentry hok
      dsimp only at hentry hkinds
      -- what holds with the nodes after this turn holds with those before it
      have hlater : (checkLoop preprocess reptType flags malloc (i + 1) dps nodes').1 = oprtOk →
          SameKinds nodes (checkLoop preprocess reptType flags malloc (i + 1) dps nodes').2.1 ∧
          (∀ dp' ∈ dps, ∀ node, dpNodeFind nodes dp'.id = some node →
            dp'.value.type = some node.prop.propTp) ∧
          ∀ e ∈ (checkLoop preprocess reptType flags malloc (i + 1) dps nodes').2.2, e.1 ∈ dps ∧
            ∃ node, dpNodeFind nodes e.1.id = some node ∧
              recordLen e.1.value node.prop = .ok e.2 := by
        intro hrest
        obtain ⟨hkinds', htypes, hnoted⟩ := ih hrest
        refine ⟨hkinds.trans hkinds', fun dp' hdp' node hnode => ?_, fun e he => ?_⟩
        · obtain ⟨node', hnode', hkind⟩ := hkinds.some hnode
          rw [htypes dp' hdp' node' hnode', propTp_eq_of_kind hkind]
        · obtain ⟨hmem, node', hnode', hlen⟩ := hnoted e he
          obtain ⟨node, hnode, hkind⟩ := hkinds.exists_of_some hnode'
          exact ⟨hmem, node, hnode, (recordLen_congr hkind _).symm.trans hlen⟩
      cases fate with
      | skip =>
        obtain ⟨htype, -⟩ := hentry fun rt heq => by cases heq
        obtain ⟨hkinds', htypes, hnoted⟩ := hlater h
        exact ⟨hkinds', List.forall_mem_cons.2 ⟨htype, htypes⟩,
          fun e he => ⟨List.mem_cons_of_mem _ (hnoted e he).1, (hnoted e he).2⟩⟩
      | fail rt =>
        have hrt : rt = oprtOk := h
        exact absurd (congrArg EntryFate.fail hrt) hok
      | note n =>
        obtain ⟨htype, hnote⟩ := hentry fun rt heq => by cases heq
        obtain ⟨hkinds', htypes, hnoted⟩ := hlater h
        refine ⟨hkinds', List.forall_mem_cons.2 ⟨htype, htypes⟩,
          List.forall_mem_cons.2 ⟨⟨List.mem_cons_self, hnote n rfl⟩, fun e he => ?_⟩⟩
        exact ⟨List.mem_cons_of_mem _ (hnoted e he).1, (hnoted e he).2⟩

/-! ### The descriptor -/

/-- The zeroed descriptor, with room for the identifiers of a report. -/
structure ZeroValid (valid : DpReptValid) (dpin : DpReptIn) : Prop where
  num : valid.num = 0
  len : valid.len = 0
  timelen : valid.timelen = 0
  room : dpin.entries.length ≤ valid.dpid.length

def timeRoom (noted : List (DpObj × Nat)) : Nat :=
  (noted.map fun e => if e.1.timeStamp = 0 then 0 else 30).sum

theorem timeRoom_cons (e : DpObj × Nat) (noted : List (DpObj × Nat)) :
    timeRoom (e :: noted) = (if e.1.timeStamp = 0 then 0 else 30) + timeRoom noted := rfl

theorem timeRoom_le (noted : List (DpObj × Nat)) : timeRoom noted ≤ 30 * noted.length := by
  induction noted with
  | nil => exact Nat.le_refl 0
  | cons e noted ih =>
    rw [timeRoom_cons, List.length_cons]
    split <;> omega

theorem foldl_note_len (noted : List (DpObj × Nat)) (valid : DpReptValid) :
    let v := noted.foldl (fun v e => v.note e.1 e.2) valid
    v.len.toNat = (valid.len.toNat + (noted.map Prod.snd).sum) % 65536 ∧
      v.timelen.toNat = (valid.timelen.toNat + timeRoom noted) % 65536 := by
  dsimp only
  induction noted generalizing valid with
  | nil => exact ⟨(Nat.mod_eq_of_lt valid.len.toNat_lt).symm,
      (Nat.mod_eq_of_lt valid.timelen.toNat_lt).symm⟩
  | cons e noted ih =>
    obtain ⟨hlen, htime⟩ := ih (valid.note e.1 e.2)
    have hlen' : (valid.note e.1 e.2).len.toNat = (valid.len.toNat + e.2) % 65536 :=
      UInt16.toNat_ofNat'
    have htime' : (valid.note e.1 e.2).timelen.toNat =
        (valid.timelen.toNat + if e.1.timeStamp = 0 then 0 else 30) % 65536 := by
      rw [DpReptValid.note]
      dsimp only
      split
      · exact (Nat.mod_eq_of_lt valid.timelen.toNat_lt).symm
      · exact UInt16.toNat_ofNat'
    rw [List.foldl_cons, hlen, htime, hlen', htime', List.map_cons, List.sum_cons, timeRoom_cons]
    omega

theorem num_foldl_note (noted : List (DpObj × Nat)) (valid : DpReptValid) :
    (noted.foldl (fun v e => v.note e.1 e.2) valid).num.toNat =
      (valid.num.toNat + noted.length) % 256 := by
  induction noted generalizing valid with
  | nil => exact (Nat.mod_eq_of_lt valid.num.toNat_lt).symm
  | cons e noted ih =>
    rw [List.foldl_cons, ih, DpReptValid.note, UInt8.toNat_add, UInt8.toNat_one, List.length_cons]
    omega

theorem length_noted_lt (preprocess : Bool) (malloc : Nat → Bool) (dpin : DpReptIn)
    (nodes : List DpNode) :
    let c := checkLoop preprocess dpin.reptType dpin.flags malloc 0 dpin.entries nodes
    c.2.2.length ≤ dpin.entries.length ∧ dpin.entries.length < 256 := by
  have hsub := @sublist_checkLoop preprocess dpin.reptType dpin.flags malloc 0 dpin.entries nodes
  have hle := hsub.length_le
  have hlt := dpin.dpscnt.toNat_lt
  rw [List.length_map] at hle
  refine ⟨hle, ?_⟩
  rw [DpReptIn.entries, List.length_take]
  omega

/-- **The check with an empty descriptor.** A report is accepted when no entry ends the check and
some are noted. -/
theorem dpReptValidCheck_ok_iff {schema : DpSchema} {malloc : Nat → Bool} {dpin : DpReptIn}
    {valid : DpReptValid} (h : valid.num = 0) :
    let c := checkLoop schema.preprocess dpin.reptType dpin.flags malloc 0 dpin.entries schema.nodes
    let r := dpReptValidCheck schema malloc dpin valid
    (r.1 = oprtOk ↔ c.1 = oprtOk ∧ c.2.2 ≠ []) ∧ r.2.1 = c.2.1 ∧
      r.2.2 = c.2.2.foldl (fun v e => v.note e.1 e.2) valid := by
  obtain ⟨hle, hlt⟩ := length_noted_lt schema.preprocess malloc dpin schema.nodes
  rw [dpReptValidCheck]
  dsimp only at hle ⊢
  generalize checkLoop schema.preprocess dpin.reptType dpin.flags malloc 0 dpin.entries
    schema.nodes = c at hle ⊢
  have hnum := num_foldl_note c.2.2 valid
  rw [h, UInt8.toNat_zero, Nat.zero_add, Nat.mod_eq_of_lt (by omega)] at hnum
  have hnil : (c.2.2.foldl (fun v e => v.note e.1 e.2) valid).num = 0 ↔ c.2.2 = [] := by
    rw [← UInt8.toNat_inj, hnum, UInt8.toNat_zero, List.length_eq_zero_iff]
  by_cases hok : c.1 = oprtOk
  · rw [if_neg (not_not_intro hok)]
    by_cases hnone : c.2.2 = []
    · rw [if_pos (hnil.2 hnone)]
      have herror : oprtSvcDpIdNotFound ≠ oprtOk := by decide
      exact ⟨iff_of_false herror fun hand => hand.2 hnone, rfl, rfl⟩
    · rw [if_neg fun heq => hnone (hnil.1 heq)]
      exact ⟨iff_of_true rfl ⟨hok, hnone⟩, rfl, rfl⟩
  · rw [if_pos hok]
    exact ⟨iff_of_false hok fun hand => hok hand.1, rfl, rfl⟩

/-- **The descriptor of a report.** If it was zeroed it holds the identifiers of the entries that
are noted, and what they may need, in 16 bits. -/
theorem dpReptValidCheck_of_zeroValid {schema : DpSchema} {malloc : Nat → Bool} {dpin : DpReptIn}
    {valid : DpReptValid} (h : ZeroValid valid dpin) :
    let c := checkLoop schema.preprocess dpin.reptType dpin.flags malloc 0 dpin.entries schema.nodes
    let r := dpReptValidCheck schema malloc dpin valid
    (r.1 = oprtOk ↔ c.1 = oprtOk ∧ c.2.2 ≠ []) ∧ r.2.1 = c.2.1 ∧
      r.2.2.ids = c.2.2.map (·.1.id) ∧ r.2.2.len.toNat = (c.2.2.map Prod.snd).sum % 65536 ∧
      r.2.2.timelen.toNat = timeRoom c.2.2 := by
  obtain ⟨hnum, hlen, htimelen, hroom⟩ := h
  obtain ⟨hle, hlt⟩ := length_noted_lt schema.preprocess malloc dpin schema.nodes
  obtain ⟨hok, hnodes, hvalid⟩ := @dpReptValidCheck_ok_iff schema malloc dpin valid hnum
  refine ⟨hok, hnodes, ?_⟩
  rw [hvalid]
  generalize checkLoop schema.preprocess dpin.reptType dpin.flags malloc 0 dpin.entries
    schema.nodes = c at hle ⊢
  have hzero : valid.num.toNat = 0 := by rw [hnum]; rfl
  have hempty : valid.ids = [] := by rw [DpReptValid.ids, hzero]; rfl
  obtain ⟨-, hids, -⟩ := @foldl_note c.2.2 valid (by omega) (by omega)
  obtain ⟨hlen', htime'⟩ := foldl_note_len c.2.2 valid
  have hroom' := timeRoom_le c.2.2
  rw [hempty, List.nil_append] at hids
  rw [hlen, UInt16.toNat_zero, Nat.zero_add] at hlen'
  rw [htimelen, UInt16.toNat_zero, Nat.zero_add, Nat.mod_eq_of_lt (by omega)] at htime'
  exact ⟨hids, hlen', htime'⟩

end TuyaOpen.Dp
