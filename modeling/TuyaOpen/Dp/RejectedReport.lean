import TuyaOpen.Dp.ChangeReport

/-!
# A report that is rejected

The check of a report changes the nodes entry by entry, and ends with an error at an entry that has
the wrong type, at a name behind the end of an enumeration, or when no entry has been noted. What
the entries before have changed stays.

## Main results

* `dpNodeFind_checkLoop`: what the check makes of a node.
* `map_visible_eq_iff`: the nodes are as they were if those that are found are.
* `keepsOnError_iff`: when a report that is rejected changes nothing.
-/

namespace TuyaOpen.Dp

/-! ### What an entry comes to -/

def goesTo (preprocess : Bool) (reptType : ReptType) (dp : DpObj) (node : DpNode) : Bool :=
  reptType ≠ .reTrans ∧ dp.value.type = some node.prop.propTp ∧
    dpTypeCheck reptType dp node = true ∧ ¬(preprocess = true ∧ node.desc.passive = .psvTrue)

/-- The entry ends the check: it has the wrong type, or it names nothing in an enumeration whose
values are not checked before. -/
def endsAt (preprocess : Bool) (reptType : ReptType) (dp : DpObj) (node : DpNode) : Bool :=
  dp.value.type ≠ some node.prop.propTp ∨
    ((reptType = .reTrans ∨ goesTo preprocess reptType dp node = true) ∧
      node.prop.propTp = .enum ∧ dpValueCheck dp.value node.prop = false)

def endsCheck (preprocess : Bool) (reptType : ReptType) (nodes : List DpNode) (dp : DpObj) : Bool :=
  (dpNodeFind nodes dp.id).any fun node => endsAt preprocess reptType dp node

def checkedEntries (preprocess : Bool) (reptType : ReptType) (nodes : List DpNode) :
    List DpObj → List DpObj
  | [] => []
  | dp :: dps =>
    if endsCheck preprocess reptType nodes dp then [dp]
    else dp :: checkedEntries preprocess reptType nodes dps

def entriesFor (preprocess : Bool) (reptType : ReptType) (node : DpNode) (dps : List DpObj) :
    List DpObj :=
  dps.filter fun dp => dp.id = node.desc.id ∧ goesTo preprocess reptType dp node = true

/-- The entries that go to a node, each with whether a buffer for a string can be had. -/
def turnsFor (preprocess : Bool) (reptType : ReptType) (malloc : Nat → Bool) (node : DpNode) :
    Nat → List DpObj → List (DpObj × Bool)
  | _, [] => []
  | i, dp :: dps =>
    let turns := turnsFor preprocess reptType malloc node (i + 1) dps
    if dp.id = node.desc.id ∧ goesTo preprocess reptType dp node = true then
      (dp, malloc i) :: turns
    else turns

def afterTurn (preprocess : Bool) (reptType : ReptType) (flags : UInt32) (malloc : Bool)
    (dp : DpObj) (node : DpNode) : DpNode :=
  if dp.id = node.desc.id ∧ goesTo preprocess reptType dp node = true then
    (dpReptUpdate reptType flags malloc dp node).2
  else node

section Entry

variable {preprocess : Bool} {reptType : ReptType} {flags : UInt32} {malloc : Bool}
  {node node' : DpNode} {nodes nodes' : List DpNode} {dp : DpObj}

theorem dpTypeCheck_congr (h : node'.kind = node.kind) (dp : DpObj) :
    dpTypeCheck reptType dp node' = dpTypeCheck reptType dp node := by
  rw [dpTypeCheck, dpTypeCheck, desc_eq_of_kind h, check_eq_of_kind h]

theorem goesTo_congr (h : node'.kind = node.kind) (dp : DpObj) :
    goesTo preprocess reptType dp node' = goesTo preprocess reptType dp node := by
  rw [goesTo, goesTo, desc_eq_of_kind h, propTp_eq_of_kind h, dpTypeCheck_congr h]

theorem endsAt_congr (h : node'.kind = node.kind) (dp : DpObj) :
    endsAt preprocess reptType dp node' = endsAt preprocess reptType dp node := by
  rw [endsAt, endsAt, propTp_eq_of_kind h, goesTo_congr h, check_eq_of_kind h]

theorem SameKinds.endsCheck_eq (h : SameKinds nodes nodes') (dp : DpObj) :
    endsCheck preprocess reptType nodes' dp = endsCheck preprocess reptType nodes dp := by
  have hkind := h dp.id
  rw [endsCheck, endsCheck]
  cases hfind : dpNodeFind nodes dp.id with
  | none =>
    rw [hfind, Option.map_none, Option.map_eq_none_iff] at hkind
    rw [hkind]
  | some node =>
    obtain ⟨node', hnode', heq⟩ := h.some hfind
    rw [hnode', Option.any_some, Option.any_some, endsAt_congr heq]

theorem SameKinds.checkedEntries_eq (h : SameKinds nodes nodes') (dps : List DpObj) :
    checkedEntries preprocess reptType nodes' dps =
      checkedEntries preprocess reptType nodes dps := by
  induction dps with
  | nil => rfl
  | cons dp dps ih => rw [checkedEntries, checkedEntries, h.endsCheck_eq, ih]

theorem turnsFor_congr (h : node'.kind = node.kind) (malloc : Nat → Bool) (i : Nat)
    (dps : List DpObj) :
    turnsFor preprocess reptType malloc node' i dps =
      turnsFor preprocess reptType malloc node i dps := by
  induction dps generalizing i with
  | nil => rfl
  | cons dp dps ih => rw [turnsFor, turnsFor, ih, goesTo_congr h, desc_eq_of_kind h]

theorem map_fst_turnsFor (malloc : Nat → Bool) (i : Nat) (dps : List DpObj) :
    (turnsFor preprocess reptType malloc node i dps).map Prod.fst =
      entriesFor preprocess reptType node dps := by
  induction dps generalizing i with
  | nil => rfl
  | cons dp dps ih =>
    rw [turnsFor, entriesFor, List.filter_cons, ← entriesFor]
    by_cases hgoes : dp.id = node.desc.id ∧ goesTo preprocess reptType dp node = true
    · rw [if_pos hgoes, if_pos (decide_eq_true hgoes), List.map_cons, ih]
    · rw [if_neg hgoes, if_neg (by rw [decide_eq_false hgoes]; exact Bool.false_ne_true), ih]

theorem turnsFor_const (malloc : Bool) (i : Nat) (dps : List DpObj) :
    turnsFor preprocess reptType (fun _ => malloc) node i dps =
      withMalloc malloc (entriesFor preprocess reptType node dps) := by
  induction dps generalizing i with
  | nil => rfl
  | cons dp dps ih =>
    rw [turnsFor, entriesFor, List.filter_cons, ← entriesFor]
    by_cases hgoes : dp.id = node.desc.id ∧ goesTo preprocess reptType dp node = true
    · rw [if_pos hgoes, if_pos (decide_eq_true hgoes), ih]
      rfl
    · rw [if_neg hgoes, if_neg (by rw [decide_eq_false hgoes]; exact Bool.false_ne_true), ih]

theorem fits_of_mem_entriesFor {dps : List DpObj}
    (h : dp ∈ entriesFor preprocess reptType node dps) : FitsNode dp node := by
  obtain ⟨-, hgoes⟩ := List.mem_filter.1 h
  obtain ⟨-, hgoes⟩ := of_decide_eq_true hgoes
  obtain ⟨-, htype, hcheck, -⟩ := of_decide_eq_true hgoes
  exact fitsNode_of_dpTypeCheck htype hcheck

theorem noteFate_eq_fail_iff {value : DpValue} {prop : DpProp}
    (htype : value.type = some prop.propTp) :
    (∃ rt, noteFate value prop = .fail rt) ↔
      prop.propTp = .enum ∧ dpValueCheck value prop = false := by
  cases value with
  | enum e =>
    cases prop with
    | enum ppEnum old =>
      by_cases hlt : e.toNat < ppEnum.length
      · simp [noteFate, recordLen, dpValueCheck, hlt]
      · simp [noteFate, recordLen, dpValueCheck, hlt, DpProp.propTp]
    | _ => cases htype
  | other type => cases htype
  | _ => cases prop <;> first | (simp [noteFate, recordLen, DpProp.propTp]; done) | cases htype

theorem checkEntry_of_not_goesTo (hfind : dpNodeFind nodes dp.id = some node)
    (hgoes : goesTo preprocess reptType dp node = false) :
    let r := checkEntry preprocess reptType flags malloc nodes dp
    r.2 = nodes ∧ ((∃ rt, r.1 = .fail rt) ↔ endsAt preprocess reptType dp node = true) ∧
      (reptType ≠ .reTrans → ∀ n, r.1 ≠ .note n) := by
  have hgoes' : ¬(reptType ≠ .reTrans ∧ dp.value.type = some node.prop.propTp ∧
      dpTypeCheck reptType dp node = true ∧
      ¬(preprocess = true ∧ node.desc.passive = .psvTrue)) := of_decide_eq_false hgoes
  rw [checkEntry, hfind, endsAt, hgoes]
  dsimp only
  by_cases htype : dp.value.type = some node.prop.propTp
  · rw [if_neg (not_not_intro htype)]
    by_cases htrans : reptType = .reTrans
    · rw [if_pos htrans]
      refine ⟨rfl, (noteFate_eq_fail_iff htype).trans ?_, fun hne => absurd htrans hne⟩
      simp [htype, htrans]
    · -- the check of the type or the mark of the data point passes the entry over
      have hskip : (if dpTypeCheck reptType dp node = false then (EntryFate.skip, nodes)
          else if preprocess = true ∧ node.desc.passive = .psvTrue then (.skip, nodes)
          else
            let r := dpReptUpdate reptType flags malloc dp node
            let nodes := dpNodeSet nodes dp.id fun _ => r.2
            if r.1 then (.skip, nodes) else (noteFate dp.value r.2.prop, nodes)) =
          (.skip, nodes) := by
        by_cases hcheck : dpTypeCheck reptType dp node = false
        · rw [if_pos hcheck]
        · rw [if_neg hcheck, if_pos]
          by_contra hpassive
          exact hgoes' ⟨htrans, htype, Bool.not_eq_false _ |>.mp hcheck, hpassive⟩
      rw [if_neg htrans]
      dsimp only at hskip
      rw [hskip]
      refine ⟨rfl, iff_of_false (not_exists.2 fun rt hrt => by cases hrt) ?_,
        fun _ n hn => by cases hn⟩
      simp [htype, htrans]
  · rw [if_pos htype]
    refine ⟨rfl, iff_of_true ⟨_, rfl⟩ (decide_eq_true (Or.inl htype)), fun _ n hn => by cases hn⟩

theorem checkEntry_of_goesTo (hfind : dpNodeFind nodes dp.id = some node)
    (hgoes : goesTo preprocess reptType dp node = true) :
    checkEntry preprocess reptType flags malloc nodes dp =
      let r := dpReptUpdate reptType flags malloc dp node
      (if r.1 then .skip else noteFate dp.value r.2.prop, dpNodeSet nodes dp.id fun _ => r.2) := by
  obtain ⟨htrans, htype, hcheck, hpassive⟩ := of_decide_eq_true hgoes
  rw [checkEntry, hfind]
  dsimp only
  rw [if_neg (not_not_intro htype), if_neg htrans, hcheck, if_neg (by decide), if_neg hpassive]
  split <;> rfl

theorem endsAt_of_skip (hgoes : goesTo preprocess reptType dp node = true)
    (hskip : (dpReptUpdate reptType flags malloc dp node).1 = true) :
    endsAt preprocess reptType dp node = false := by
  obtain ⟨htrans, htype, hcheck, -⟩ := of_decide_eq_true hgoes
  have hfits := fitsNode_of_dpTypeCheck htype hcheck
  have hobj : node.desc.type = .obj := by
    rcases type_of_fitsNode hfits with hobj | hraw
    · exact hobj
    · rw [dpReptUpdate_raw hraw] at hskip
      cases hskip
  rw [endsAt, hfits.check hobj]
  simp [htype]

theorem dpNodeFind_of_id_eq {id : UInt8} (hfind : dpNodeFind nodes id = some node)
    (hid : dp.id = node.desc.id) : dpNodeFind nodes dp.id = some node := by
  rw [hid, id_of_dpNodeFind hfind]
  exact hfind

/-- **A turn of the check, at the nodes.** A node changes only if the entry goes to it. -/
theorem dpNodeFind_checkEntry (preprocess : Bool) (reptType : ReptType) (flags : UInt32)
    (malloc : Bool) (nodes : List DpNode) (dp : DpObj) (id : UInt8) :
    dpNodeFind (checkEntry preprocess reptType flags malloc nodes dp).2 id =
      (dpNodeFind nodes id).map (afterTurn preprocess reptType flags malloc dp) := by
  by_cases hgoes : ∃ node, dpNodeFind nodes dp.id = some node ∧
      goesTo preprocess reptType dp node = true
  · obtain ⟨node, hfind, hgoes⟩ := hgoes
    have hid : (dpReptUpdate reptType flags malloc dp node).2.desc.id = dp.id := by
      rw [desc_eq_of_kind (kind_dpReptUpdate _ _ _ _ _)]
      exact id_of_dpNodeFind hfind
    rw [checkEntry_of_goesTo hfind hgoes]
    dsimp only
    rw [dpNodeFind_dpNodeSet fun _ _ => hid, hfind]
    by_cases heq : id = dp.id
    · rw [if_pos heq, heq, hfind, Option.map_some, Option.map_some, afterTurn,
        if_pos ⟨(id_of_dpNodeFind hfind).symm, hgoes⟩]
    · rw [if_neg heq]
      refine Option.map_id'.symm.trans (Option.map_congr fun node' hnode' => ?_)
      rw [afterTurn, if_neg fun hand => heq ((id_of_dpNodeFind hnode').symm.trans hand.1.symm)]
  · have hsame : (checkEntry preprocess reptType flags malloc nodes dp).2 = nodes := by
      cases hfind : dpNodeFind nodes dp.id with
      | none => rw [checkEntry, hfind]
      | some node =>
        have hnot : goesTo preprocess reptType dp node = false :=
          Bool.not_eq_true _ |>.mp fun h => hgoes ⟨node, hfind, h⟩
        exact (checkEntry_of_not_goesTo hfind hnot).1
    rw [hsame]
    refine Option.map_id'.symm.trans (Option.map_congr fun node' hnode' => ?_)
    rw [afterTurn, if_neg fun hand => hgoes ⟨node', dpNodeFind_of_id_eq hnode' hand.1, hand.2⟩]

/-- **A turn of the check, at the loop.** It ends the check where `endsCheck` says so; and without
retransmission it notes the entry if the node takes it. -/
theorem checkEntry_fate (preprocess : Bool) (reptType : ReptType) (flags : UInt32) (malloc : Bool)
    (nodes : List DpNode) (dp : DpObj) :
    let r := checkEntry preprocess reptType flags malloc nodes dp
    ((∃ rt, r.1 = .fail rt) ↔ endsCheck preprocess reptType nodes dp = true) ∧
      (endsCheck preprocess reptType nodes dp = false → reptType ≠ .reTrans →
        ((∃ n, r.1 = .note n) ↔ ∃ node, dpNodeFind nodes dp.id = some node ∧
          goesTo preprocess reptType dp node = true ∧
          (dpReptUpdate reptType flags malloc dp node).1 = false)) := by
  dsimp only
  rw [endsCheck]
  cases hfind : dpNodeFind nodes dp.id with
  | none =>
    rw [checkEntry, hfind]
    exact ⟨iff_of_false (not_exists.2 fun rt hrt => by cases hrt) (by simp), fun _ _ =>
      iff_of_false (not_exists.2 fun n hn => by cases hn)
        (not_exists.2 fun node hnode => by cases hnode.1)⟩
  | some node =>
    rw [Option.any_some]
    cases hgoes : goesTo preprocess reptType dp node with
    | false =>
      obtain ⟨-, hfail, hnote⟩ := @checkEntry_of_not_goesTo preprocess reptType flags malloc node
        nodes dp hfind hgoes
      refine ⟨hfail, fun _ htrans => iff_of_false (not_exists.2 (hnote htrans)) ?_⟩
      rintro ⟨node', hnode', hgoes', -⟩
      rw [← Option.some.inj hnode', hgoes] at hgoes'
      cases hgoes'
    | true =>
      obtain ⟨htrans, htype, -⟩ := of_decide_eq_true hgoes
      have hkind := kind_dpReptUpdate reptType flags malloc dp node
      rw [checkEntry_of_goesTo hfind hgoes]
      dsimp only
      cases hskip : (dpReptUpdate reptType flags malloc dp node).1 with
      | true =>
        rw [endsAt_of_skip hgoes hskip, if_pos rfl]
        refine ⟨iff_of_false (not_exists.2 fun rt hrt => by cases hrt) Bool.false_ne_true,
          fun _ _ => iff_of_false (not_exists.2 fun n hn => by cases hn) ?_⟩
        rintro ⟨node', hnode', -, hskip'⟩
        rw [← Option.some.inj hnode', hskip] at hskip'
        cases hskip'
      | false =>
        rw [if_neg Bool.false_ne_true]
        have hfail : (∃ rt, noteFate dp.value (dpReptUpdate reptType flags malloc dp node).2.prop =
            .fail rt) ↔ endsAt preprocess reptType dp node = true := by
          rw [noteFate_eq_fail_iff (htype.trans (congrArg some (propTp_eq_of_kind hkind).symm)),
            propTp_eq_of_kind hkind, check_eq_of_kind hkind, endsAt]
          simp [htype, hgoes]
        refine ⟨hfail, fun hends _ => iff_of_true ?_ ⟨node, rfl, hgoes, hskip⟩⟩
        rw [hends] at hfail
        cases hfate : noteFate dp.value (dpReptUpdate reptType flags malloc dp node).2.prop with
        | note n => exact ⟨n, rfl⟩
        | fail rt => exact absurd (hfail.1 ⟨rt, hfate⟩) Bool.false_ne_true
        | skip =>
          rw [noteFate] at hfate
          split at hfate <;> cases hfate

end Entry

/-! ### The whole check -/

section Loop

variable {preprocess : Bool} {reptType : ReptType} {flags : UInt32} {malloc : Nat → Bool}
  {nodes : List DpNode} {dps : List DpObj}

theorem kind_afterTurn (preprocess : Bool) (reptType : ReptType) (flags : UInt32) (malloc : Bool)
    (dp : DpObj) (node : DpNode) :
    (afterTurn preprocess reptType flags malloc dp node).kind = node.kind := by
  rw [afterTurn]
  split
  · exact kind_dpReptUpdate _ _ _ _ _
  · rfl

theorem nodeRun_turnsFor (preprocess : Bool) (reptType : ReptType) (flags : UInt32)
    (malloc : Nat → Bool) (i : Nat) (dp : DpObj) (dps : List DpObj) (node : DpNode) :
    let node' := afterTurn preprocess reptType flags (malloc i) dp node
    let r := nodeRun reptType flags
      (turnsFor preprocess reptType malloc node i (dp :: dps)) node
    let r' := nodeRun reptType flags
      (turnsFor preprocess reptType malloc node' (i + 1) dps) node'
    (r.1 = false ↔ ¬(dp.id = node.desc.id ∧ goesTo preprocess reptType dp node = true ∧
      (dpReptUpdate reptType flags (malloc i) dp node).1 = false) ∧ r'.1 = false) ∧ r.2 = r'.2 := by
  dsimp only
  have hkind := kind_afterTurn preprocess reptType flags (malloc i) dp node
  rw [turnsFor_congr hkind, turnsFor]
  by_cases hgoes : dp.id = node.desc.id ∧ goesTo preprocess reptType dp node = true
  · rw [if_pos hgoes, afterTurn, if_pos hgoes, nodeRun]
    dsimp only
    refine ⟨?_, rfl⟩
    rw [Bool.or_eq_false_iff]
    refine and_congr_left fun _ => ?_
    simp [hgoes.1, hgoes.2]
  · rw [if_neg hgoes, afterTurn, if_neg hgoes]
    refine ⟨?_, rfl⟩
    rw [and_iff_right fun hall => hgoes ⟨hall.1, hall.2.1⟩]

/-- **The nodes after the check.** A node has taken the entries that go to it, up to the one that
ends the check. -/
theorem dpNodeFind_checkLoop (i : Nat) (dps : List DpObj) (nodes : List DpNode) (id : UInt8) :
    dpNodeFind (checkLoop preprocess reptType flags malloc i dps nodes).2.1 id =
      (dpNodeFind nodes id).map fun node => (nodeRun reptType flags (turnsFor preprocess reptType
        malloc node i (checkedEntries preprocess reptType nodes dps)) node).2 := by
  induction dps generalizing i nodes with
  | nil => exact Option.map_id'.symm
  | cons dp dps ih =>
    have hnodes := dpNodeFind_checkEntry preprocess reptType flags (malloc i) nodes dp id
    have hkinds := sameKinds_checkEntry preprocess reptType flags (malloc i) nodes dp
    obtain ⟨hfail, -⟩ := checkEntry_fate preprocess reptType flags (malloc i) nodes dp
    rw [checkLoop, checkedEntries]
    cases hentry : checkEntry preprocess reptType flags (malloc i) nodes dp with
    | mk fate nodes' =>
      rw [hentry] at hnodes hkinds hfail
      dsimp only at hnodes hkinds hfail
      have hgoOn : (∀ rt, fate ≠ .fail rt) →
          dpNodeFind (checkLoop preprocess reptType flags malloc (i + 1) dps nodes').2.1 id =
            (dpNodeFind nodes id).map fun node => (nodeRun reptType flags
              (turnsFor preprocess reptType malloc node i
                (if endsCheck preprocess reptType nodes dp = true then [dp]
                else dp :: checkedEntries preprocess reptType nodes dps)) node).2 := by
        intro hfate
        rw [if_neg fun hends => (hfail.2 hends).elim hfate, ih, hnodes, Option.map_map]
        refine Option.map_congr fun node _ => ?_
        rw [Function.comp_apply, hkinds.checkedEntries_eq]
        exact (nodeRun_turnsFor preprocess reptType flags malloc i dp _ node).2.symm
      cases fate with
      | skip => exact hgoOn fun rt hrt => by cases hrt
      | note n => exact hgoOn fun rt hrt => by cases hrt
      | fail rt =>
        rw [if_pos (hfail.1 ⟨rt, rfl⟩)]
        refine hnodes.trans (Option.map_congr fun node _ => ?_)
        exact (nodeRun_turnsFor preprocess reptType flags malloc i dp [] node).2.symm

theorem checkLoop_of_endsCheck (h : ∃ dp ∈ dps, endsCheck preprocess reptType nodes dp = true)
    (i : Nat) : (checkLoop preprocess reptType flags malloc i dps nodes).1 ≠ oprtOk := by
  induction dps generalizing i nodes with
  | nil => exact absurd h (by simp)
  | cons dp dps ih =>
    have hkinds := sameKinds_checkEntry preprocess reptType flags (malloc i) nodes dp
    obtain ⟨hfail, -⟩ := checkEntry_fate preprocess reptType flags (malloc i) nodes dp
    have hok := @checkEntry_ne_fail_ok preprocess reptType flags (malloc i) nodes dp
    rw [checkLoop]
    cases hentry : checkEntry preprocess reptType flags (malloc i) nodes dp with
    | mk fate nodes' =>
      rw [hentry] at hkinds hfail hok
      dsimp only at hkinds hfail hok
      have htail : (∀ rt, fate ≠ .fail rt) →
          ∃ dp ∈ dps, endsCheck preprocess reptType nodes' dp = true := by
        intro hfate
        obtain ⟨e, he, hends⟩ := h
        rcases List.mem_cons.1 he with rfl | he
        · exact absurd (hfail.2 hends) (not_exists.2 hfate)
        · exact ⟨e, he, (hkinds.endsCheck_eq e).trans hends⟩
      cases fate with
      | skip => exact ih (htail fun rt hrt => by cases hrt) (i + 1)
      | note n => exact ih (htail fun rt hrt => by cases hrt) (i + 1)
      | fail rt => exact fun hrt => hok (congrArg EntryFate.fail hrt)

theorem checkLoop_of_not_endsCheck (htrans : reptType ≠ .reTrans)
    (h : ∀ dp ∈ dps, endsCheck preprocess reptType nodes dp = false) (i : Nat) :
    (checkLoop preprocess reptType flags malloc i dps nodes).1 = oprtOk ∧
      ((checkLoop preprocess reptType flags malloc i dps nodes).2.2 = [] ↔
        ∀ id node, dpNodeFind nodes id = some node → (nodeRun reptType flags
          (turnsFor preprocess reptType malloc node i dps) node).1 = false) := by
  induction dps generalizing i nodes with
  | nil => exact ⟨rfl, iff_of_true rfl fun id node _ => rfl⟩
  | cons dp dps ih =>
    obtain ⟨hends, htail⟩ := List.forall_mem_cons.1 h
    have hnodes := dpNodeFind_checkEntry preprocess reptType flags (malloc i) nodes dp
    have hkinds := sameKinds_checkEntry preprocess reptType flags (malloc i) nodes dp
    obtain ⟨hfail, hnote⟩ := checkEntry_fate preprocess reptType flags (malloc i) nodes dp
    have hnote := hnote hends htrans
    rw [checkLoop]
    cases hentry : checkEntry preprocess reptType flags (malloc i) nodes dp with
    | mk fate nodes' =>
      rw [hentry] at hnodes hkinds hfail hnote
      dsimp only at hnodes hkinds hfail hnote
      obtain ⟨hok, hnoted⟩ := @ih nodes' (fun e he => (hkinds.endsCheck_eq e).trans (htail e he))
        (i + 1)
      cases fate with
      | fail rt =>
        rw [hends] at hfail
        exact absurd (hfail.1 ⟨rt, rfl⟩) Bool.false_ne_true
      | note n =>
        obtain ⟨node, hfind, hgoes, htaken⟩ := hnote.1 ⟨n, rfl⟩
        refine ⟨hok, iff_of_false (List.cons_ne_nil _ _) fun hnone => ?_⟩
        have hrun := hnone dp.id node hfind
        rw [(nodeRun_turnsFor preprocess reptType flags malloc i dp dps node).1] at hrun
        exact hrun.1 ⟨(id_of_dpNodeFind hfind).symm, hgoes, htaken⟩
      | skip =>
        refine ⟨hok, hnoted.trans ⟨fun hnone id node hfind => ?_, fun hnone id node' hfind => ?_⟩⟩
        · refine (nodeRun_turnsFor preprocess reptType flags malloc i dp dps node).1.2 ⟨?_, ?_⟩
          · rintro ⟨hid, hgoes, htaken⟩
            obtain ⟨n, hn⟩ := hnote.2 ⟨node, dpNodeFind_of_id_eq hfind hid, hgoes, htaken⟩
            cases hn
          · refine hnone id _ ?_
            rw [hnodes, hfind, Option.map_some]
        · rw [hnodes, Option.map_eq_some_iff] at hfind
          obtain ⟨node, hfind, rfl⟩ := hfind
          have hrun := hnone id node hfind
          rw [(nodeRun_turnsFor preprocess reptType flags malloc i dp dps node).1] at hrun
          exact hrun.2

theorem checkedEntries_of_not_endsCheck
    (h : ∀ dp ∈ dps, endsCheck preprocess reptType nodes dp = false) :
    checkedEntries preprocess reptType nodes dps = dps := by
  induction dps with
  | nil => rfl
  | cons dp dps ih =>
    obtain ⟨hhead, htail⟩ := List.forall_mem_cons.1 h
    rw [checkedEntries, hhead, if_neg Bool.false_ne_true, ih htail]

end Loop

/-! ### Nodes that are not found -/

/-- The same identifiers, and a node behind another one with its identifier is the same. The first
argument are the identifiers that have been seen before. -/
inductive SameHidden : List UInt8 → List DpNode → List DpNode → Prop
  | nil (seen : List UInt8) : SameHidden seen [] []
  | cons {seen : List UInt8} {node node' : DpNode} {nodes nodes' : List DpNode}
      (hid : node'.desc.id = node.desc.id) (hhidden : node.desc.id ∈ seen → node' = node)
      (htail : SameHidden (node.desc.id :: seen) nodes nodes') :
      SameHidden seen (node :: nodes) (node' :: nodes')

namespace SameHidden

variable {seen : List UInt8} {nodes nodes' nodes'' : List DpNode}

theorem refl (seen : List UInt8) (nodes : List DpNode) : SameHidden seen nodes nodes := by
  induction nodes generalizing seen with
  | nil => exact .nil seen
  | cons node nodes ih => exact .cons rfl (fun _ => rfl) (ih _)

theorem trans (h : SameHidden seen nodes nodes') (h' : SameHidden seen nodes' nodes'') :
    SameHidden seen nodes nodes'' := by
  induction h generalizing nodes'' with
  | nil => exact h'
  | cons hid hhidden htail ih =>
    cases h' with
    | cons hid' hhidden' htail' =>
      rw [hid] at hhidden' htail'
      exact .cons (hid'.trans hid) (fun hseen => (hhidden' hseen).trans (hhidden hseen))
        (ih htail')

theorem dpNodeSet {id : UInt8} {f : DpNode → DpNode} (hseen : id ∉ seen)
    (hf : ∀ node, dpNodeFind nodes id = some node → (f node).desc.id = id) :
    SameHidden seen nodes (dpNodeSet nodes id f) := by
  induction nodes generalizing seen with
  | nil => exact .nil seen
  | cons node nodes ih =>
    rw [dpNodeFind_cons] at hf
    rw [Dp.dpNodeSet]
    by_cases hid : node.desc.id = id
    · rw [if_pos hid] at hf ⊢
      exact .cons ((hf node rfl).trans hid.symm) (fun hmem => absurd (hid ▸ hmem) hseen)
        (refl _ nodes)
    · rw [if_neg hid] at hf ⊢
      refine .cons rfl (fun _ => rfl) (ih ?_ hf)
      rintro (_ | ⟨_, hmem⟩)
      · exact hid rfl
      · exact hseen hmem

theorem map_visible_eq_iff (h : SameHidden seen nodes nodes') :
    nodes'.map DpNode.visible = nodes.map DpNode.visible ↔
      ∀ id, id ∉ seen → (dpNodeFind nodes' id).map DpNode.visible =
        (dpNodeFind nodes id).map DpNode.visible := by
  induction h with
  | nil => exact iff_of_true rfl fun id _ => rfl
  | @cons seen node node' nodes nodes' hid hhidden htail ih =>
    rw [List.map_cons, List.map_cons, List.cons.injEq, ih]
    refine ⟨fun hboth id hseen => ?_, fun hall => ⟨?_, fun id hseen => ?_⟩⟩
    · obtain ⟨hhead, hrest⟩ := hboth
      rw [dpNodeFind_cons, dpNodeFind_cons, hid]
      by_cases heq : node.desc.id = id
      · rw [if_pos heq, if_pos heq, Option.map_some, Option.map_some, hhead]
      · rw [if_neg heq, if_neg heq]
        exact hrest id (by simp [Ne.symm heq, hseen])
    · by_cases hseen : node.desc.id ∈ seen
      · rw [hhidden hseen]
      · have hfound := hall node.desc.id hseen
        rw [dpNodeFind_cons, dpNodeFind_cons, if_pos hid, if_pos rfl] at hfound
        exact Option.some.inj hfound
    · have hne : node.desc.id ≠ id := fun heq => hseen (heq ▸ List.mem_cons_self)
      have hfound := hall id fun hmem => hseen (List.mem_cons_of_mem _ hmem)
      rwa [dpNodeFind_cons, dpNodeFind_cons, hid, if_neg hne, if_neg hne] at hfound

end SameHidden

section Hidden

variable {preprocess : Bool} {reptType : ReptType} {flags : UInt32} {malloc : Nat → Bool}

theorem sameHidden_checkEntry (preprocess : Bool) (reptType : ReptType) (flags : UInt32)
    (malloc : Bool) (nodes : List DpNode) (dp : DpObj) :
    SameHidden [] nodes (checkEntry preprocess reptType flags malloc nodes dp).2 := by
  cases hfind : dpNodeFind nodes dp.id with
  | none =>
    rw [checkEntry, hfind]
    exact .refl [] nodes
  | some node =>
    cases hgoes : goesTo preprocess reptType dp node with
    | false =>
      rw [(checkEntry_of_not_goesTo hfind hgoes).1]
      exact .refl [] nodes
    | true =>
      rw [checkEntry_of_goesTo hfind hgoes]
      refine .dpNodeSet List.not_mem_nil fun _ _ => ?_
      rw [desc_eq_of_kind (kind_dpReptUpdate _ _ _ _ _)]
      exact id_of_dpNodeFind hfind

theorem sameHidden_checkLoop (i : Nat) (dps : List DpObj) (nodes : List DpNode) :
    SameHidden [] nodes (checkLoop preprocess reptType flags malloc i dps nodes).2.1 := by
  induction dps generalizing i nodes with
  | nil => exact .refl [] nodes
  | cons dp dps ih =>
    have hentry := sameHidden_checkEntry preprocess reptType flags (malloc i) nodes dp
    rw [checkLoop]
    cases heq : checkEntry preprocess reptType flags (malloc i) nodes dp with
    | mk fate nodes' =>
      rw [heq] at hentry
      cases fate with
      | skip => exact hentry.trans (ih (i + 1) nodes')
      | fail rt => exact hentry
      | note n => exact hentry.trans (ih (i + 1) nodes')

end Hidden

/-! ### The report -/

def KeepsOnError (schema : DpSchema) (dpin : DpReptIn) (valid : DpReptValid) : Prop :=
  ∀ malloc,
    let r := dpReptValidCheck schema malloc dpin valid
    r.1 ≠ oprtOk → r.2.1.map DpNode.visible = schema.nodes.map DpNode.visible

def AllFound (nodes : List DpNode) (P : DpNode → Prop) : Prop :=
  ∀ node, dpNodeFind nodes node.desc.id = some node → P node

/-- The condition on the entries and the nodes. If an entry ends the check, the entries up to it
leave all nodes as they were. Otherwise one is surely noted, or no node has anything to lose. -/
def RejectCond (preprocess : Bool) (reptType : ReptType) (flags : UInt32) (nodes : List DpNode)
    (dps : List DpObj) : Prop :=
  ((∃ dp ∈ dps, endsCheck preprocess reptType nodes dp = true) →
    AllFound nodes fun node =>
      let taken := entriesFor preprocess reptType node
        (checkedEntries preprocess reptType nodes dps)
      Quiet reptType flags taken node ∨ SameAgain reptType taken node) ∧
  ((∀ dp ∈ dps, endsCheck preprocess reptType nodes dp = false) →
    (∃ node, dpNodeFind nodes node.desc.id = some node ∧
      SurelyNoted reptType flags (entriesFor preprocess reptType node dps) node) ∨
    AllFound nodes fun node =>
      let taken := entriesFor preprocess reptType node dps
      Quiet reptType flags taken node ∨ LosesNothing reptType taken node)

section Report

variable {schema : DpSchema} {dpin : DpReptIn} {valid : DpReptValid} {malloc : Nat → Bool}

theorem allFound_iff {nodes : List DpNode} {P : DpNode → Prop} :
    AllFound nodes P ↔ ∀ id node, dpNodeFind nodes id = some node → P node := by
  refine ⟨fun h id node hfind => h node ?_, fun h node hfind => h _ node hfind⟩
  rw [id_of_dpNodeFind hfind]
  exact hfind

theorem map_visible_checkLoop_iff (i : Nat) (dps : List DpObj) (nodes : List DpNode)
    {preprocess : Bool} {reptType : ReptType} {flags : UInt32} :
    (checkLoop preprocess reptType flags malloc i dps nodes).2.1.map DpNode.visible =
        nodes.map DpNode.visible ↔
      AllFound nodes fun node => (nodeRun reptType flags (turnsFor preprocess reptType malloc node i
        (checkedEntries preprocess reptType nodes dps)) node).2.visible = node.visible := by
  rw [(sameHidden_checkLoop i dps nodes).map_visible_eq_iff, allFound_iff]
  refine ⟨fun h id node hfind => ?_, fun h id _ => ?_⟩
  · have hfound := h id List.not_mem_nil
    rw [dpNodeFind_checkLoop, hfind] at hfound
    exact Option.some.inj hfound
  · rw [dpNodeFind_checkLoop, Option.map_map]
    exact Option.map_congr fun node hfind => h id node hfind

theorem fits_turnsFor {preprocess : Bool} {reptType : ReptType} {node : DpNode} {i : Nat}
    {dps : List DpObj} :
    ∀ e ∈ turnsFor preprocess reptType malloc node i dps, FitsNode e.1 node := by
  intro e he
  have hmem := List.mem_map_of_mem (f := Prod.fst) he
  rw [map_fst_turnsFor] at hmem
  exact fits_of_mem_entriesFor hmem

theorem keeps_iff_of_endsCheck {preprocess : Bool} {reptType : ReptType} {flags : UInt32}
    {nodes : List DpNode} {dps : List DpObj} :
    (∀ malloc, (checkLoop preprocess reptType flags malloc 0 dps nodes).2.1.map DpNode.visible =
        nodes.map DpNode.visible) ↔
      AllFound nodes fun node =>
        let taken := entriesFor preprocess reptType node
          (checkedEntries preprocess reptType nodes dps)
        Quiet reptType flags taken node ∨ SameAgain reptType taken node := by
  simp only [map_visible_checkLoop_iff]
  refine ⟨fun h node hfind => ?_, fun h malloc node hfind => ?_⟩
  · refine kept_of_visible (fun dp hdp => fits_of_mem_entriesFor hdp) fun malloc => ?_
    have hvisible := h (fun _ => malloc) node hfind
    dsimp only at hvisible
    rwa [turnsFor_const] at hvisible
  · refine visible_of_kept fits_turnsFor ?_
    rw [map_fst_turnsFor]
    exact h node hfind

theorem keeps_iff_of_not_endsCheck {preprocess : Bool} {reptType : ReptType} {flags : UInt32}
    {nodes : List DpNode} {dps : List DpObj} (htrans : reptType ≠ .reTrans)
    (hends : ∀ dp ∈ dps, endsCheck preprocess reptType nodes dp = false) :
    (∀ malloc, (checkLoop preprocess reptType flags malloc 0 dps nodes).2.2 = [] →
        (checkLoop preprocess reptType flags malloc 0 dps nodes).2.1.map DpNode.visible =
          nodes.map DpNode.visible) ↔
      (∃ node, dpNodeFind nodes node.desc.id = some node ∧
        SurelyNoted reptType flags (entriesFor preprocess reptType node dps) node) ∨
      AllFound nodes fun node =>
        let taken := entriesFor preprocess reptType node dps
        Quiet reptType flags taken node ∨ LosesNothing reptType taken node := by
  have hnoted := fun malloc =>
    (@checkLoop_of_not_endsCheck preprocess reptType flags malloc nodes dps htrans hends 0).2
  simp only [map_visible_checkLoop_iff, hnoted, checkedEntries_of_not_endsCheck hends]
  refine ⟨fun h => ?_, ?_⟩
  · by_contra hcond
    rw [not_or] at hcond
    obtain ⟨hsure, hlose⟩ := hcond
    -- without memory no entry is noted
    have hrun : ∀ node, dpNodeFind nodes node.desc.id = some node →
        (nodeRun reptType flags
            (withMalloc false (entriesFor preprocess reptType node dps)) node).1 = false ∧
          ((nodeRun reptType flags
              (withMalloc false (entriesFor preprocess reptType node dps)) node).2.visible =
            node.visible → Quiet reptType flags (entriesFor preprocess reptType node dps) node ∨
              LosesNothing reptType (entriesFor preprocess reptType node dps) node) :=
      fun node hfind => losesNothing_of_visible (fun dp hdp => fits_of_mem_entriesFor hdp)
        fun hsurely => hsure ⟨node, hfind, hsurely⟩
    refine hlose fun node hfind => (hrun node hfind).2 ?_
    have hvisible := h (fun _ => false) ?_ node hfind
    · dsimp only at hvisible
      rwa [turnsFor_const] at hvisible
    · rw [← allFound_iff]
      intro node' hfind'
      rw [turnsFor_const]
      exact (hrun node' hfind').1
  · rintro (⟨node, hfind, hsure⟩ | hlose) malloc hnone
    · have hrun := hnone _ node hfind
      rw [noted_of_surelyNoted fits_turnsFor (by rwa [map_fst_turnsFor])] at hrun
      cases hrun
    · intro node hfind
      refine visible_of_losesNothing fits_turnsFor ?_ (hnone _ node hfind)
      rw [map_fst_turnsFor]
      exact hlose node hfind

theorem quiet_reTrans (preprocess : Bool) (flags : UInt32) (node : DpNode) (dps : List DpObj) :
    Quiet .reTrans flags (entriesFor preprocess .reTrans node dps) node := by
  intro dp hdp
  obtain ⟨-, hgoes⟩ := List.mem_filter.1 hdp
  obtain ⟨hne, -⟩ := of_decide_eq_true (of_decide_eq_true hgoes).2
  exact absurd rfl hne

/-- A report that is rejected changes nothing if and only if, where an entry ends the check, the
entries up to it are needed by no node or have had their effect before; and otherwise one entry is
surely noted, or no node has a string to lose. -/
theorem keepsOnError_iff (h : valid.num = 0) :
    KeepsOnError schema dpin valid ↔
      RejectCond schema.preprocess dpin.reptType dpin.flags schema.nodes dpin.entries := by
  have hkeeps : KeepsOnError schema dpin valid ↔ ∀ malloc,
      let c := checkLoop schema.preprocess dpin.reptType dpin.flags malloc 0 dpin.entries
        schema.nodes
      ¬(c.1 = oprtOk ∧ c.2.2 ≠ []) →
        c.2.1.map DpNode.visible = schema.nodes.map DpNode.visible := by
    refine forall_congr' fun malloc => ?_
    obtain ⟨hok, hnodes, -⟩ := @dpReptValidCheck_ok_iff schema malloc dpin valid h
    dsimp only
    rw [hnodes, Ne, hok]
  rw [hkeeps, RejectCond]
  dsimp only
  by_cases hends : ∃ dp ∈ dpin.entries,
      endsCheck schema.preprocess dpin.reptType schema.nodes dp = true
  · obtain ⟨dp, hdp, hend⟩ := hends
    have hnot : ¬∀ dp ∈ dpin.entries,
        endsCheck schema.preprocess dpin.reptType schema.nodes dp = false := fun hall => by
      rw [hall dp hdp] at hend
      cases hend
    rw [and_iff_left fun hall => absurd hall hnot, forall_prop_of_true ⟨dp, hdp, hend⟩,
      ← keeps_iff_of_endsCheck]
    refine forall_congr' fun malloc => forall_prop_of_true fun hok => ?_
    exact checkLoop_of_endsCheck ⟨dp, hdp, hend⟩ 0 hok.1
  · have hnone : ∀ dp ∈ dpin.entries,
        endsCheck schema.preprocess dpin.reptType schema.nodes dp = false := fun dp hdp =>
      Bool.not_eq_true _ |>.mp fun hend => hends ⟨dp, hdp, hend⟩
    rw [and_iff_right fun hend => absurd hend hends, forall_prop_of_true hnone]
    by_cases htrans : dpin.reptType = .reTrans
    · rw [htrans]
      refine iff_of_true (fun malloc _ => ?_) (Or.inr fun node _ => Or.inl (quiet_reTrans _ _ _ _))
      refine (map_visible_checkLoop_iff 0 _ _).2 fun node _ => visible_of_kept fits_turnsFor ?_
      rw [map_fst_turnsFor]
      exact Or.inl (quiet_reTrans _ _ _ _)
    · rw [← keeps_iff_of_not_endsCheck htrans hnone]
      refine forall_congr' fun malloc => ?_
      obtain ⟨hok, -⟩ := @checkLoop_of_not_endsCheck schema.preprocess dpin.reptType dpin.flags
        malloc schema.nodes dpin.entries htrans hnone 0
      rw [hok]
      simp only [true_and, ne_eq, not_not]

end Report

def faultOn : DpObj := { id := 9, value := .bool true, timeStamp := 0 }

/-- A report of that entry alone is rejected and changes nothing. -/
theorem keepsOnError_faultOn :
    KeepsOnError ⟨[], false, [faultNode]⟩ ⟨.obj, 0, 1, [faultOn]⟩ ⟨0, 0, 0, [0], []⟩ := by
  refine (keepsOnError_iff rfl).2 ⟨fun _ node hfind => Or.inl ?_, fun h => ?_⟩
  · obtain rfl := List.mem_singleton.1 (List.mem_of_find?_eq_some hfind)
    have hnone : entriesFor false .obj faultNode
        (checkedEntries false .obj [faultNode] [faultOn]) = [] := by decide
    intro dp hdp
    exact absurd (hnone ▸ hdp) List.not_mem_nil
  · exact absurd (h faultOn List.mem_cons_self) (by decide)

/-- Behind an entry that is taken, the entry of the wrong type leaves a changed node. -/
theorem not_keepsOnError_switchOn :
    ¬KeepsOnError ⟨[], false, [switchNode, faultNode]⟩ ⟨.obj, 0, 2, [switchOn, faultOn]⟩
      ⟨0, 0, 0, [0, 0], []⟩ := by
  intro h
  exact absurd (h (fun _ => true) (by decide)) (by decide)

end TuyaOpen.Dp
