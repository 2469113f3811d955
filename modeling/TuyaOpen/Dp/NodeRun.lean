import TuyaOpen.Dp.CheckLoop

/-!
# The entries for one node

In the check of a report the entries for a data point go to its node one after another. An entry is
needed when the node has not been uploaded, or when its value is not the cached one. An entry that
is needed is stored, or the node loses its string for want of memory; the first entry that is stored
makes all later ones needed.

## Main results

* `dpReptUpdate_of_needed`: an entry that is needed.
* `nodeRun_of_needed`: a run in which there is memory.
* `nodeRun_of_none`: a run from a node without its string.
-/

namespace TuyaOpen.Dp

/-! ### An entry and its node -/

/-- What a report can change in a node: the cached value, the mark and the time. -/
def DpNode.visible (node : DpNode) : Option DpValue × PvStat × UInt32 :=
  (node.prop.cached, node.pvStat, node.timeStamp)

/-- An entry goes to its node: it has the type of the property and passes the check of the type. -/
structure FitsNode (dp : DpObj) (node : DpNode) : Prop where
  type : dp.value.type = some node.prop.propTp
  notFile : node.desc.type ≠ .file
  check : node.desc.type = .obj → dpValueCheck dp.value node.prop = true

/-- The node needs the entry: it has not been uploaded, or the value is not the cached one. -/
def Needed (reptType : ReptType) (flags : UInt32) (dp : DpObj) (node : DpNode) : Prop :=
  isNeedUpdate reptType flags node = true ∨ node.prop.cached ≠ some dp.value

instance (reptType : ReptType) (flags : UInt32) (dp : DpObj) (node : DpNode) :
    Decidable (Needed reptType flags dp node) :=
  inferInstanceAs (Decidable (_ ∨ _))

/-- The time after an entry: a report of statistics takes that of the entry. -/
def stampAfter (reptType : ReptType) (stamp : UInt32) (dp : DpObj) : UInt32 :=
  if reptType = .stat then dp.timeStamp else stamp

/-- The node has taken the entry. A value that fits the buffer leaves the buffer as it is. -/
structure Stored (reptType : ReptType) (dp : DpObj) (node node' : DpNode) : Prop where
  kind : node'.kind = node.kind
  cached : node'.prop.cached = some dp.value
  pvStat : node'.pvStat = .statLocal
  timeStamp : node'.timeStamp = stampAfter reptType node.timeStamp dp
  room : CanStore false dp.value node.prop →
    ∀ value, CanStore false value node'.prop ↔ CanStore false value node.prop

structure Lost (reptType : ReptType) (dp : DpObj) (node node' : DpNode) : Prop where
  kind : node'.kind = node.kind
  cached : node'.prop.cached = none
  pvStat : node'.pvStat = node.pvStat
  timeStamp : node'.timeStamp = stampAfter reptType node.timeStamp dp

section Entry

variable {reptType : ReptType} {flags : UInt32} {malloc : Bool} {dp : DpObj} {node node' : DpNode}

theorem fitsNode_of_dpTypeCheck (htype : dp.value.type = some node.prop.propTp)
    (hcheck : dpTypeCheck reptType dp node = true) : FitsNode dp node := by
  rw [dpTypeCheck] at hcheck
  split_ifs at hcheck
  refine ⟨htype, fun hfile => ?_, fun hobj => ?_⟩
  · rw [hfile] at hcheck
    cases hcheck
  · rw [hobj] at hcheck
    exact hcheck

theorem fitsNode_congr (h : node'.kind = node.kind) : FitsNode dp node' ↔ FitsNode dp node := by
  have heq : ∀ {n n' : DpNode}, n'.kind = n.kind → FitsNode dp n → FitsNode dp n' := by
    intro n n' hkind hfits
    have hdesc := desc_eq_of_kind hkind
    refine ⟨hfits.type.trans (congrArg some (propTp_eq_of_kind hkind).symm), ?_, fun hobj => ?_⟩
    · rw [hdesc]
      exact hfits.notFile
    · rw [hdesc] at hobj
      rw [check_eq_of_kind hkind]
      exact hfits.check hobj
  exact ⟨heq h.symm, heq h⟩

theorem ne_stat_of_not_needed (h : ¬Needed reptType flags dp node) : reptType ≠ .stat := by
  rintro rfl
  exact h (Or.inl (by simp [isNeedUpdate]))

theorem needed_of_local (h : node.pvStat = .statLocal) (dp : DpObj) :
    Needed reptType flags dp node := Or.inl (by simp [isNeedUpdate, h])

theorem cached_of_not_needed (h : ¬Needed reptType flags dp node) :
    node.prop.cached = some dp.value := not_not.1 fun hne => h (Or.inr hne)

theorem dpReptUpdate_of_not_needed (hobj : node.desc.type = .obj)
    (h : ¬Needed reptType flags dp node) :
    dpReptUpdate reptType flags malloc dp node = (true, node) := by
  have hstat := ne_stat_of_not_needed h
  have hneed : isNeedUpdate reptType flags node = false :=
    Bool.not_eq_true _ |>.mp fun htrue => h (Or.inl htrue)
  rw [dpReptUpdate, hobj]
  dsimp only
  rw [hneed, updateProp_of_cached (cached_of_not_needed h), if_neg Bool.false_ne_true,
    if_neg fun hand => hstat hand.2]

/-- **An entry that is needed.** It is stored, and noted; or the node loses its string. -/
theorem dpReptUpdate_of_needed (hobj : node.desc.type = .obj) (hfits : FitsNode dp node)
    (h : Needed reptType flags dp node) :
    (CanStore malloc dp.value node.prop ∧
        ∃ node', dpReptUpdate reptType flags malloc dp node = (false, node') ∧
          Stored reptType dp node node') ∨
      (¬CanStore malloc dp.value node.prop ∧
        ∃ node', dpReptUpdate reptType flags malloc dp node = (true, node') ∧
          Lost reptType dp node node') := by
  have hcheck := hfits.check hobj
  have hkind := kind_dpReptUpdate reptType flags malloc dp node
  have hprop := @updateProp_eq_of_needed _ malloc _ _ hcheck hfits.type h
  have hupdate : dpReptUpdate reptType flags malloc dp node =
      let r := updateProp true malloc dp.value node.prop
      let node :=
        { node with
          prop := r.2
          timeStamp :=
            if node.prop.propTp = .str ∧ reptType = .stat then dp.timeStamp else node.timeStamp }
      if r.1 then (false, markLocal reptType dp node) else (true, node) := by
    rw [dpReptUpdate, hobj]
    dsimp only
    rw [hprop]
  dsimp only at hupdate
  rcases @updateProp_need malloc dp.value node.prop hcheck hfits.type with
    ⟨hstore, hneed, hcached, hroom⟩ | ⟨hstore, hneed, hcached⟩
  · rw [hneed, if_pos rfl] at hupdate
    rw [hupdate] at hkind
    refine Or.inl ⟨hstore, _, hupdate, hkind, hcached, rfl, ?_, hroom⟩
    rw [markLocal, stampAfter]
    dsimp only
    by_cases hstat : reptType = .stat
    · rw [if_pos hstat, if_pos hstat]
    · rw [if_neg hstat, if_neg hstat, if_neg fun hand => hstat hand.2]
  · rw [hneed, if_neg Bool.false_ne_true] at hupdate
    rw [hupdate] at hkind
    refine Or.inr ⟨hstore, _, hupdate, hkind, hcached, rfl, ?_⟩
    have hstr : node.prop.propTp = .str := by
      cases hprop : node.prop with
      | str maxLen curLen old => rfl
      | _ =>
        rw [hprop] at hstore
        exact absurd (by cases dp.value <;> trivial) hstore
    rw [stampAfter]
    dsimp only
    by_cases hstat : reptType = .stat
    · rw [if_pos hstat, if_pos ⟨hstr, hstat⟩]
    · rw [if_neg hstat, if_neg fun hand => hstat hand.2]

theorem dpReptUpdate_raw (hraw : node.desc.type = .raw) :
    dpReptUpdate reptType flags malloc dp node = (false, markLocal reptType dp node) := by
  rw [dpReptUpdate, hraw]

theorem visible_markLocal (reptType : ReptType) (dp : DpObj) (node : DpNode) :
    (markLocal reptType dp node).visible =
      (node.prop.cached, .statLocal, stampAfter reptType node.timeStamp dp) := rfl

end Entry

/-! ### The entries one after another -/

/-- The entries for a node, each with whether a buffer for a string can be had: whether one of them
is noted, and the node. -/
def nodeRun (reptType : ReptType) (flags : UInt32) : List (DpObj × Bool) → DpNode → Bool × DpNode
  | [], node => (false, node)
  | turn :: turns, node =>
    let r := dpReptUpdate reptType flags turn.2 turn.1 node
    let s := nodeRun reptType flags turns r.2
    (!r.1 || s.1, s.2)

def withMalloc (malloc : Bool) (dps : List DpObj) : List (DpObj × Bool) :=
  dps.map fun dp => (dp, malloc)

def lastValue (cached : Option DpValue) (dps : List DpObj) : Option DpValue :=
  dps.foldl (fun _ dp => some dp.value) cached

def lastStamp (reptType : ReptType) (stamp : UInt32) (dps : List DpObj) : UInt32 :=
  dps.foldl (stampAfter reptType) stamp

def StoresAll (turns : List (DpObj × Bool)) (node : DpNode) : Prop :=
  (∀ turn ∈ turns, turn.2 = true) ∨ ∀ turn ∈ turns, CanStore false turn.1.value node.prop

section Run

variable {reptType : ReptType} {flags : UInt32} {turns : List (DpObj × Bool)} {node : DpNode}

theorem nodeRun_cons {turn : DpObj × Bool} {skip : Bool} {node' : DpNode}
    (h : dpReptUpdate reptType flags turn.2 turn.1 node = (skip, node')) :
    nodeRun reptType flags (turn :: turns) node =
      (!skip || (nodeRun reptType flags turns node').1,
        (nodeRun reptType flags turns node').2) := by
  rw [nodeRun, h]

theorem fits_tail {turn : DpObj × Bool} {node' : DpNode} (hkind : node'.kind = node.kind)
    (h : ∀ e ∈ turn :: turns, FitsNode e.1 node) : ∀ e ∈ turns, FitsNode e.1 node' :=
  fun e he => (fitsNode_congr hkind).2 (h e (List.mem_cons_of_mem _ he))

theorem canStore_of_malloc {malloc : Bool} {value : DpValue} {prop : DpProp}
    (h : malloc = true ∨ CanStore false value prop) : CanStore malloc value prop := by
  cases value with
  | str s => cases prop with
    | str maxLen curLen old =>
      exact h.imp_right fun hstore => hstore.resolve_left Bool.false_ne_true
    | _ => trivial
  | _ => trivial

theorem StoresAll.head {turn : DpObj × Bool} (h : StoresAll (turn :: turns) node) :
    CanStore turn.2 turn.1.value node.prop :=
  canStore_of_malloc (h.imp (fun hmalloc => hmalloc turn List.mem_cons_self)
    fun hroom => hroom turn List.mem_cons_self)

theorem StoresAll.tail {turn : DpObj × Bool} {node' : DpNode}
    (h : StoresAll (turn :: turns) node) (hstored : Stored reptType turn.1 node node') :
    StoresAll turns node' := by
  rcases h with hmalloc | hroom
  · exact Or.inl fun e he => hmalloc e (List.mem_cons_of_mem _ he)
  · have hhead := hroom turn List.mem_cons_self
    exact Or.inr fun e he => (hstored.room hhead _).2 (hroom e (List.mem_cons_of_mem _ he))

theorem nodeRun_append (hobj : node.desc.type = .obj) {init : List (DpObj × Bool)}
    (h : ∀ turn ∈ init, ¬Needed reptType flags turn.1 node) :
    nodeRun reptType flags (init ++ turns) node = nodeRun reptType flags turns node := by
  induction init with
  | nil => rfl
  | cons turn init ih =>
    obtain ⟨hhead, htail⟩ := List.forall_mem_cons.1 h
    rw [List.cons_append, nodeRun_cons (dpReptUpdate_of_not_needed hobj hhead), ih htail]
    rfl

theorem nodeRun_of_not_needed (hobj : node.desc.type = .obj)
    (h : ∀ turn ∈ turns, ¬Needed reptType flags turn.1 node) :
    nodeRun reptType flags turns node = (false, node) := by
  have hrun := @nodeRun_append reptType flags [] node hobj turns h
  rwa [List.append_nil] at hrun

theorem nodeRun_raw (hraw : node.desc.type = .raw) (hne : turns ≠ []) :
    (nodeRun reptType flags turns node).1 = true ∧
      (nodeRun reptType flags turns node).2.visible = (node.prop.cached, .statLocal,
        lastStamp reptType node.timeStamp (turns.map Prod.fst)) := by
  induction turns generalizing node with
  | nil => exact absurd rfl hne
  | cons turn turns ih =>
    rw [nodeRun_cons (dpReptUpdate_raw hraw)]
    refine ⟨rfl, ?_⟩
    by_cases htail : turns = []
    · rw [htail]
      exact visible_markLocal _ _ _
    · exact (@ih (markLocal reptType turn.1 node) hraw htail).2

theorem nodeRun_of_local (hobj : node.desc.type = .obj) (hfits : ∀ e ∈ turns, FitsNode e.1 node)
    (hlocal : node.pvStat = .statLocal) (hstore : StoresAll turns node) :
    (nodeRun reptType flags turns node).2.visible =
      (lastValue node.prop.cached (turns.map Prod.fst), .statLocal,
        lastStamp reptType node.timeStamp (turns.map Prod.fst)) := by
  induction turns generalizing node with
  | nil =>
    rw [nodeRun, DpNode.visible, hlocal]
    rfl
  | cons turn turns ih =>
    obtain ⟨-, node', hupdate, hstored⟩ | ⟨hlost, -⟩ :=
      @dpReptUpdate_of_needed reptType flags turn.2 turn.1 node hobj (hfits turn List.mem_cons_self)
        (needed_of_local hlocal turn.1)
    · have hobj' : node'.desc.type = .obj := (desc_eq_of_kind hstored.kind).symm ▸ hobj
      rw [nodeRun_cons hupdate,
        ih hobj' (fits_tail hstored.kind hfits) hstored.pvStat (hstore.tail hstored),
        hstored.cached, hstored.timeStamp]
      rfl
    · exact absurd hstore.head hlost

/-- **A run with memory for all values.** As soon as an entry is needed the node ends with the value
of the last one. -/
theorem nodeRun_of_needed (hobj : node.desc.type = .obj) (hfits : ∀ e ∈ turns, FitsNode e.1 node)
    (hneed : ∃ turn ∈ turns, Needed reptType flags turn.1 node) (hstore : StoresAll turns node) :
    (nodeRun reptType flags turns node).1 = true ∧
      (nodeRun reptType flags turns node).2.visible =
        (lastValue node.prop.cached (turns.map Prod.fst), .statLocal,
          lastStamp reptType node.timeStamp (turns.map Prod.fst)) := by
  induction turns with
  | nil => exact absurd hneed (by simp)
  | cons turn turns ih =>
    by_cases hhead : Needed reptType flags turn.1 node
    · obtain ⟨-, node', hupdate, hstored⟩ | ⟨hlost, -⟩ :=
        dpReptUpdate_of_needed hobj (hfits turn List.mem_cons_self) hhead
      · have hobj' : node'.desc.type = .obj := (desc_eq_of_kind hstored.kind).symm ▸ hobj
        rw [nodeRun_cons hupdate, nodeRun_of_local hobj' (fits_tail hstored.kind hfits)
          hstored.pvStat (hstore.tail hstored), hstored.cached, hstored.timeStamp]
        exact ⟨rfl, rfl⟩
      · exact absurd hstore.head hlost
    · -- the entry is passed over, and has the value and leaves the time as they are
      have htail : ∃ turn ∈ turns, Needed reptType flags turn.1 node := by
        obtain ⟨e, he, hneed⟩ := hneed
        rcases List.mem_cons.1 he with rfl | he
        · exact absurd hneed hhead
        · exact ⟨e, he, hneed⟩
      have hstamp : stampAfter reptType node.timeStamp turn.1 = node.timeStamp :=
        if_neg (ne_stat_of_not_needed hhead)
      obtain ⟨hnoted, hvisible⟩ := ih (fits_tail rfl hfits) htail
        (hstore.imp (fun h e he => h e (List.mem_cons_of_mem _ he))
          fun h e he => h e (List.mem_cons_of_mem _ he))
      rw [nodeRun_cons (dpReptUpdate_of_not_needed hobj hhead)]
      refine ⟨hnoted, hvisible.trans ?_⟩
      rw [lastValue, lastValue, lastStamp, lastStamp, List.map_cons, List.foldl_cons,
        List.foldl_cons, hstamp, cached_of_not_needed hhead]

theorem not_canStore_of_none {dp : DpObj} (hfits : FitsNode dp node)
    (hnone : node.prop.cached = none) : ¬CanStore false dp.value node.prop := by
  have htype := hfits.type
  cases hprop : node.prop with
  | str maxLen curLen old =>
    rw [hprop] at hnone htype
    have hold : old = none := Option.map_eq_none_iff.1 hnone
    cases hvalue : dp.value with
    | str s =>
      rintro (hmalloc | hfits)
      · cases hmalloc
      · exact hfits.1 hold
    | _ =>
      rw [hvalue] at htype
      cases htype
  | _ =>
    rw [hprop] at hnone
    cases hnone

/-- **A run from a node without its string.** Without memory no entry is noted; and if none is, only
the time changes. -/
theorem nodeRun_of_none (hobj : node.desc.type = .obj) (hfits : ∀ e ∈ turns, FitsNode e.1 node)
    (hnone : node.prop.cached = none) :
    ((∀ turn ∈ turns, turn.2 = false) → (nodeRun reptType flags turns node).1 = false) ∧
      ((nodeRun reptType flags turns node).1 = false →
        (nodeRun reptType flags turns node).2.visible =
          (none, node.pvStat, lastStamp reptType node.timeStamp (turns.map Prod.fst))) := by
  induction turns generalizing node with
  | nil =>
    rw [nodeRun, DpNode.visible, hnone]
    exact ⟨fun _ => rfl, fun _ => rfl⟩
  | cons turn turns ih =>
    have hhead := hfits turn List.mem_cons_self
    have hneed : Needed reptType flags turn.1 node := Or.inr (by simp [hnone])
    obtain ⟨hstore, node', hupdate, -⟩ | ⟨-, node', hupdate, hlost⟩ :=
      dpReptUpdate_of_needed hobj hhead hneed
    · rw [nodeRun_cons hupdate]
      refine ⟨fun hmalloc => ?_, fun h => by cases h⟩
      rw [hmalloc turn List.mem_cons_self] at hstore
      exact absurd hstore (not_canStore_of_none hhead hnone)
    · have hobj' : node'.desc.type = .obj := (desc_eq_of_kind hlost.kind).symm ▸ hobj
      obtain ⟨hnoted, hvisible⟩ := ih hobj' (fits_tail hlost.kind hfits) hlost.cached
      rw [nodeRun_cons hupdate]
      refine ⟨fun hmalloc => hnoted fun e he => hmalloc e (List.mem_cons_of_mem _ he), fun h => ?_⟩
      rw [hvisible h, hlost.pvStat, hlost.timeStamp]
      rfl

theorem cached_nodeRun_of_local (hobj : node.desc.type = .obj)
    (hfits : ∀ e ∈ turns, FitsNode e.1 node) (hlocal : node.pvStat = .statLocal)
    (hmalloc : ∀ turn ∈ turns, turn.2 = false)
    (hlost : ∃ turn ∈ turns, ¬CanStore false turn.1.value node.prop) :
    (nodeRun reptType flags turns node).2.prop.cached = none := by
  induction turns generalizing node with
  | nil => exact absurd hlost (by simp)
  | cons turn turns ih =>
    obtain ⟨hmallocHead, hmallocTail⟩ := List.forall_mem_cons.1 hmalloc
    obtain ⟨hstore, node', hupdate, hstored⟩ | ⟨-, node', hupdate, hlostHead⟩ :=
      @dpReptUpdate_of_needed reptType flags turn.2 turn.1 node hobj (hfits turn List.mem_cons_self)
        (needed_of_local hlocal turn.1)
    · rw [hmallocHead] at hstore
      have hobj' : node'.desc.type = .obj := (desc_eq_of_kind hstored.kind).symm ▸ hobj
      rw [nodeRun_cons hupdate]
      refine ih hobj' (fits_tail hstored.kind hfits) hstored.pvStat hmallocTail ?_
      obtain ⟨e, he, hnot⟩ := hlost
      rcases List.mem_cons.1 he with rfl | he
      · exact absurd hstore hnot
      · exact ⟨e, he, fun h => hnot ((hstored.room hstore _).1 h)⟩
    · have hobj' : node'.desc.type = .obj := (desc_eq_of_kind hlostHead.kind).symm ▸ hobj
      obtain ⟨hnoted, hvisible⟩ := @nodeRun_of_none reptType flags turns node' hobj'
        (fits_tail hlostHead.kind hfits) hlostHead.cached
      rw [nodeRun_cons hupdate]
      exact congrArg Prod.fst (hvisible (hnoted hmallocTail))

end Run

/-! ### What the entries leave of the node -/

/-- No entry is for the node: it is one of objects, and no entry is needed. -/
def Quiet (reptType : ReptType) (flags : UInt32) (dps : List DpObj) (node : DpNode) : Prop :=
  ∀ dp ∈ dps, node.desc.type = .obj ∧ ¬Needed reptType flags dp node

/-- The node is marked and has the time and the value of the last entry, and its buffer has room for
all values. -/
structure SameAgain (reptType : ReptType) (dps : List DpObj) (node : DpNode) : Prop where
  pvStat : node.pvStat = .statLocal
  cached : node.desc.type = .obj → lastValue node.prop.cached dps = node.prop.cached
  room : node.desc.type = .obj → ∀ dp ∈ dps, CanStore false dp.value node.prop
  timeStamp : lastStamp reptType node.timeStamp dps = node.timeStamp

/-- The entries are for a node that is not one of objects, or the first of them that is needed has a
value that fits the buffer. -/
def SurelyNoted (reptType : ReptType) (flags : UInt32) (dps : List DpObj) (node : DpNode) : Prop :=
  (node.desc.type = .raw ∧ dps ≠ []) ∨
    (node.desc.type = .obj ∧ ∃ init dp tail, dps = init ++ dp :: tail ∧
      (∀ e ∈ init, ¬Needed reptType flags e node) ∧ Needed reptType flags dp node ∧
      CanStore false dp.value node.prop)

/-- The node has no string to lose, and the time of the last entry. -/
structure LosesNothing (reptType : ReptType) (dps : List DpObj) (node : DpNode) : Prop where
  type : node.desc.type = .obj
  cached : node.prop.cached = none
  timeStamp : lastStamp reptType node.timeStamp dps = node.timeStamp

section Leave

variable {reptType : ReptType} {flags : UInt32} {turns : List (DpObj × Bool)} {dps : List DpObj}
  {node : DpNode}

theorem type_of_fitsNode {dp : DpObj} (h : FitsNode dp node) :
    node.desc.type = .obj ∨ node.desc.type = .raw := by
  cases htype : node.desc.type with
  | obj => exact Or.inl rfl
  | raw => exact Or.inr rfl
  | file => exact absurd htype h.notFile

theorem nodeRun_of_quiet (h : Quiet reptType flags (turns.map Prod.fst) node) :
    nodeRun reptType flags turns node = (false, node) := by
  cases turns with
  | nil => rfl
  | cons turn turns =>
    have hmem : ∀ e ∈ turn :: turns, e.1 ∈ (turn :: turns).map Prod.fst := fun e he =>
      List.mem_map_of_mem he
    exact nodeRun_of_not_needed (h _ (hmem turn List.mem_cons_self)).1 fun e he =>
      (h _ (hmem e he)).2

theorem visible_of_kept (hfits : ∀ e ∈ turns, FitsNode e.1 node)
    (h : Quiet reptType flags (turns.map Prod.fst) node ∨
      SameAgain reptType (turns.map Prod.fst) node) :
    (nodeRun reptType flags turns node).2.visible = node.visible := by
  rcases h with hquiet | hsame
  · rw [nodeRun_of_quiet hquiet]
  by_cases hne : turns = []
  · rw [hne]
    rfl
  obtain ⟨turn, hturn⟩ := List.exists_mem_of_ne_nil turns hne
  rw [DpNode.visible.eq_1 node, hsame.pvStat]
  rcases type_of_fitsNode (hfits turn hturn) with hobj | hraw
  · have hroom : StoresAll turns node :=
      Or.inr fun e he => hsame.room hobj _ (List.mem_map_of_mem he)
    rw [nodeRun_of_local hobj hfits hsame.pvStat hroom, hsame.cached hobj, hsame.timeStamp]
  · rw [(nodeRun_raw hraw hne).2, hsame.timeStamp]

theorem map_fst_withMalloc (malloc : Bool) (dps : List DpObj) :
    (withMalloc malloc dps).map Prod.fst = dps := by
  rw [withMalloc, List.map_map]
  exact List.map_id dps

theorem of_mem_withMalloc {malloc : Bool} {turn : DpObj × Bool}
    (h : turn ∈ withMalloc malloc dps) : turn.1 ∈ dps ∧ turn.2 = malloc := by
  obtain ⟨dp, hdp, rfl⟩ := List.mem_map.1 h
  exact ⟨hdp, rfl⟩

theorem fits_withMalloc (hfits : ∀ dp ∈ dps, FitsNode dp node) (malloc : Bool) :
    ∀ e ∈ withMalloc malloc dps, FitsNode e.1 node :=
  fun _ he => hfits _ (of_mem_withMalloc he).1

theorem lastValue_ne_none {cached : Option DpValue} (hne : dps ≠ []) :
    lastValue cached dps ≠ none := by
  induction dps generalizing cached with
  | nil => exact absurd rfl hne
  | cons dp dps ih =>
    by_cases htail : dps = []
    · rw [htail]
      exact Option.some_ne_none dp.value
    · exact ih htail

theorem lastStamp_of_not_needed (h : ∀ dp ∈ dps, ¬Needed reptType flags dp node)
    (stamp : UInt32) : lastStamp reptType stamp dps = stamp := by
  induction dps with
  | nil => rfl
  | cons dp dps ih =>
    obtain ⟨hhead, htail⟩ := List.forall_mem_cons.1 h
    rw [lastStamp, List.foldl_cons, stampAfter, if_neg (ne_stat_of_not_needed hhead), ← lastStamp,
      ih htail]

theorem kept_of_visible (hfits : ∀ dp ∈ dps, FitsNode dp node)
    (h : ∀ malloc, (nodeRun reptType flags (withMalloc malloc dps) node).2.visible =
      node.visible) :
    Quiet reptType flags dps node ∨ SameAgain reptType dps node := by
  by_cases hne : dps = []
  · rw [hne]
    exact Or.inl fun dp hdp => by cases hdp
  obtain ⟨dp, hdp⟩ := List.exists_mem_of_ne_nil dps hne
  have hlucky := h true
  rcases type_of_fitsNode (hfits dp hdp) with hobj | hraw
  · by_cases hneed : ∃ e ∈ dps, Needed reptType flags e node
    · have hstore : StoresAll (withMalloc true dps) node :=
        Or.inl fun turn hturn => (of_mem_withMalloc hturn).2
      obtain ⟨e, he, hneed⟩ := hneed
      have hneed' : ∃ turn ∈ withMalloc true dps, Needed reptType flags turn.1 node :=
        ⟨_, List.mem_map_of_mem he, hneed⟩
      rw [(nodeRun_of_needed hobj (fits_withMalloc hfits true) hneed' hstore).2,
        map_fst_withMalloc, DpNode.visible, Prod.mk.injEq, Prod.mk.injEq] at hlucky
      obtain ⟨hcached, hlocal, hstamp⟩ := hlucky
      refine Or.inr ⟨hlocal.symm, fun _ => hcached, fun _ => ?_, hstamp⟩
      -- without memory a value that does not fit the buffer would be lost
      by_contra hroom
      push Not at hroom
      obtain ⟨v, hv, hlost⟩ := hroom
      have hnone := @cached_nodeRun_of_local reptType flags (withMalloc false dps) node hobj
        (fits_withMalloc hfits false) hlocal.symm (fun turn hturn => (of_mem_withMalloc hturn).2)
        ⟨_, List.mem_map_of_mem hv, hlost⟩
      have hold : node.prop.cached = none := (congrArg Prod.fst (h false)).symm.trans hnone
      exact lastValue_ne_none hne (hcached.trans hold)
    · push Not at hneed
      exact Or.inl fun e he => ⟨hobj, hneed e he⟩
  · have hne' : withMalloc true dps ≠ [] := fun heq => hne (List.map_eq_nil_iff.1 heq)
    rw [(nodeRun_raw hraw hne').2, map_fst_withMalloc, DpNode.visible, Prod.mk.injEq,
      Prod.mk.injEq] at hlucky
    obtain ⟨-, hlocal, hstamp⟩ := hlucky
    have hnotObj : ∀ {p : Prop}, node.desc.type = .obj → p := fun hobj => by
      rw [hraw] at hobj
      cases hobj
    exact Or.inr ⟨hlocal.symm, hnotObj, hnotObj, hstamp⟩

theorem noted_of_surelyNoted (hfits : ∀ e ∈ turns, FitsNode e.1 node)
    (h : SurelyNoted reptType flags (turns.map Prod.fst) node) :
    (nodeRun reptType flags turns node).1 = true := by
  rcases h with ⟨hraw, hne⟩ | ⟨hobj, init, dp, tail, hsplit, hinit, hneed, hroom⟩
  · exact (nodeRun_raw hraw fun heq => hne (List.map_eq_nil_iff.2 heq)).1
  · obtain ⟨init', rest, rfl, rfl, hrest⟩ := List.map_eq_append_iff.1 hsplit
    obtain ⟨turn, tail', rfl, rfl, rfl⟩ := List.map_eq_cons_iff.1 hrest
    rw [nodeRun_append hobj fun e he => hinit _ (List.mem_map_of_mem he)]
    obtain ⟨-, node', hupdate, -⟩ | ⟨hlost, -⟩ :=
      @dpReptUpdate_of_needed reptType flags turn.2 turn.1 node hobj
        (hfits turn (List.mem_append_right _ List.mem_cons_self)) hneed
    · rw [nodeRun_cons hupdate]
      rfl
    · exact absurd (canStore_of_malloc (Or.inr hroom)) hlost

theorem visible_of_losesNothing (hfits : ∀ e ∈ turns, FitsNode e.1 node)
    (h : Quiet reptType flags (turns.map Prod.fst) node ∨
      LosesNothing reptType (turns.map Prod.fst) node)
    (hnoted : (nodeRun reptType flags turns node).1 = false) :
    (nodeRun reptType flags turns node).2.visible = node.visible := by
  rcases h with hquiet | hlost
  · rw [nodeRun_of_quiet hquiet]
  · rw [(nodeRun_of_none hlost.type hfits hlost.cached).2 hnoted, hlost.timeStamp, DpNode.visible,
      hlost.cached]

/-- Without memory no entry is noted, unless one surely is; and if the node is as it was, no entry
was for it, or it had no string to lose. -/
theorem losesNothing_of_visible (hfits : ∀ dp ∈ dps, FitsNode dp node)
    (h : ¬SurelyNoted reptType flags dps node) :
    (nodeRun reptType flags (withMalloc false dps) node).1 = false ∧
      ((nodeRun reptType flags (withMalloc false dps) node).2.visible = node.visible →
        Quiet reptType flags dps node ∨ LosesNothing reptType dps node) := by
  by_cases hne : dps = []
  · rw [hne]
    exact ⟨rfl, fun _ => Or.inl fun dp hdp => by cases hdp⟩
  obtain ⟨dp, hdp⟩ := List.exists_mem_of_ne_nil dps hne
  rcases type_of_fitsNode (hfits dp hdp) with hobj | hraw
  · cases hfind : dps.find? fun e => Needed reptType flags e node with
    | none =>
      have hquiet : Quiet reptType flags dps node := fun e he =>
        ⟨hobj, of_decide_eq_false (Bool.not_eq_true _ |>.mp (List.find?_eq_none.1 hfind e he))⟩
      have hrun := @nodeRun_of_quiet reptType flags (withMalloc false dps) node
        (by rwa [map_fst_withMalloc])
      rw [hrun]
      exact ⟨rfl, fun _ => Or.inl hquiet⟩
    | some first =>
      obtain ⟨hneed, init, tail, hsplit, hinit⟩ := List.find?_eq_some_iff_append.1 hfind
      have hneed := of_decide_eq_true hneed
      have hinit : ∀ e ∈ init, ¬Needed reptType flags e node := fun e he =>
        of_decide_eq_false (Bool.not_eq_true _ |>.mp (by simpa using hinit e he))
      have hroom : ¬CanStore false first.value node.prop := fun hroom =>
        h (Or.inr ⟨hobj, init, first, tail, hsplit, hinit, hneed, hroom⟩)
      have hturns : withMalloc false dps =
          withMalloc false init ++ (first, false) :: withMalloc false tail := by
        rw [withMalloc, hsplit, List.map_append]
        rfl
      have hfirst : first ∈ init ++ first :: tail :=
        List.mem_append_right _ List.mem_cons_self
      obtain ⟨hstore, -⟩ | ⟨-, node', hupdate, hlost⟩ :=
        @dpReptUpdate_of_needed reptType flags false first node hobj
          (hfits first (hsplit ▸ hfirst)) hneed
      · exact absurd hstore hroom
      have hobj' : node'.desc.type = .obj := (desc_eq_of_kind hlost.kind).symm ▸ hobj
      obtain ⟨hnoted, hvisible⟩ := @nodeRun_of_none reptType flags (withMalloc false tail) node'
        hobj' (fun e he => (fitsNode_congr hlost.kind).2 (hfits _ (hsplit ▸
          List.mem_append_right _ (List.mem_cons_of_mem _ (of_mem_withMalloc he).1)))) hlost.cached
      have hnoted := hnoted fun turn hturn => (of_mem_withMalloc hturn).2
      rw [hturns, nodeRun_append hobj fun e he => hinit _ (of_mem_withMalloc he).1,
        nodeRun_cons hupdate]
      refine ⟨hnoted, fun hsame => Or.inr ⟨hobj, ?_, ?_⟩⟩
      · rw [hvisible hnoted] at hsame
        exact (congrArg Prod.fst hsame).symm
      · rw [hvisible hnoted, hlost.timeStamp, map_fst_withMalloc] at hsame
        have hstamp : lastStamp reptType node.timeStamp dps =
            lastStamp reptType (stampAfter reptType node.timeStamp first) tail := by
          have hinit := lastStamp_of_not_needed hinit node.timeStamp
          rw [lastStamp] at hinit
          rw [lastStamp, hsplit, List.foldl_append, hinit, List.foldl_cons, lastStamp]
        exact hstamp.trans (congrArg (fun v => v.2.2) hsame)
  · exact absurd (Or.inl ⟨hraw, hne⟩) h

end Leave

end TuyaOpen.Dp
