import TuyaOpen.Dp.Sync

/-!
# The dump of the local values

`dp_obj_dump_stat_local_json` goes over the nodes twice. The first loop counts the objects that are
not marked as being in the cloud. The second one leaves out the objects that are marked, and packs
as many of the others as have been counted: a raw or a file node is none of the objects that are
counted, but it is not left out, and takes the place of one of them.
-/

namespace TuyaOpen.Dp

def localNodes (nodes : List DpNode) : List DpNode :=
  nodes.filter fun node => node.desc.type = .obj ∧ node.pvStat ≠ .statCloud

/-- The dump packs the local nodes and no others. The descriptor has their identifiers, and the text
has a member for each of them, with its value. Without such a node nothing is given out, and without
memory there is an error. -/
def DumpsExactly (malloc : Bool) (nodes : List DpNode) : Prop :=
  match dpObjDumpStatLocalJson malloc nodes with
  | .ok none => localNodes nodes = []
  | .ok (some p) =>
    dumped nodes = localNodes nodes ∧
      p.ids = (localNodes nodes).map (fun node => node.desc.id) ∧
      p.values.map (fun member => (member.1, some member.2)) =
        (localNodes nodes).map fun node => (node.desc.id, node.prop.cached)
  | .error rt => malloc = false ∧ rt = oprtMallocFailed

/-- No raw or file node stands before a local node, and every local node has a value. -/
def DumpCond (nodes : List DpNode) : Prop :=
  (nodes.Pairwise fun a b =>
    b.desc.type = .obj → b.pvStat ≠ .statCloud → a.desc.type = .obj) ∧
    ∀ node ∈ nodes, node.desc.type = .obj → node.pvStat ≠ .statCloud → node.prop.cached ≠ none

/-! ### Two selections -/

/-- A selection that is cut to the length of a smaller one is the smaller one just when nothing else
that it selects stands before an element of the smaller one. -/
theorem take_filter_eq_filter_iff {α : Type*} {p q : α → Bool} (hqp : ∀ a, q a = true → p a = true)
    (l : List α) :
    (l.filter p).take (l.filter q).length = l.filter q ↔
      l.Pairwise fun a b => q b = true → p a = true → q a = true := by
  induction l with
  | nil => simp
  | cons a l ih =>
    rw [List.pairwise_cons]
    by_cases hq : q a = true
    · have hall : ∀ b ∈ l, q b = true → p a = true → q a = true := fun _ _ _ _ => hq
      rw [List.filter_cons_of_pos (hqp a hq), List.filter_cons_of_pos hq, List.length_cons,
        List.take_succ_cons, List.cons.injEq, and_iff_right rfl, ih, and_iff_right hall]
    · rw [List.filter_cons_of_neg hq]
      by_cases hp : p a = true
      · rw [List.filter_cons_of_pos hp]
        constructor
        · intro htake
          -- The element takes a place, so that there is none to take.
          have hnil : l.filter q = [] := by
            cases hfilter : l.filter q with
            | nil => rfl
            | cons b bs =>
              rw [hfilter, List.length_cons, List.take_succ_cons] at htake
              have hmem : a ∈ l.filter q := by
                rw [hfilter, (List.cons.inj htake).1]
                exact List.mem_cons_self
              exact absurd (List.mem_filter.mp hmem).2 hq
          have hnone : ∀ b ∈ l, ¬q b = true := List.filter_eq_nil_iff.mp hnil
          exact ⟨fun b hb hqb => absurd hqb (hnone b hb),
            List.pairwise_of_forall_mem_list fun _ _ b hb hqb => absurd hqb (hnone b hb)⟩
        · rintro ⟨hhead, -⟩
          have hnil : l.filter q = [] :=
            List.filter_eq_nil_iff.mpr fun b hb hqb => hq (hhead b hb hqb hp)
          rw [hnil, List.length_nil, List.take_zero]
      · have hall : ∀ b ∈ l, q b = true → p a = true → q a = true :=
          fun _ _ _ hpa => absurd hpa hp
        rw [List.filter_cons_of_neg hp, ih, and_iff_right hall]

/-! ### The dump -/

section Dump

variable {nodes : List DpNode}

theorem dumpCount_eq (nodes : List DpNode) : dumpCount nodes = (localNodes nodes).length := rfl

theorem mem_localNodes {node : DpNode} :
    node ∈ localNodes nodes ↔
      node ∈ nodes ∧ node.desc.type = .obj ∧ node.pvStat ≠ .statCloud := by
  rw [localNodes, List.mem_filter, decide_eq_true_eq]

theorem dumped_eq_iff :
    dumped nodes = localNodes nodes ↔
      nodes.Pairwise fun a b =>
        b.desc.type = .obj → b.pvStat ≠ .statCloud → a.desc.type = .obj := by
  rw [dumped, dumpCount_eq, localNodes, take_filter_eq_filter_iff]
  · refine List.Pairwise.iff fun a b => ?_
    simp only [decide_eq_true_eq, not_and]
    constructor
    · intro h hb hstat
      by_contra ha
      exact ha (h ⟨hb, hstat⟩ fun hobj => absurd hobj ha).1
    · rintro h ⟨hb, hstat⟩ ha
      exact ⟨h hb hstat, ha (h hb hstat)⟩
  · intro node hnode
    have hlocal := of_decide_eq_true hnode
    exact decide_eq_true fun hcloud => hlocal.2 hcloud.2

theorem objJsonLen_pos {prop : DpProp} (h : prop.cached ≠ none) : 0 < objJsonLen prop := by
  cases prop with
  | str maxLen curLen value =>
    cases value with
    | none => exact absurd rfl h
    | some s => exact Nat.add_pos_left (by decide) _
  | enum ppEnum value => exact Nat.add_pos_left (by decide) _
  | bool value => exact Nat.succ_pos _
  | int min max value => exact Nat.succ_pos _
  | bitmap maxLen value => exact Nat.succ_pos _

theorem map_filterMap_cached_eq_iff (nodes : List DpNode) :
    (nodes.filterMap fun node => node.prop.cached.map fun value => (node.desc.id, value)).map
        (fun member => (member.1, some member.2)) =
      nodes.map (fun node => (node.desc.id, node.prop.cached)) ↔
      ∀ node ∈ nodes, node.prop.cached ≠ none := by
  constructor
  · intro h node hnode hnone
    have hmem : (node.desc.id, node.prop.cached) ∈ nodes.map fun node =>
        (node.desc.id, node.prop.cached) := List.mem_map_of_mem hnode
    rw [← h, List.mem_map] at hmem
    obtain ⟨member, -, hmember⟩ := hmem
    rw [hnone] at hmember
    cases congrArg Prod.snd hmember
  · intro h
    induction nodes with
    | nil => rfl
    | cons node nodes ih =>
      obtain ⟨value, hvalue⟩ := Option.ne_none_iff_exists'.mp (h node List.mem_cons_self)
      have htail := ih fun n hn => h n (List.mem_cons_of_mem _ hn)
      rw [List.filterMap_cons_some (b := (node.desc.id, value)) (by rw [hvalue]; rfl),
        List.map_cons, List.map_cons, htail, hvalue]

/-- **The dump of the local values.** With memory the descriptor and the text are those of the
objects that are not marked as being in the cloud, if and only if no raw or file node stands before
such an object, and each of them has a value. -/
theorem dumpsExactly_iff (malloc : Bool) (nodes : List DpNode) :
    DumpsExactly malloc nodes ↔ localNodes nodes = [] ∨ malloc = false ∨ DumpCond nodes := by
  have hvalues : (∀ node ∈ localNodes nodes, node.prop.cached ≠ none) ↔
      ∀ node ∈ nodes, node.desc.type = .obj → node.pvStat ≠ .statCloud →
        node.prop.cached ≠ none := by
    simp only [mem_localNodes, and_imp]
  rw [DumpsExactly, dpObjDumpStatLocalJson, dumpCount_eq]
  by_cases hnil : localNodes nodes = []
  · rw [if_pos (by rw [hnil]; rfl)]
    exact iff_of_true hnil (Or.inl hnil)
  have hcount : ¬(localNodes nodes).length = 0 := fun hlen => hnil (List.length_eq_zero_iff.mp hlen)
  rw [if_neg hcount, or_iff_right hnil]
  cases malloc with
  | false => exact iff_of_true ⟨rfl, rfl⟩ (Or.inl rfl)
  | true =>
    rw [if_neg Bool.noConfusion, or_iff_right Bool.noConfusion, DumpCond, ← dumped_eq_iff,
      ← hvalues]
    by_cases hsum : ((dumped nodes).map fun node => objJsonLen node.prop).sum = 0
    · rw [if_pos hsum]
      refine iff_of_false (fun h => Bool.noConfusion h.1) ?_
      rintro ⟨hdumped, hall⟩
      obtain ⟨node, hnode⟩ := List.exists_mem_of_ne_nil _ hnil
      rw [hdumped] at hsum
      have hzero : objJsonLen node.prop = 0 :=
        List.sum_eq_zero_iff_forall_eq_nat.mp hsum _ (List.mem_map_of_mem hnode)
      exact absurd hzero (objJsonLen_pos (hall node hnode)).ne'
    · rw [if_neg hsum]
      dsimp only
      refine and_congr_right fun hdumped => ?_
      rw [hdumped, map_filterMap_cached_eq_iff, and_iff_right rfl]

end Dump

def rawSwitchNodes : List DpNode :=
  [{ switchNode with desc := { switchNode.desc with id := 7, type := .raw } },
    { switchNode with prop := .bool true, pvStat := .statLocal }]

/-- The raw node takes the place of the switch. -/
theorem not_dumpsExactly_rawSwitch :
    dpObjDumpStatLocalJson true rawSwitchNodes =
        .ok (some { ids := [7], values := [(7, .bool false)] }) ∧
      ¬DumpsExactly true rawSwitchNodes := by
  refine ⟨by decide +kernel, fun h => ?_⟩
  have hdumped : dumped rawSwitchNodes = localNodes rawSwitchNodes := h.1
  exact absurd hdumped (by decide +kernel)

end TuyaOpen.Dp
