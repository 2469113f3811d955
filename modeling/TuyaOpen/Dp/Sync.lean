import TuyaOpen.Basic.Transition
import TuyaOpen.Dp.Channels

/-!
# The cache and the cloud

The nodes of a schema together with the reports that the cloud has not acknowledged. A report over
MQTT waits for its acknowledgement, and one over another channel starts the synchronisation, which
later publishes every node whose value is not marked as being in the cloud. An acknowledgement marks
the nodes of its report, whatever value they have by then. When it comes after a newer report of the
same data point, and the newer one fails, the newer value is marked as being in the cloud without
ever having been acknowledged.

Publishing and its acknowledgement are separate steps, so that acknowledgements come in any order
and at any time, or not at all.

## Main results

* `CloudInv.dpObjReport`, `CloudInv.dpSyncCb`: one step.
* `noLostUpdate_of_guarded`: in a run whose steps meet the condition no update is lost.
* `exists_not_noLostUpdate`: an acknowledgement that comes after a newer report.
-/

namespace TuyaOpen.Dp

/-! ### The machine -/

/-- A report that has been published: the identifiers of its descriptor, and the values in its text. -/
structure Publish where
  ids : List UInt8
  values : List (UInt8 × DpValue)
  deriving DecidableEq

def Publish.value (p : Publish) (id : UInt8) : Option DpValue := p.values.lookup id

/-- The state: the schema, the reports that wait for their acknowledgement, whether the
synchronisation has been started, and the value that has last been acknowledged for each data
point. -/
structure SyncState where
  schema : DpSchema
  inFlight : List Publish
  syncPending : Bool
  acked : UInt8 → Option DpValue

/-- What can happen: a report, the acknowledgement or the failure of the report at a place of the
queue, or the turn of the synchronisation. -/
inductive SyncEvent
  | report (abi : Abi) (heap : HeapContents) (env : ReportEnv) (dps : List DpObj) (flags : UInt32)
  | ack (k : Nat)
  | fail (k : Nat)
  | sync (isConnected malloc queued : Bool)

/-- `dp_sync_cb` for a report that has been acknowledged. -/
def dpSyncCb (nodes : List DpNode) (ids : List UInt8) : List DpNode :=
  ids.foldl (fun nodes id => dpPvStatSet nodes id .statCloud) nodes

/-- The nodes that `dp_obj_dump_stat_local_json` counts. -/
def dumpCount (nodes : List DpNode) : Nat :=
  (nodes.filter fun node => node.desc.type = .obj ∧ node.pvStat ≠ .statCloud).length

/-- The nodes that it puts into the text: as many as it has counted, of all that are not marked as
being in the cloud, those that are no objects included. -/
def dumped (nodes : List DpNode) : List DpNode :=
  (nodes.filter fun node => ¬(node.desc.type = .obj ∧ node.pvStat = .statCloud)).take
    (dumpCount nodes)

/-- The length that `dp_obj_json_create` counts for a node. -/
def objJsonLen : DpProp → Nat
  | .bool _ => 10
  | .int _ _ _ => 10
  | .str _ _ value => (value.map fun s => 10 + s.length).getD 0
  | .enum ppEnum value => 10 + (ppEnum.getD value.toNat []).length
  | .bitmap _ _ => 10

/-- `dp_obj_dump_stat_local_json`: what is to be published, if anything. -/
def dpObjDumpStatLocalJson (malloc : Bool) (nodes : List DpNode) :
    Except OperateRet (Option Publish) :=
  if dumpCount nodes = 0 then .ok none
  else if malloc = false then .error oprtMallocFailed
  else if ((dumped nodes).map fun node => objJsonLen node.prop).sum = 0 then
    .error oprtSvcDpIdNotFound
  else
    .ok (some
      { ids := (dumped nodes).map fun node => node.desc.id
        values := (dumped nodes).filterMap fun node =>
          node.prop.cached.map fun value => (node.desc.id, value) })

/-- `tuya_iot_dp_sync_process`. When there is nothing to publish, the text is missing and the report
is refused. -/
def syncProcess (st : SyncState) (isConnected malloc queued : Bool) : SyncState :=
  if st.syncPending = false then st
  else if isConnected = false then st
  else
    match dpObjDumpStatLocalJson malloc st.schema.nodes with
    | .error _ => st
    | .ok none => { st with syncPending := false }
    | .ok (some p) =>
      { st with
        syncPending := false
        inFlight := if queued then st.inFlight ++ [p] else st.inFlight }

/-- What is left of a report when `tuya_iot_dp_obj_report` has returned. -/
def reportStep (st : SyncState) (out : ReportOut) : SyncState :=
  let st := { st with schema := { st.schema with nodes := out.nodes } }
  match out.sent with
  | some (.ble _) => { st with syncPending := true }
  | some (.lan _) => { st with syncPending := true }
  | some (.mqtt _ values) =>
    if out.ret = oprtOk then
      { st with inFlight := st.inFlight ++ [{ ids := out.ids, values := values }] }
    else st
  | none => st

def ackStep (st : SyncState) (k : Nat) : SyncState :=
  match st.inFlight[k]? with
  | none => st
  | some p =>
    { st with
      schema := { st.schema with nodes := dpSyncCb st.schema.nodes p.ids }
      inFlight := st.inFlight.eraseIdx k
      acked := fun id => if id ∈ p.ids then (p.value id).or (st.acked id) else st.acked id }

/-- The report at a place of the queue fails, or is not acknowledged in time. -/
def failStep (st : SyncState) (k : Nat) : SyncState :=
  match st.inFlight[k]? with
  | none => st
  | some _ => { st with inFlight := st.inFlight.eraseIdx k, syncPending := true }

def syncStep (st : SyncState) : SyncEvent → SyncState
  | .report abi heap env dps flags =>
    reportStep st (dpObjReport abi heap env (some st.schema) dps flags)
  | .ack k => ackStep st k
  | .fail k => failStep st k
  | .sync isConnected malloc queued => syncProcess st isConnected malloc queued

def syncInit (schema : DpSchema) : SyncState where
  schema := schema
  inFlight := []
  syncPending := false
  acked _ := none

/-! ### What is to hold -/

/-- A value of an object that is not the one that the cloud has last acknowledged is not marked as
being in the cloud; and the next synchronisation publishes it, if the schema has objects only. -/
def NoLostUpdate (st : SyncState) : Prop :=
  ∀ node ∈ st.schema.nodes, node.desc.type = .obj → node.prop.cached ≠ st.acked node.desc.id →
    node.pvStat ≠ .statCloud ∧
      ((∀ n ∈ st.schema.nodes, n.desc.type = .obj) → node ∈ dumped st.schema.nodes)

/-- The condition on a step: a report does not lose a string for want of memory, and when a report
is acknowledged, its data points have the values that it has published. -/
def SyncCond (st : SyncState) : SyncEvent → Prop
  | .report _ _ env _ _ => ∀ i, env.mallocStr i = true
  | .ack k => ∀ p, st.inFlight[k]? = some p → ∀ id ∈ p.ids, ∀ node,
      dpNodeFind st.schema.nodes id = some node → node.desc.type = .obj →
      node.prop.cached = p.value id
  | _ => True

/-! ### Nodes that are found -/

section Nodes

variable {nodes : List DpNode} {id : UInt8} {f : DpNode → DpNode}

/-- Only the first node with an identifier may be marked as being in the cloud. -/
def FirstOnly (nodes : List DpNode) : Prop :=
  nodes.Pairwise fun a b => a.desc.id = b.desc.id → b.pvStat ≠ .statCloud

theorem mem_dpNodeSet {node : DpNode} (h : node ∈ dpNodeSet nodes id f) :
    node ∈ nodes ∨ ∃ n, dpNodeFind nodes id = some n ∧ node = f n := by
  induction nodes with
  | nil => cases h
  | cons n nodes ih =>
    rw [dpNodeSet] at h
    rw [dpNodeFind_cons]
    by_cases hid : n.desc.id = id
    · rw [if_pos hid] at h
      rw [if_pos hid]
      rcases List.mem_cons.mp h with rfl | h
      · exact Or.inr ⟨n, rfl, rfl⟩
      · exact Or.inl (List.mem_cons_of_mem _ h)
    · rw [if_neg hid] at h
      rw [if_neg hid]
      rcases List.mem_cons.mp h with rfl | h
      · exact Or.inl List.mem_cons_self
      · exact (ih h).imp_left (List.mem_cons_of_mem _)

theorem FirstOnly.dpNodeSet (h : FirstOnly nodes)
    (hf : ∀ node, dpNodeFind nodes id = some node → (f node).desc.id = id) :
    FirstOnly (dpNodeSet nodes id f) := by
  induction nodes with
  | nil => exact h
  | cons n nodes ih =>
    obtain ⟨hhead, htail⟩ := List.pairwise_cons.mp h
    rw [dpNodeFind_cons] at hf
    rw [Dp.dpNodeSet]
    by_cases hid : n.desc.id = id
    · rw [if_pos hid] at hf
      rw [if_pos hid]
      refine List.pairwise_cons.mpr ⟨fun b hb heq => ?_, htail⟩
      exact hhead b hb (hid.trans ((hf n rfl).symm.trans heq))
    · rw [if_neg hid] at hf
      rw [if_neg hid]
      refine List.pairwise_cons.mpr ⟨fun b hb heq => ?_, ih htail hf⟩
      rcases mem_dpNodeSet hb with hb | ⟨m, hm, rfl⟩
      · exact hhead b hb heq
      · exact absurd (heq.trans (hf m hm)) hid

theorem FirstOnly.dpNodeFind (h : FirstOnly nodes) {node : DpNode} (hmem : node ∈ nodes)
    (hcloud : node.pvStat = .statCloud) : dpNodeFind nodes node.desc.id = some node := by
  induction nodes with
  | nil => cases hmem
  | cons n nodes ih =>
    obtain ⟨hhead, htail⟩ := List.pairwise_cons.mp h
    rw [dpNodeFind_cons]
    rcases List.mem_cons.mp hmem with rfl | hmem
    · rw [if_pos rfl]
    · rw [if_neg fun heq => hhead node hmem heq hcloud]
      exact ih htail hmem

theorem id_pvStat {pvStat : PvStat} (node : DpNode) (h : dpNodeFind nodes id = some node) :
    ({ node with pvStat := pvStat } : DpNode).desc.id = id := by
  have hid : node.desc.id = id := id_of_dpNodeFind h
  exact hid

theorem dpNodeFind_dpSyncCb (nodes : List DpNode) (ids : List UInt8) (id : UInt8) :
    dpNodeFind (dpSyncCb nodes ids) id =
      if id ∈ ids then (dpNodeFind nodes id).map fun node => { node with pvStat := .statCloud }
      else dpNodeFind nodes id := by
  induction ids generalizing nodes with
  | nil => rfl
  | cons i ids ih =>
    have hstep : dpSyncCb nodes (i :: ids) = dpSyncCb (dpPvStatSet nodes i .statCloud) ids := rfl
    rw [hstep, ih, dpPvStatSet, dpNodeFind_dpNodeSet id_pvStat]
    by_cases hid : id = i
    · rw [if_pos hid, if_pos (List.mem_cons.mpr (Or.inl hid)), hid, Option.map_map]
      split_ifs <;> rfl
    · rw [if_neg hid]
      simp only [List.mem_cons, hid, false_or]

theorem FirstOnly.dpSyncCb (h : FirstOnly nodes) (ids : List UInt8) :
    FirstOnly (dpSyncCb nodes ids) := by
  induction ids generalizing nodes with
  | nil => exact h
  | cons i ids ih => exact ih (h.dpNodeSet id_pvStat)

theorem mem_dumped {node : DpNode} (hobj : ∀ n ∈ nodes, n.desc.type = .obj) (hmem : node ∈ nodes)
    (hstat : node.pvStat ≠ .statCloud) : node ∈ dumped nodes := by
  have hsame : (nodes.filter fun n => ¬(n.desc.type = .obj ∧ n.pvStat = .statCloud)) =
      nodes.filter fun n => n.desc.type = .obj ∧ n.pvStat ≠ .statCloud := by
    refine List.filter_congr fun n hn => ?_
    simp [hobj n hn]
  rw [dumped, hsame, dumpCount, List.take_length]
  exact List.mem_filter.mpr ⟨hmem, decide_eq_true ⟨hobj node hmem, hstat⟩⟩

end Nodes

/-! ### The invariant -/

/-- The values that are marked as being in the cloud have been acknowledged, and a data point of
which a value has been acknowledged has a value. -/
structure CloudInv (acked : UInt8 → Option DpValue) (nodes : List DpNode) : Prop where
  firstOnly : FirstOnly nodes
  marked : ∀ id node, dpNodeFind nodes id = some node → node.desc.type = .obj →
    node.pvStat = .statCloud → node.prop.cached = acked id
  kept : ∀ id node, dpNodeFind nodes id = some node → node.desc.type = .obj →
    acked id ≠ none → node.prop.cached ≠ none

section Inv

variable {acked : UInt8 → Option DpValue} {nodes : List DpNode}

theorem CloudInv.updated (h : CloudInv acked nodes) {flags : UInt32} {dp : DpObj}
    {node node' : DpNode} {noted : Bool} (hfind : dpNodeFind nodes dp.id = some node)
    (hupdated : Updated flags true dp node node' noted) :
    CloudInv acked (dpNodeSet nodes dp.id fun _ => node') := by
  have hset := hupdated.frame.dpNodeFind_dpNodeSet hfind
  have hkept := losesString_of_malloc (isNeedUpdate .obj flags node) dp.value node.prop
  refine ⟨h.firstOnly.dpNodeSet fun n _ => ?_, fun id n hn hobj hcloud => ?_,
    fun id n hn hobj hacked => ?_⟩
  · rw [hupdated.frame.desc]
    exact id_of_dpNodeFind hfind
  · rw [hset] at hn
    split_ifs at hn with hid
    · cases hn
      rw [hid]
      have hstat := hupdated.pvStat
      rw [hcloud] at hstat
      -- An entry that is noted is marked as local, so that this one has changed nothing.
      cases noted with
      | true => cases hstat
      | false =>
        rw [hupdated.cached rfl hkept]
        exact h.marked dp.id node hfind (hupdated.frame.desc ▸ hobj) hstat.symm
    · exact h.marked id n hn hobj hcloud
  · rw [hset] at hn
    split_ifs at hn with hid
    · cases hn
      rcases hupdated.value with ⟨-, hvalue⟩ | ⟨hlost, -⟩
      · rw [hvalue]
        exact nofun
      · rw [hkept] at hlost
        cases hlost
    · exact h.kept id n hn hobj hacked

/-- **A report.** -/
theorem CloudInv.dpObjReport {schema : DpSchema} (h : CloudInv acked schema.nodes) {env : ReportEnv}
    (hmalloc : ∀ i, env.mallocStr i = true) (abi : Abi) (heap : HeapContents) (dps : List DpObj)
    (flags : UInt32) :
    CloudInv acked (dpObjReport abi heap env (some schema) dps flags).nodes := by
  rcases @dpObjReport_nodes abi env dps flags heap schema with hsame | hcheck
  · rw [hsame]
    exact h
  · rw [hcheck]
    refine checkLoop_invariant ?_ 0 h
    intro i nodes dp _ node node' noted hinv hfind hupdated
    rw [hmalloc] at hupdated
    exact hinv.updated hfind hupdated

/-- **An acknowledgement.** -/
theorem CloudInv.dpSyncCb (h : CloudInv acked nodes) {p : Publish}
    (hcond : ∀ id ∈ p.ids, ∀ node, dpNodeFind nodes id = some node → node.desc.type = .obj →
      node.prop.cached = p.value id) :
    CloudInv (fun id => if id ∈ p.ids then (p.value id).or (acked id) else acked id)
      (dpSyncCb nodes p.ids) := by
  -- What is published for a data point without a value is nothing, and nothing has been
  -- acknowledged for it.
  have hvalue : ∀ id ∈ p.ids, ∀ node, dpNodeFind nodes id = some node → node.desc.type = .obj →
      node.prop.cached = (p.value id).or (acked id) := by
    intro id hid node hnode hobj
    rw [hcond id hid node hnode hobj]
    cases hp : p.value id with
    | some v => rfl
    | none =>
      have hnone : node.prop.cached = none := (hcond id hid node hnode hobj).trans hp
      cases hacked : acked id with
      | none => rfl
      | some v =>
        exact absurd hnone (h.kept id node hnode hobj (by rw [hacked]; exact nofun))
  refine ⟨h.firstOnly.dpSyncCb p.ids, fun id node hnode hobj hcloud => ?_,
    fun id node hnode hobj hacked => ?_⟩
  · rw [dpNodeFind_dpSyncCb] at hnode
    split_ifs at hnode ⊢ with hid
    · obtain ⟨n, hn, rfl⟩ := Option.map_eq_some_iff.mp hnode
      exact hvalue id hid n hn hobj
    · exact h.marked id node hnode hobj hcloud
  · rw [dpNodeFind_dpSyncCb] at hnode
    split_ifs at hnode hacked with hid
    · obtain ⟨n, hn, rfl⟩ := Option.map_eq_some_iff.mp hnode
      rw [← hvalue id hid n hn hobj] at hacked
      exact hacked
    · exact h.kept id node hnode hobj hacked

end Inv

/-- **One step.** -/
theorem CloudInv.syncStep {st : SyncState} {ev : SyncEvent} (h : CloudInv st.acked st.schema.nodes)
    (hcond : SyncCond st ev) :
    CloudInv (syncStep st ev).acked (syncStep st ev).schema.nodes := by
  cases ev with
  | report abi heap env dps flags =>
    have hnodes := h.dpObjReport hcond abi heap dps flags
    rw [Dp.syncStep, reportStep]
    dsimp only
    split
    · exact hnodes
    · exact hnodes
    · split_ifs <;> exact hnodes
    · exact hnodes
  | ack k =>
    rw [Dp.syncStep, ackStep]
    cases hp : st.inFlight[k]? with
    | none => exact h
    | some p => exact h.dpSyncCb (hcond p hp)
  | fail k =>
    rw [Dp.syncStep, failStep]
    cases st.inFlight[k]? with
    | none => exact h
    | some p => exact h
  | sync isConnected malloc queued =>
    rw [Dp.syncStep, syncProcess]
    by_cases hpending : st.syncPending = false
    · rw [if_pos hpending]
      exact h
    rw [if_neg hpending]
    by_cases hconn : isConnected = false
    · rw [if_pos hconn]
      exact h
    rw [if_neg hconn]
    split <;> exact h

theorem CloudInv.noLostUpdate {st : SyncState} (h : CloudInv st.acked st.schema.nodes) :
    NoLostUpdate st := by
  intro node hmem hobj hne
  have hstat : node.pvStat ≠ .statCloud := by
    intro hcloud
    exact hne (h.marked _ node (h.firstOnly.dpNodeFind hmem hcloud) hobj hcloud)
  exact ⟨hstat, fun hall => mem_dumped hall hmem hstat⟩

/-- **No update is lost.** From a schema of which nothing has been reported, in a run whose steps all
meet the condition, a value that the cloud has not acknowledged is not marked as being there. -/
theorem noLostUpdate_of_guarded (schema : DpSchema)
    (hfresh : ∀ node ∈ schema.nodes, node.pvStat = .statInvalid) {evs : List SyncEvent}
    (hrun : Guarded syncStep SyncCond (syncInit schema) evs) :
    NoLostUpdate (evs.foldl syncStep (syncInit schema)) := by
  have hinit : CloudInv (syncInit schema).acked (syncInit schema).schema.nodes := by
    have hno : ∀ node ∈ schema.nodes, node.pvStat ≠ .statCloud := by
      intro node hnode hcloud
      rw [hfresh node hnode] at hcloud
      cases hcloud
    refine ⟨?_, fun id node hnode _ hcloud => ?_, fun id node _ _ hacked => absurd rfl hacked⟩
    · exact List.pairwise_of_forall_mem_list fun a _ b hb _ => hno b hb
    · exact absurd hcloud (hno node (List.mem_of_find?_eq_some hnode))
  have hend := @Guarded.invariant _ _ _ _ (fun st => CloudInv st.acked st.schema.nodes)
    (fun _ _ h hcond => h.syncStep hcond) _ _ hinit hrun
  exact hend.noLostUpdate

/-! ### Two runs of a switch -/

def reportSwitch (dp : DpObj) : SyncEvent := .report abi32 (plainHeap []) iotEnv [dp] 0

theorem syncCond_ack {st : SyncState} {k : Nat} {id : UInt8} {v : DpValue} {node : DpNode}
    (hp : st.inFlight[k]? = some { ids := [id], values := [(id, v)] })
    (hnode : dpNodeFind st.schema.nodes id = some node) (hcached : node.prop.cached = some v) :
    SyncCond st (.ack k) := by
  intro p hp' id' hid' n hn _
  rw [hp] at hp'
  cases hp'
  rw [List.mem_singleton.mp hid'] at hn ⊢
  rw [hnode] at hn
  cases hn
  simp [hcached, Publish.value]

/-- The switch is turned on and the report is acknowledged; it is turned off, the report fails, and
the synchronisation publishes it. -/
def switchRun : List SyncEvent :=
  [reportSwitch switchOn, .ack 0, reportSwitch switchOff, .fail 0, .sync true true true, .ack 0]

theorem noLostUpdate_switchRun :
    (switchRun.foldl syncStep (syncInit switchSchema)).acked 1 = some (.bool false) ∧
      NoLostUpdate (switchRun.foldl syncStep (syncInit switchSchema)) := by
  refine ⟨by decide +kernel, noLostUpdate_of_guarded switchSchema ?_ ?_⟩
  · intro node hnode
    rw [List.mem_singleton.mp hnode]
    rfl
  · refine ⟨fun _ => rfl, ?_, fun _ => rfl, trivial, trivial, ?_, trivial⟩
    · exact @syncCond_ack _ 0 1 (.bool true)
        { switchNode with prop := .bool true, pvStat := .statLocal } (by decide +kernel)
        (by decide +kernel) rfl
    · exact @syncCond_ack _ 0 1 (.bool false) { switchNode with pvStat := .statLocal }
        (by decide +kernel) (by decide +kernel) rfl

/-- The switch is turned on and off, and then the first report is acknowledged: the switch is marked
as being off in the cloud, where it is on. -/
theorem exists_not_noLostUpdate :
    ∃ (schema : DpSchema) (evs : List SyncEvent),
      (∀ node ∈ schema.nodes, node.pvStat = .statInvalid) ∧
      ¬NoLostUpdate (evs.foldl syncStep (syncInit schema)) := by
  refine ⟨switchSchema, [reportSwitch switchOn, reportSwitch switchOff, .ack 0], ?_, fun h => ?_⟩
  · intro node hnode
    rw [List.mem_singleton.mp hnode]
    rfl
  · have hmem : { switchNode with pvStat := .statCloud } ∈
        ([reportSwitch switchOn, reportSwitch switchOff, .ack 0].foldl syncStep
          (syncInit switchSchema)).schema.nodes := by
      decide +kernel
    exact (h _ hmem rfl (by decide +kernel)).1 rfl

end TuyaOpen.Dp
