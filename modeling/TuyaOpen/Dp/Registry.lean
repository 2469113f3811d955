import TuyaOpen.Basic.Transition
import TuyaOpen.Dp.SchemaParse

/-!
# The registry of schemas

The schemas of `dp_schema.c` are found in a list with room for one. `dp_schema_create` puts a schema
at the index `schema_num` if there is room, and succeeds also if there is none: the schema is then
in no list, and nothing but its caller knows it. The identifier of the device is cut to 25
characters when it is stored, and compared in full when it is looked for.

## Main results

* `OneSlot.registryStep`: a call keeps the registry in order, or leaves a schema unreachable.
* `consistent_iff`: when a call leaves what it ought to.
* `guarded_consistent_iff`: the runs in which every call does so.
-/

namespace TuyaOpen.Dp

/-! ### The list -/

/-- `DP_SCHEMA_NUM_MAX`. -/
def dpSchemaNumMax : Nat := 1

structure SchemaBlock where
  addr : Nat
  schema : DpSchema

/-- `dp_schema_mgr_t`, with the next block of memory, and the blocks of the schemas that have been
created and not freed. -/
structure SchemaMgr where
  schemaNum : UInt8
  schemaList : List (Option SchemaBlock)
  next : Nat
  created : List Nat

/-- `s_dsmgr` at the start. -/
def schemaMgrInit : SchemaMgr where
  schemaNum := 0
  schemaList := List.replicate dpSchemaNumMax none
  next := 0
  created := []

/-- The identifiers are the same for `strcmp`. -/
def SchemaBlock.isOf (devid : Bytes) (block : SchemaBlock) : Bool :=
  cString devid = cString block.schema.devid

/-- `dp_schema_find`. -/
def dpSchemaFind (mgr : SchemaMgr) (devid : Bytes) : Option SchemaBlock :=
  mgr.schemaList.findSome? fun slot => slot.filter (SchemaBlock.isOf devid)

/-- `dp_schema_create`: what it returns, if it does return, and the registry. -/
def schemaCreate (mgr : SchemaMgr) (env : CreateEnv) (devid schemaJson : Bytes) :
    Option OperateRet × SchemaMgr :=
  match dpSchemaCreate env devid schemaJson with
  | .error (.item (.err rt)) => (some rt.1, mgr)
  | .error _ => (none, mgr)
  | .ok schema =>
    let mgr := { mgr with next := mgr.next + 1, created := mgr.next :: mgr.created }
    (some oprtOk,
      if mgr.schemaNum.toNat < dpSchemaNumMax then
        { mgr with
          schemaList := mgr.schemaList.set mgr.schemaNum.toNat (some ⟨mgr.next - 1, schema⟩)
          schemaNum := mgr.schemaNum + 1 }
      else mgr)

/-- The loop of `dp_schema_delete`: the block that is freed, and the list. -/
def deleteLoop (devid : Bytes) :
    List (Option SchemaBlock) → Option SchemaBlock × List (Option SchemaBlock)
  | [] => (none, [])
  | slot :: slots =>
    match slot.filter (SchemaBlock.isOf devid) with
    | some block => (some block, none :: slots)
    | none =>
      let r := deleteLoop devid slots
      (r.1, slot :: r.2)

/-- `dp_schema_delete`. -/
def dpSchemaDelete (mgr : SchemaMgr) (devid : Bytes) : SchemaMgr :=
  match deleteLoop devid mgr.schemaList with
  | (none, _) => mgr
  | (some block, slots) =>
    { mgr with
      schemaNum := mgr.schemaNum - 1
      schemaList := slots
      created := mgr.created.filter (· ≠ block.addr) }

/-! ### Runs -/

inductive RegistryCall
  | create (env : CreateEnv) (devid schemaJson : Bytes)
  | delete (devid : Bytes)

def registryStep (mgr : SchemaMgr) : RegistryCall → SchemaMgr
  | .create env devid schemaJson => (schemaCreate mgr env devid schemaJson).2
  | .delete devid => dpSchemaDelete mgr devid

/-- What is to hold after a call from `mgr`: what is created is found, what is deleted is not,
`schema_num` is the number of slots that are in use, and every schema that has been created and not
freed is in a slot. -/
structure Consistent (mgr : SchemaMgr) (call : RegistryCall) : Prop where
  found : ∀ env devid schemaJson, call = .create env devid schemaJson →
    (schemaCreate mgr env devid schemaJson).1 = some oprtOk →
      (dpSchemaFind (registryStep mgr call) devid).map SchemaBlock.addr = some mgr.next
  deleted : ∀ devid, call = .delete devid → dpSchemaFind (registryStep mgr call) devid = none
  schemaNum : (registryStep mgr call).schemaNum.toNat =
    ((registryStep mgr call).schemaList.filter Option.isSome).length
  reachable : ∀ addr ∈ (registryStep mgr call).created, ∃ block,
    some block ∈ (registryStep mgr call).schemaList ∧ block.addr = addr

/-- The condition: a schema is created when none is registered, and the identifier of its device is
not cut. -/
def RegistryCond (mgr : SchemaMgr) : RegistryCall → Prop
  | .create env devid schemaJson => ∀ schema, dpSchemaCreate env devid schemaJson = .ok schema →
      mgr.schemaNum = 0 ∧ (cString devid).length ≤ devIdLen
  | .delete _ => True

/-- A registry with one slot that is in order: its schema, if there is one, is the only one that has
been created and not freed. -/
def OneSlot (mgr : SchemaMgr) : Prop :=
  (mgr.schemaNum = 0 ∧ mgr.schemaList = [none] ∧ mgr.created = []) ∨
    ∃ block, mgr.schemaNum = 1 ∧ mgr.schemaList = [some block] ∧ mgr.created = [block.addr] ∧
      block.addr < mgr.next

section Steps

variable {mgr : SchemaMgr} {env : CreateEnv} {devid schemaJson : Bytes} {schema : DpSchema}

theorem oneSlot_init : OneSlot schemaMgrInit := Or.inl ⟨rfl, rfl, rfl⟩

theorem devid_of_dpSchemaCreate (h : dpSchemaCreate env devid schemaJson = .ok schema) :
    schema.devid = (cString devid).take devIdLen := by
  rw [dpSchemaCreate] at h
  dsimp only at h
  split_ifs at h with hpos hcount hschema hmutex
  cases hparse : dpNodeParse env.toSchemaEnv schemaJson (dpNodePosDecode schemaJson 255) with
  | error stop =>
    rw [hparse] at h
    cases h
  | ok r =>
    rw [hparse] at h
    obtain rfl := Except.ok.inj h
    rfl

theorem isOf_dpSchemaCreate_iff (h : dpSchemaCreate env devid schemaJson = .ok schema)
    (addr : Nat) :
    SchemaBlock.isOf devid ⟨addr, schema⟩ = true ↔ (cString devid).length ≤ devIdLen := by
  have hcut : cString ((cString devid).take devIdLen) = (cString devid).take devIdLen :=
    cString_of_notMem fun hmem => zero_notMem_cString devid (List.mem_of_mem_take hmem)
  rw [SchemaBlock.isOf, decide_eq_true_eq, devid_of_dpSchemaCreate h, hcut, eq_comm,
    List.take_eq_self_iff]

theorem schemaCreate_of_error {stop : ParseStop}
    (h : dpSchemaCreate env devid schemaJson = .error stop) :
    (schemaCreate mgr env devid schemaJson).1 ≠ some oprtOk ∧
      (schemaCreate mgr env devid schemaJson).2 = mgr := by
  rw [schemaCreate, h]
  cases stop with
  | copy => exact ⟨fun hret => (by cases hret), rfl⟩
  | item stop =>
    cases stop with
    | null => exact ⟨fun hret => (by cases hret), rfl⟩
    | err rt => exact ⟨fun hret => rt.2 (Option.some.inj hret), rfl⟩

theorem schemaCreate_of_ok (h : dpSchemaCreate env devid schemaJson = .ok schema) :
    schemaCreate mgr env devid schemaJson =
      (some oprtOk,
        if mgr.schemaNum.toNat < dpSchemaNumMax then
          { schemaNum := mgr.schemaNum + 1
            schemaList := mgr.schemaList.set mgr.schemaNum.toNat (some ⟨mgr.next, schema⟩)
            next := mgr.next + 1
            created := mgr.next :: mgr.created }
        else { mgr with next := mgr.next + 1, created := mgr.next :: mgr.created }) := by
  rw [schemaCreate, h]
  rfl

theorem dpSchemaFind_one {slot : Option SchemaBlock} (h : mgr.schemaList = [slot]) (devid : Bytes) :
    dpSchemaFind mgr devid = slot.filter (SchemaBlock.isOf devid) := by
  rw [dpSchemaFind, h, List.findSome?_cons, List.findSome?_nil]
  cases slot.filter (SchemaBlock.isOf devid) with
  | none => rfl
  | some block => rfl

/-- **A deletion.** The slot is empty afterwards, or holds another schema. -/
theorem OneSlot.dpSchemaDelete (h : OneSlot mgr) (devid : Bytes) :
    OneSlot (dpSchemaDelete mgr devid) ∧ dpSchemaFind (dpSchemaDelete mgr devid) devid = none := by
  rcases h with ⟨hnum, hlist, hcreated⟩ | ⟨block, hnum, hlist, hcreated, hnext⟩
  · have hsame : Dp.dpSchemaDelete mgr devid = mgr := by
      rw [Dp.dpSchemaDelete, hlist]
      rfl
    rw [hsame, dpSchemaFind_one hlist]
    exact ⟨Or.inl ⟨hnum, hlist, hcreated⟩, rfl⟩
  · cases hof : SchemaBlock.isOf devid block with
    | true =>
      have hloop : deleteLoop devid mgr.schemaList = (some block, [none]) := by
        rw [hlist, deleteLoop, Option.filter_some_pos hof]
      have hdelete : Dp.dpSchemaDelete mgr devid =
          { mgr with schemaNum := 0, schemaList := [none], created := [] } := by
        rw [Dp.dpSchemaDelete, hloop, hnum, hcreated]
        simp
      rw [hdelete]
      exact ⟨Or.inl ⟨rfl, rfl, rfl⟩, rfl⟩
    | false =>
      have hfilter : (some block).filter (SchemaBlock.isOf devid) = none := by
        rw [Option.filter_some_neg hof]
      have hsame : Dp.dpSchemaDelete mgr devid = mgr := by
        rw [Dp.dpSchemaDelete, hlist, deleteLoop, hfilter]
        rfl
      rw [hsame, dpSchemaFind_one hlist, hfilter]
      exact ⟨Or.inr ⟨block, hnum, hlist, hcreated, hnext⟩, rfl⟩

theorem OneSlot.schemaNum_eq (h : OneSlot mgr) :
    mgr.schemaNum.toNat = (mgr.schemaList.filter Option.isSome).length := by
  rcases h with ⟨hnum, hlist, -⟩ | ⟨block, hnum, hlist, -⟩
  · rw [hnum, hlist]
    rfl
  · rw [hnum, hlist]
    rfl

theorem OneSlot.exists_block (h : OneSlot mgr) :
    ∀ addr ∈ mgr.created, ∃ block, some block ∈ mgr.schemaList ∧ block.addr = addr := by
  intro addr haddr
  rcases h with ⟨-, -, hcreated⟩ | ⟨block, -, hlist, hcreated, -⟩
  · rw [hcreated] at haddr
    cases haddr
  · rw [hcreated, List.mem_singleton] at haddr
    exact ⟨block, by rw [hlist]; exact List.mem_singleton_self _, haddr.symm⟩

theorem OneSlot.schemaCreate (h : OneSlot mgr) (hnum : mgr.schemaNum = 0)
    (hok : dpSchemaCreate env devid schemaJson = .ok schema) :
    OneSlot (schemaCreate mgr env devid schemaJson).2 ∧
      dpSchemaFind (schemaCreate mgr env devid schemaJson).2 devid =
        (some ⟨mgr.next, schema⟩ : Option SchemaBlock).filter (SchemaBlock.isOf devid) := by
  have hlist : mgr.schemaList = [none] ∧ mgr.created = [] := by
    rcases h with ⟨-, hlist, hcreated⟩ | ⟨block, hone, -⟩
    · exact ⟨hlist, hcreated⟩
    · rw [hnum] at hone
      cases hone
  rw [schemaCreate_of_ok hok, hnum, hlist.1, hlist.2, if_pos (by decide)]
  exact ⟨Or.inr ⟨⟨mgr.next, schema⟩, rfl, rfl, rfl, Nat.lt_succ_self _⟩, dpSchemaFind_one rfl devid⟩

theorem OneSlot.registryStep (h : OneSlot mgr) {call : RegistryCall}
    (hcond : RegistryCond mgr call) : OneSlot (registryStep mgr call) := by
  cases call with
  | create env devid schemaJson =>
    rw [Dp.registryStep]
    cases hcreate : dpSchemaCreate env devid schemaJson with
    | error stop =>
      rw [(schemaCreate_of_error hcreate).2]
      exact h
    | ok schema => exact (h.schemaCreate (hcond schema hcreate).1 hcreate).1
  | delete devid => exact (h.dpSchemaDelete devid).1

/-- **A call.** It leaves what it ought to just when it meets the condition. -/
theorem consistent_iff (h : OneSlot mgr) (call : RegistryCall) :
    Consistent mgr call ↔ RegistryCond mgr call := by
  constructor
  · intro hconsistent
    cases call with
    | delete devid => trivial
    | create env devid schemaJson =>
      intro schema hok
      have hfound := hconsistent.found env devid schemaJson rfl (by rw [schemaCreate_of_ok hok])
      rw [registryStep] at hfound
      rcases h with hempty | ⟨block, hnum, hlist, hcreated, hnext⟩
      · rw [(OneSlot.schemaCreate (Or.inl hempty) hempty.1 hok).2] at hfound
        refine ⟨hempty.1, (isOf_dpSchemaCreate_iff hok mgr.next).mp ?_⟩
        cases hof : SchemaBlock.isOf devid ⟨mgr.next, schema⟩ with
        | true => rfl
        | false =>
          rw [Option.filter_some_neg hof] at hfound
          cases hfound
      · -- The list is full: the schema that is found, if any, is the one before.
        exfalso
        rw [schemaCreate_of_ok hok, if_neg (by rw [hnum]; decide)] at hfound
        obtain ⟨found, hfind, haddr⟩ := Option.map_eq_some_iff.mp hfound
        have hold : (some block).filter (SchemaBlock.isOf devid) = some found :=
          (dpSchemaFind_one hlist devid).symm.trans hfind
        have hblock : block = found := Option.some.inj (Option.filter_eq_some_iff.mp hold).1
        rw [hblock] at hnext
        omega
  · intro hcond
    have hstep := h.registryStep hcond
    refine ⟨?_, ?_, hstep.schemaNum_eq, hstep.exists_block⟩
    · rintro env devid schemaJson rfl hret
      cases hcreate : dpSchemaCreate env devid schemaJson with
      | error stop => exact absurd hret (schemaCreate_of_error hcreate).1
      | ok schema =>
        obtain ⟨hnum, hlen⟩ := hcond schema hcreate
        rw [registryStep, (h.schemaCreate hnum hcreate).2,
          Option.filter_some_pos ((isOf_dpSchemaCreate_iff hcreate mgr.next).mpr hlen)]
        rfl
    · rintro devid rfl
      exact (h.dpSchemaDelete devid).2

end Steps

/-- **The registry.** Every call of a run leaves what it ought to, if and only if in every call that
creates a schema none is registered before and the identifier has room. -/
theorem guarded_consistent_iff (calls : List RegistryCall) :
    Guarded registryStep Consistent schemaMgrInit calls ↔
      Guarded registryStep RegistryCond schemaMgrInit calls :=
  guarded_iff_of_invariant (fun _ call h => consistent_iff h call)
    (fun _ _ h hcond => h.registryStep hcond) oneSlot_init

/-! ### Two devices -/

def createRaw (devid : List Char) : RegistryCall :=
  .create rawEnv (asciiBytes devid) (asciiBytes ['[', '\x7b', '\x7d', ']'])

/-- The schema of a second device is created, and found nowhere. -/
theorem not_guarded_consistent :
    ¬Guarded registryStep Consistent schemaMgrInit [createRaw ['a'], createRaw ['b']] := by
  rintro ⟨-, hsecond, -⟩
  have hfound := hsecond.found rawEnv (asciiBytes ['b'])
    (asciiBytes ['[', '\x7b', '\x7d', ']']) rfl (by decide +kernel)
  exact absurd hfound (by decide +kernel)

end TuyaOpen.Dp
