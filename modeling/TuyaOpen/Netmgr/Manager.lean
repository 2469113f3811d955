import TuyaOpen.Basic.Bytes
import TuyaOpen.Basic.Transition
import TuyaOpen.Common.OperateRet

/-!
# The network manager

`netmgr.c` keeps the connections of a device in a list, in the order of their priorities, and uses
the first one that is up. It looks for it whenever a connection reports its status, and publishes
an event when the connection in use or its status has changed.

The order of the list is made when a connection is registered. `NETCONN_CMD_PRI` writes a new
priority into a connection and reports its status "to reneg the active connection", but the
connection stays where it is in the list, and the search follows the list.
-/

namespace TuyaOpen.Netmgr

/-! ### Connections -/

/-- `netmgr_type_e`. -/
inductive NetmgrType
  | auto
  | wifi
  | wired
  | cellular
  deriving DecidableEq

/-- `netmgr_status_e`. -/
inductive NetmgrStatus
  | linkDown
  | linkUp
  | linkUpSwitch
  deriving DecidableEq

/-- The fields of `netmgr_conn_base_t` that the manager reads. -/
structure NetmgrConn where
  pri : UInt8
  type : NetmgrType
  status : NetmgrStatus
  deriving DecidableEq

/-- `netmgr_t`. -/
structure NetmgrState where
  inited : Bool
  /-- The bits of the field `type`. -/
  type : NetmgrType → Bool
  active : NetmgrType
  status : NetmgrStatus
  conn : List NetmgrConn

inductive NetmgrNotice
  | linkTypeChg (active : NetmgrType)
  | linkStatusChg (status : NetmgrStatus)
  deriving DecidableEq

def NetmgrConn.Up (conn : NetmgrConn) : Prop := conn.status = .linkUp

instance instDecidableUp (conn : NetmgrConn) : Decidable conn.Up :=
  inferInstanceAs (Decidable (conn.status = .linkUp))

/-- `__get_active_conn`: the first connection that is up, or the first one. -/
def getActiveConn (s : NetmgrState) : NetmgrType :=
  match s.conn with
  | [] => .auto
  | head :: _ => ((s.conn.find? fun conn => conn.Up).getD head).type

/-- `__get_netmgr_status`: the return code and the status. -/
def getNetmgrStatus (s : NetmgrState) (type : NetmgrType) : OperateRet × NetmgrStatus :=
  if type = .auto then (oprtInvalidParm, .linkDown)
  else if s.type type = false then (oprtNotSupported, .linkDown)
  else
    match s.conn.find? fun conn => conn.type = type with
    | none => (oprtOk, .linkDown)
    | some conn => (oprtOk, conn.status)

/-- `__netmgr_event_cb`: the events that are published, and the manager after it. -/
def netmgrEventCb (s : NetmgrState) (type : NetmgrType) : List NetmgrNotice × NetmgrState :=
  if s.type type = false then ([], s)
  else
    let activeConn := getActiveConn s
    let activeStatus := (getNetmgrStatus s activeConn).2
    if activeStatus ≠ s.status ∧ activeConn ≠ s.active then
      ([.linkTypeChg activeConn, .linkStatusChg activeStatus],
        { s with status := activeStatus, active := activeConn })
    else if activeStatus ≠ s.status then
      ([.linkStatusChg activeStatus], { s with status := activeStatus })
    else if activeConn ≠ s.active then
      ([.linkTypeChg activeConn], { s with active := activeConn })
    else ([], s)

def insertConn (conn : NetmgrConn) : List NetmgrConn → List NetmgrConn
  | [] => [conn]
  | curConn :: rest =>
    if curConn.pri < conn.pri then conn :: curConn :: rest else curConn :: insertConn conn rest

/-- `__netmgr_conn_register`. The status of a connection that has been opened is
`NETMGR_LINK_DOWN`. -/
def netmgrConnRegister (s : NetmgrState) (type : NetmgrType) (pri : UInt8) :
    OperateRet × NetmgrState :=
  if (s.conn.any fun conn => conn.type = type) then (oprtInvalidParm, s)
  else (oprtOk, { s with conn := insertConn ⟨pri, type, .linkDown⟩ s.conn })

/-- The assignments of `netmgr_init` before the connections are registered. -/
def netmgrInitBegin (type : NetmgrType → Bool) : NetmgrState where
  inited := false
  type := type
  active := .auto
  status := .linkDown
  conn := []

/-- The end of `netmgr_init`. -/
def netmgrInitEnd (s : NetmgrState) : OperateRet × NetmgrState :=
  let active := getActiveConn s
  if active = .auto then (oprtInvalidParm, { s with active := active })
  else (oprtOk, { s with active := active, inited := true })

/-! ### Commands -/

def NetmgrState.modifyConn (s : NetmgrState) (type : NetmgrType) (f : NetmgrConn → NetmgrConn) :
    NetmgrState :=
  { s with conn := s.conn.map fun conn => if conn.type = type then f conn else conn }

/-- The new priority of a connection is stored in the `uint8_t` field `pri`. -/
def NetmgrState.withPri (s : NetmgrState) (type : NetmgrType) (param : Int) : NetmgrState :=
  s.modifyConn type fun conn => { conn with pri := UInt8.ofNat (param % 256).toNat }

/-- `netconn_wifi_set`, `netconn_wired_set` and `netconn_cellular_set` with `NETCONN_CMD_PRI`: the
priority is written, and the status is reported. -/
def netconnSetPri (s : NetmgrState) (type : NetmgrType) (param : Int) :
    List NetmgrNotice × NetmgrState :=
  netmgrEventCb (s.withPri type param) type

def NetmgrState.target (s : NetmgrState) (type : NetmgrType) : NetmgrType :=
  if type = .auto then s.active else type

/-- `netmgr_conn_set` with `NETCONN_CMD_PRI`. -/
def netmgrConnSet (s : NetmgrState) (type : NetmgrType) (param : Int) :
    OperateRet × List NetmgrNotice × NetmgrState :=
  if s.inited = false then (oprtResourceNotReady, [], s)
  else if (s.conn.any fun conn => conn.type = s.target type) then
    (oprtOk, netconnSetPri s (s.target type) param)
  else (oprtOk, [], s)

/-- `netmgr_conn_get` with `NETCONN_CMD_PRI`. `netconn_wifi_get` writes the priority as
`netconn_wifi_set` does; the others read it. -/
def netmgrConnGet (s : NetmgrState) (type : NetmgrType) (param : Int) :
    OperateRet × List NetmgrNotice × NetmgrState :=
  if s.inited = false then (oprtResourceNotReady, [], s)
  else if (s.conn.any fun conn => conn.type = s.target type) then
    if s.target type = .wifi then (oprtOk, netconnSetPri s .wifi param) else (oprtOk, [], s)
  else (oprtOk, [], s)

/-- The callbacks of the drivers, `__netconn_wifi_event`, `__netconn_wired_event` and
`__netconn_cellular_event`: the status of the connection is written and reported. A connection
that has not been registered has no callback. -/
def netconnEvent (s : NetmgrState) (type : NetmgrType) (up : Bool) :
    List NetmgrNotice × NetmgrState :=
  if (s.conn.any fun conn => conn.type = type) then
    netmgrEventCb
      (s.modifyConn type fun conn =>
        { conn with status := if up then .linkUp else .linkDown }) type
  else ([], s)

/-! ### Runs -/

inductive NetmgrEvent
  | register (type : NetmgrType) (pri : UInt8)
  | ready
  | link (type : NetmgrType) (up : Bool)
  | setPri (type : NetmgrType) (param : Int)
  | getPri (type : NetmgrType) (param : Int)
  deriving DecidableEq

/-- One step of the system: the events that are published, and the manager after it. -/
def netmgrStep (s : NetmgrState) : NetmgrEvent → List NetmgrNotice × NetmgrState
  | .register type pri => ([], (netmgrConnRegister s type pri).2)
  | .ready => ([], (netmgrInitEnd s).2)
  | .link type up => netconnEvent s type up
  | .setPri type param => (netmgrConnSet s type param).2
  | .getPri type param => (netmgrConnGet s type param).2

def netmgrNext (s : NetmgrState) (ev : NetmgrEvent) : NetmgrState := (netmgrStep s ev).2

/-- `netmgr_init` registers connections of the types it was given and is then done. -/
def Permitted (s : NetmgrState) : NetmgrEvent → Prop
  | .register type _ => s.inited = false ∧ type ≠ .auto ∧ s.type type = true
  | .ready => s.inited = false
  | _ => True

instance instDecidablePermitted (s : NetmgrState) : ∀ ev, Decidable (Permitted s ev)
  | .register type _ =>
    inferInstanceAs (Decidable (s.inited = false ∧ type ≠ .auto ∧ s.type type = true))
  | .ready => inferInstanceAs (Decidable (s.inited = false))
  | .link _ _ => isTrue trivial
  | .setPri _ _ => isTrue trivial
  | .getPri _ _ => isTrue trivial

def Sorted (conns : List NetmgrConn) : Prop := conns.Pairwise fun conn conn' => conn'.pri ≤ conn.pri

instance instDecidableSorted (conns : List NetmgrConn) : Decidable (Sorted conns) :=
  inferInstanceAs (Decidable (conns.Pairwise fun conn conn' => conn'.pri ≤ conn.pri))

/-- The connection that should be in use: the one of the highest priority that is up, or the first
one when none is up. -/
def IsBest (conns : List NetmgrConn) (conn : NetmgrConn) : Prop :=
  conn ∈ conns ∧
    ((conn.Up ∧ ∀ conn' ∈ conns, conn'.Up → conn'.pri ≤ conn.pri) ∨
      (∀ conn' ∈ conns, ¬conn'.Up) ∧ conns.head? = some conn)

structure BestLink (s : NetmgrState) : Prop where
  sorted : Sorted s.conn
  best : s.inited = true → ∃ conn, IsBest s.conn conn ∧ s.active = conn.type ∧
    s.status = conn.status

/-- The events for the changes of the connection in use and of its status. -/
def notices (s s' : NetmgrState) : List NetmgrNotice :=
  (if s'.active ≠ s.active then [.linkTypeChg s'.active] else []) ++
    (if s'.status ≠ s.status then [.linkStatusChg s'.status] else [])

/-- After a step the manager uses the best link, and the step has published the changes of the
connection in use and of its status, and nothing else. The end of `netmgr_init` gives the connection
in use its first value. -/
def StepRight (s : NetmgrState) (ev : NetmgrEvent) : Prop :=
  BestLink (netmgrNext s ev) ∧
    (ev ≠ .ready → (netmgrStep s ev).1 = notices s (netmgrNext s ev))

def KeepsOrder (s : NetmgrState) : NetmgrEvent → Prop
  | .setPri type param => s.inited = true → Sorted (s.withPri (s.target type) param).conn
  | .getPri type param =>
    s.inited = true → s.target type = .wifi → Sorted (s.withPri .wifi param).conn
  | _ => True

instance instDecidableKeepsOrder (s : NetmgrState) : ∀ ev, Decidable (KeepsOrder s ev)
  | .setPri type param =>
    inferInstanceAs
      (Decidable (s.inited = true → Sorted (s.withPri (s.target type) param).conn))
  | .getPri type param =>
    inferInstanceAs
      (Decidable (s.inited = true → s.target type = .wifi → Sorted (s.withPri .wifi param).conn))
  | .register _ _ => isTrue trivial
  | .ready => isTrue trivial
  | .link _ _ => isTrue trivial

/-! ### The choice of a connection -/

variable {s : NetmgrState} {type : NetmgrType} {conns : List NetmgrConn} {conn : NetmgrConn}

def bestStatus (conns : List NetmgrConn) : NetmgrStatus :=
  if (conns.any fun conn => conn.Up) then .linkUp else .linkDown

/-- The connections have different types that the manager was given, and each is up or down. -/
structure Registered (s : NetmgrState) : Prop where
  nodup : (s.conn.map NetmgrConn.type).Nodup
  given : ∀ conn ∈ s.conn, conn.type ≠ .auto ∧ s.type conn.type = true
  down : ∀ conn ∈ s.conn, ¬conn.Up → conn.status = .linkDown

/-- What holds of the manager between steps. -/
structure Inv (s : NetmgrState) : Prop extends Registered s where
  sorted : Sorted s.conn
  status_eq : s.status = bestStatus s.conn
  active_eq : s.inited = true → s.conn ≠ [] ∧ s.active = getActiveConn s

theorem find?_type (h : (conns.map NetmgrConn.type).Nodup) (hconn : conn ∈ conns) :
    (conns.find? fun c => c.type = conn.type) = some conn := by
  induction conns with
  | nil => cases hconn
  | cons c conns ih =>
    rw [List.map_cons, List.nodup_cons] at h
    rw [List.find?_cons]
    by_cases hc : c.type = conn.type
    · rcases List.mem_cons.1 hconn with rfl | hconn
      · simp
      · exact absurd (hc ▸ List.mem_map_of_mem hconn) h.1
    · rcases List.mem_cons.1 hconn with rfl | hconn
      · exact absurd rfl hc
      · simp only [hc, decide_false]
        exact ih h.2 hconn

theorem exists_getActiveConn_eq (h : Registered s) (hne : s.conn ≠ []) :
    ∃ conn ∈ s.conn, getActiveConn s = conn.type ∧ conn.status = bestStatus s.conn ∧
      (Sorted s.conn → IsBest s.conn conn) := by
  obtain ⟨head, rest, hconn⟩ := List.exists_cons_of_ne_nil hne
  have hactive : getActiveConn s = ((s.conn.find? fun conn => conn.Up).getD head).type := by
    rw [getActiveConn, hconn]
  cases hfind : s.conn.find? fun conn => conn.Up with
  | none =>
    have hdown : ∀ conn ∈ s.conn, ¬conn.Up := by simpa using hfind
    have hhead : head ∈ s.conn := by
      rw [hconn]
      exact List.mem_cons_self
    refine ⟨head, hhead, ?_, ?_, fun _ => ⟨hhead, Or.inr ⟨hdown, ?_⟩⟩⟩
    · rw [hactive, hfind, Option.getD_none]
    · rw [h.down head hhead (hdown head hhead), bestStatus, if_neg]
      simpa using hdown
    · rw [hconn]
      rfl
  | some conn =>
    have hup : conn.Up := by simpa using List.find?_some hfind
    have hmem : conn ∈ s.conn := List.mem_of_find?_eq_some hfind
    refine ⟨conn, hmem, ?_, ?_, fun hsorted => ⟨hmem, Or.inl ⟨hup, fun conn' hmem' hup' => ?_⟩⟩⟩
    · rw [hactive, hfind, Option.getD_some]
    · rw [bestStatus, if_pos]
      · exact hup
      · exact List.any_eq_true.2 ⟨conn, hmem, by simpa using hup⟩
    · -- the connections before the first one that is up are down
      obtain ⟨-, before, after, heq, hbefore⟩ := List.find?_eq_some_iff_append.1 hfind
      rw [heq] at hmem' hsorted
      rcases List.mem_append.1 hmem' with hmem' | hmem'
      · exact absurd hup' (by simpa using hbefore conn' hmem')
      · rcases List.mem_cons.1 hmem' with rfl | hmem'
        · exact UInt8.le_refl _
        · exact List.rel_of_pairwise_cons (List.pairwise_append.1 hsorted).2.1 hmem'

theorem getNetmgrStatus_active (h : Registered s) :
    (getNetmgrStatus s (getActiveConn s)).2 = bestStatus s.conn := by
  by_cases hne : s.conn = []
  · rw [getActiveConn, hne, getNetmgrStatus, if_pos rfl]
    rfl
  · obtain ⟨conn, hmem, hactive, hstatus, -⟩ := exists_getActiveConn_eq h hne
    obtain ⟨hauto, hgiven⟩ := h.given conn hmem
    rw [hactive, getNetmgrStatus, if_neg hauto, if_neg (by simp [hgiven]),
      find?_type h.nodup hmem, ← hstatus]

theorem notices_self : notices s s = [] := by
  simp [notices]

theorem netmgrEventCb_eq (h : Registered s) (hgiven : s.type type = true) :
    netmgrEventCb s type =
      (notices s { s with active := getActiveConn s, status := bestStatus s.conn },
        { s with active := getActiveConn s, status := bestStatus s.conn }) := by
  rw [netmgrEventCb, if_neg (by simp [hgiven])]
  dsimp only
  rw [getNetmgrStatus_active h, notices]
  by_cases hstatus : bestStatus s.conn = s.status
  · by_cases hactive : getActiveConn s = s.active
    · simp [hstatus, hactive]
    · simp [hstatus, hactive]
  · by_cases hactive : getActiveConn s = s.active
    · simp [hstatus, hactive]
    · simp [hstatus, hactive]

theorem inv_eventCb (h : Registered s) (hsorted : Sorted s.conn) (hne : s.conn ≠ []) :
    Inv { s with active := getActiveConn s, status := bestStatus s.conn } where
  nodup := h.nodup
  given := h.given
  down := h.down
  sorted := hsorted
  status_eq := rfl
  active_eq := fun _ => ⟨hne, rfl⟩

theorem Inv.bestLink (h : Inv s) : BestLink s := by
  refine ⟨h.sorted, fun hinited => ?_⟩
  obtain ⟨hne, hactive⟩ := h.active_eq hinited
  obtain ⟨conn, -, htype, hstatus, hbest⟩ := exists_getActiveConn_eq h.toRegistered hne
  exact ⟨conn, hbest h.sorted, hactive.trans htype, h.status_eq.trans hstatus.symm⟩

/-! ### Steps -/

section Modify

variable {f : NetmgrConn → NetmgrConn}

theorem map_type_modifyConn (type : NetmgrType) (hf : ∀ conn, (f conn).type = conn.type) :
    (s.modifyConn type f).conn.map NetmgrConn.type = s.conn.map NetmgrConn.type := by
  rw [NetmgrState.modifyConn, List.map_map]
  refine List.map_congr_left fun conn _ => ?_
  simp only [Function.comp_apply]
  split_ifs
  · exact hf conn
  · rfl

theorem conn_modifyConn_of_any_eq_false
    (h : ¬(s.conn.any fun conn => conn.type = type) = true) :
    (s.modifyConn type f).conn = s.conn := by
  have hnot : ∀ conn ∈ s.conn, conn.type ≠ type := by simpa using h
  rw [NetmgrState.modifyConn]
  refine (List.map_congr_left fun conn hconn => ?_).trans (List.map_id s.conn)
  rw [if_neg (hnot conn hconn), id]

theorem Registered.modifyConn (type : NetmgrType) (h : Registered s)
    (hf : ∀ conn, (f conn).type = conn.type)
    (hdown : ∀ conn, (¬conn.Up → conn.status = .linkDown) → ¬(f conn).Up →
      (f conn).status = .linkDown) :
    Registered (s.modifyConn type f) := by
  refine ⟨?_, fun conn hconn => ?_, fun conn hconn => ?_⟩
  · rw [map_type_modifyConn type hf]
    exact h.nodup
  · have hmem : conn.type ∈ s.conn.map NetmgrConn.type := by
      rw [← map_type_modifyConn type hf]
      exact List.mem_map_of_mem hconn
    obtain ⟨conn', hconn', htype⟩ := List.mem_map.1 hmem
    rw [← htype]
    exact h.given conn' hconn'
  · obtain ⟨conn', hconn', rfl⟩ := List.mem_map.1 hconn
    split_ifs
    · exact hdown conn' (h.down conn' hconn')
    · exact h.down conn' hconn'

theorem eventCb_modifyConn (h : Registered s) (hf : ∀ conn, (f conn).type = conn.type)
    (hdown : ∀ conn, (¬conn.Up → conn.status = .linkDown) → ¬(f conn).Up →
      (f conn).status = .linkDown)
    (hany : (s.conn.any fun conn => conn.type = type) = true) :
    (netmgrEventCb (s.modifyConn type f) type).1 =
        notices s (netmgrEventCb (s.modifyConn type f) type).2 ∧
      (netmgrEventCb (s.modifyConn type f) type).2.conn = (s.modifyConn type f).conn ∧
      (Sorted (s.modifyConn type f).conn →
        Inv (netmgrEventCb (s.modifyConn type f) type).2) := by
  obtain ⟨conn, hconn, htype⟩ := List.any_eq_true.1 hany
  have hgiven : s.type type = true := by
    rw [← of_decide_eq_true htype]
    exact (h.given conn hconn).2
  have hreg := h.modifyConn type hf hdown
  have hne : (s.modifyConn type f).conn ≠ [] := by
    intro hnil
    rw [NetmgrState.modifyConn, List.map_eq_nil_iff] at hnil
    rw [hnil] at hconn
    cases hconn
  rw [netmgrEventCb_eq hreg hgiven]
  exact ⟨rfl, rfl, fun hsorted => inv_eventCb hreg hsorted hne⟩

end Modify

theorem perm_insertConn : (insertConn conn conns).Perm (conn :: conns) := by
  induction conns with
  | nil => exact List.Perm.refl _
  | cons c conns ih =>
    rw [insertConn]
    split_ifs
    · exact List.Perm.refl _
    · exact (ih.cons c).trans (List.Perm.swap conn c conns)

theorem bestStatus_insertConn (h : ¬conn.Up) :
    bestStatus (insertConn conn conns) = bestStatus conns := by
  rw [bestStatus, bestStatus, perm_insertConn.any_eq, List.any_cons, decide_eq_false h,
    Bool.false_or]

theorem Sorted.insertConn (h : Sorted conns) : Sorted (insertConn conn conns) := by
  induction conns with
  | nil => exact List.pairwise_singleton _ _
  | cons c conns ih =>
    obtain ⟨hc, hconns⟩ := List.pairwise_cons.1 h
    rw [Netmgr.insertConn]
    split_ifs with hlt
    · refine List.Pairwise.cons (fun d hd => ?_) h
      rcases List.mem_cons.1 hd with rfl | hd
      · exact UInt8.le_of_lt hlt
      · exact UInt8.le_trans (hc d hd) (UInt8.le_of_lt hlt)
    · refine List.Pairwise.cons (fun d hd => ?_) (ih hconns)
      rcases List.mem_cons.1 (perm_insertConn.subset hd) with rfl | hd
      · exact UInt8.not_lt.1 hlt
      · exact hc d hd

theorem Inv.register {pri : UInt8} (h : Inv s) (hp : Permitted s (.register type pri)) :
    Inv (netmgrConnRegister s type pri).2 := by
  obtain ⟨hinited, hauto, hgiven⟩ := hp
  rw [netmgrConnRegister]
  split_ifs with hany
  · exact h
  have hnot : ∀ conn ∈ s.conn, conn.type ≠ type := by simpa using hany
  refine { nodup := ?_, given := ?_, down := ?_, sorted := h.sorted.insertConn, status_eq := ?_,
           active_eq := fun htrue => ?_ }
  · rw [(perm_insertConn.map _).nodup_iff, List.map_cons, List.nodup_cons]
    refine ⟨fun hmem => ?_, h.nodup⟩
    obtain ⟨conn, hconn, htype⟩ := List.mem_map.1 hmem
    exact hnot conn hconn htype
  · intro conn hconn
    rcases List.mem_cons.1 (perm_insertConn.subset hconn) with rfl | hconn
    · exact ⟨hauto, hgiven⟩
    · exact h.given conn hconn
  · intro conn hconn
    rcases List.mem_cons.1 (perm_insertConn.subset hconn) with rfl | hconn
    · exact fun _ => rfl
    · exact h.down conn hconn
  · rw [bestStatus_insertConn (by simp [NetmgrConn.Up])]
    exact h.status_eq
  · rw [hinited] at htrue
    cases htrue

theorem getActiveConn_ne_auto (h : Registered s) (hne : s.conn ≠ []) :
    getActiveConn s ≠ .auto := by
  obtain ⟨conn, hconn, hactive, -⟩ := exists_getActiveConn_eq h hne
  rw [hactive]
  exact (h.given conn hconn).1

theorem Inv.ready (h : Inv s) : Inv (netmgrInitEnd s).2 := by
  rw [netmgrInitEnd]
  split_ifs with hauto
  · refine { h with active_eq := fun hinited => ?_ }
    exact absurd hauto (getActiveConn_ne_auto h.toRegistered (h.active_eq hinited).1)
  · refine { h with active_eq := fun _ => ⟨fun hnil => hauto ?_, rfl⟩ }
    rw [getActiveConn, hnil]

theorem stepRight_of_eq {ev : NetmgrEvent} {s' : NetmgrState} {out : List NetmgrNotice}
    (hstep : netmgrStep s ev = (out, s')) (hinv : Inv s') (hout : out = notices s s') :
    StepRight s ev ∧ Inv (netmgrNext s ev) := by
  rw [StepRight, netmgrNext, hstep]
  exact ⟨⟨hinv.bestLink, fun _ => hout⟩, hinv⟩

theorem stepRight_of_eq_self {ev : NetmgrEvent} (h : Inv s) (hstep : netmgrStep s ev = ([], s)) :
    StepRight s ev ∧ Inv (netmgrNext s ev) :=
  stepRight_of_eq hstep h notices_self.symm

theorem stepRight_register {pri : UInt8} (h : Inv s) (hp : Permitted s (.register type pri)) :
    StepRight s (.register type pri) ∧ Inv (netmgrNext s (.register type pri)) := by
  refine stepRight_of_eq rfl (h.register hp) ?_
  rw [netmgrConnRegister]
  split_ifs
  · exact notices_self.symm
  · simp [notices]

theorem stepRight_ready (h : Inv s) : StepRight s .ready ∧ Inv (netmgrNext s .ready) :=
  ⟨⟨h.ready.bestLink, fun hne => absurd rfl hne⟩, h.ready⟩

theorem stepRight_link {up : Bool} (h : Inv s) :
    StepRight s (.link type up) ∧ Inv (netmgrNext s (.link type up)) := by
  by_cases hany : (s.conn.any fun conn => conn.type = type) = true
  · have hstep : netmgrStep s (.link type up) = netmgrEventCb (s.modifyConn type fun conn =>
        { conn with status := if up then .linkUp else .linkDown }) type := if_pos hany
    obtain ⟨hout, -, hinv⟩ := eventCb_modifyConn h.toRegistered
      (f := fun conn => { conn with status := if up then .linkUp else .linkDown }) (fun _ => rfl)
      (fun conn _ hup => by cases up <;> simp_all [NetmgrConn.Up]) hany
    refine stepRight_of_eq hstep (hinv ?_) hout
    rw [Sorted, NetmgrState.modifyConn, List.pairwise_map]
    refine h.sorted.imp fun {c d} hle => ?_
    split_ifs <;> exact hle
  · exact stepRight_of_eq_self h (if_neg hany)

theorem stepRight_withPri {ev : NetmgrEvent} {param : Int} (h : Inv s)
    (hany : (s.conn.any fun conn => conn.type = type) = true)
    (hstep : netmgrStep s ev = netconnSetPri s type param) :
    (StepRight s ev ↔ Sorted (s.withPri type param).conn) ∧
      (Sorted (s.withPri type param).conn → Inv (netmgrNext s ev)) := by
  obtain ⟨hout, hconn, hinv⟩ := eventCb_modifyConn h.toRegistered
    (f := fun conn => { conn with pri := UInt8.ofNat (param % 256).toNat }) (fun _ => rfl)
    (fun _ hdown hup => hdown hup) hany
  refine ⟨⟨fun hright => ?_, fun hsorted => ?_⟩, fun hsorted => ?_⟩
  · have hsorted := hright.1.sorted
    rw [netmgrNext, hstep] at hsorted
    rwa [netconnSetPri, NetmgrState.withPri, hconn] at hsorted
  · exact (stepRight_of_eq hstep (hinv hsorted) hout).1
  · exact (stepRight_of_eq hstep (hinv hsorted) hout).2

theorem stepRight_setPri {param : Int} (h : Inv s) :
    (StepRight s (.setPri type param) ↔ KeepsOrder s (.setPri type param)) ∧
      (KeepsOrder s (.setPri type param) → Inv (netmgrNext s (.setPri type param))) := by
  by_cases hinited : s.inited = true
  · by_cases hany : (s.conn.any fun conn => conn.type = s.target type) = true
    · have hstep : netmgrStep s (.setPri type param) =
          netconnSetPri s (s.target type) param := by
        rw [netmgrStep, netmgrConnSet, if_neg (by simp [hinited]), if_pos hany]
      obtain ⟨hiff, hinv⟩ := stepRight_withPri h hany hstep
      exact ⟨hiff.trans ⟨fun hs _ => hs, fun hs => hs hinited⟩, fun hs => hinv (hs hinited)⟩
    · have hstep : netmgrStep s (.setPri type param) = ([], s) := by
        rw [netmgrStep, netmgrConnSet, if_neg (by simp [hinited]), if_neg hany]
      obtain ⟨hright, hinv⟩ := stepRight_of_eq_self h hstep
      refine ⟨iff_of_true hright fun _ => ?_, fun _ => hinv⟩
      rw [NetmgrState.withPri, conn_modifyConn_of_any_eq_false hany]
      exact h.sorted
  · have hstep : netmgrStep s (.setPri type param) = ([], s) := by
      rw [netmgrStep, netmgrConnSet, if_pos (by simpa using hinited)]
    obtain ⟨hright, hinv⟩ := stepRight_of_eq_self h hstep
    exact ⟨iff_of_true hright fun htrue => absurd htrue hinited, fun _ => hinv⟩

theorem stepRight_getPri {param : Int} (h : Inv s) :
    (StepRight s (.getPri type param) ↔ KeepsOrder s (.getPri type param)) ∧
      (KeepsOrder s (.getPri type param) → Inv (netmgrNext s (.getPri type param))) := by
  by_cases hinited : s.inited = true
  · by_cases hwifi : s.target type = .wifi
    · by_cases hany : (s.conn.any fun conn => conn.type = NetmgrType.wifi) = true
      · have hstep : netmgrStep s (.getPri type param) = netconnSetPri s .wifi param := by
          rw [netmgrStep, netmgrConnGet, if_neg (by simp [hinited]), hwifi, if_pos hany, if_pos rfl]
        obtain ⟨hiff, hinv⟩ := stepRight_withPri h hany hstep
        exact ⟨hiff.trans ⟨fun hs _ _ => hs, fun hs => hs hinited hwifi⟩,
          fun hs => hinv (hs hinited hwifi)⟩
      · have hstep : netmgrStep s (.getPri type param) = ([], s) := by
          rw [netmgrStep, netmgrConnGet, if_neg (by simp [hinited]), hwifi, if_neg hany]
        obtain ⟨hright, hinv⟩ := stepRight_of_eq_self h hstep
        refine ⟨iff_of_true hright fun _ _ => ?_, fun _ => hinv⟩
        rw [NetmgrState.withPri, conn_modifyConn_of_any_eq_false hany]
        exact h.sorted
    · have hstep : netmgrStep s (.getPri type param) = ([], s) := by
        rw [netmgrStep, netmgrConnGet, if_neg (by simp [hinited]), if_neg hwifi, ite_self]
      obtain ⟨hright, hinv⟩ := stepRight_of_eq_self h hstep
      exact ⟨iff_of_true hright fun _ htrue => absurd htrue hwifi, fun _ => hinv⟩
  · have hstep : netmgrStep s (.getPri type param) = ([], s) := by
      rw [netmgrStep, netmgrConnGet, if_pos (by simpa using hinited)]
    obtain ⟨hright, hinv⟩ := stepRight_of_eq_self h hstep
    exact ⟨iff_of_true hright fun htrue => absurd htrue hinited, fun _ => hinv⟩

/-- Where the invariant holds, a step is right exactly when it leaves the list in order, and it then
keeps the invariant. -/
theorem stepRight_iff {ev : NetmgrEvent} (h : Inv s) (hp : Permitted s ev) :
    (StepRight s ev ↔ KeepsOrder s ev) ∧ (KeepsOrder s ev → Inv (netmgrNext s ev)) := by
  have hfree (hev : StepRight s ev ∧ Inv (netmgrNext s ev)) (htrue : KeepsOrder s ev) :
      (StepRight s ev ↔ KeepsOrder s ev) ∧ (KeepsOrder s ev → Inv (netmgrNext s ev)) :=
    ⟨iff_of_true hev.1 htrue, fun _ => hev.2⟩
  cases ev with
  | register type pri => exact hfree (stepRight_register h hp) trivial
  | ready => exact hfree (stepRight_ready h) trivial
  | link type up => exact hfree (stepRight_link h) trivial
  | setPri type param => exact stepRight_setPri h
  | getPri type param => exact stepRight_getPri h

theorem inv_netmgrInitBegin (mask : NetmgrType → Bool) : Inv (netmgrInitBegin mask) where
  nodup := List.nodup_nil
  given := fun _ h => by cases h
  down := fun _ h => by cases h
  sorted := List.Pairwise.nil
  status_eq := rfl
  active_eq := fun h => by cases h

theorem guarded_stepRight_iff {evs : List NetmgrEvent} (h : Inv s)
    (hp : Guarded netmgrNext Permitted s evs) :
    Guarded netmgrNext StepRight s evs ↔ Guarded netmgrNext KeepsOrder s evs := by
  induction evs generalizing s with
  | nil => exact Iff.rfl
  | cons ev evs ih =>
    obtain ⟨hiff, hinv⟩ := stepRight_iff h hp.1
    constructor
    · rintro ⟨hright, hrest⟩
      have hkeeps := hiff.1 hright
      exact ⟨hkeeps, (ih (hinv hkeeps) hp.2).1 hrest⟩
    · rintro ⟨hkeeps, hrest⟩
      exact ⟨hiff.2 hkeeps, (ih (hinv hkeeps) hp.2).2 hrest⟩

/-- The start of a run with a wired and a Wi-Fi connection that are both up. -/
def bothUp : List NetmgrEvent :=
  [.register .wired 2, .register .wifi 1, .ready, .link .wifi true, .link .wired true]

/-- **The best link.** From `netmgr_init` on, along every run of registrations, link events and
changes of priorities, every step leaves the best link in use and publishes the changes exactly
when every change of a priority leaves the list in order. -/
theorem netmgrRight_iff (mask : NetmgrType → Bool) {evs : List NetmgrEvent}
    (hp : Guarded netmgrNext Permitted (netmgrInitBegin mask) evs) :
    Guarded netmgrNext StepRight (netmgrInitBegin mask) evs ↔
      Guarded netmgrNext KeepsOrder (netmgrInitBegin mask) evs :=
  guarded_stepRight_iff (inv_netmgrInitBegin mask) hp

/-- A new priority that keeps the order of the list. -/
theorem netmgrRight_iff_bothUp :
    Guarded netmgrNext Permitted (netmgrInitBegin fun _ => true) (bothUp ++ [.setPri .wired 7]) ∧
      Guarded netmgrNext StepRight (netmgrInitBegin fun _ => true)
        (bothUp ++ [.setPri .wired 7]) := by
  have hp : Guarded netmgrNext Permitted (netmgrInitBegin fun _ => true)
      (bothUp ++ [.setPri .wired 7]) := by decide
  exact ⟨hp, (netmgrRight_iff _ hp).2 (by decide)⟩

/-- A Wi-Fi connection that is up and is given a higher priority than the wired one is not used. -/
theorem not_netmgrRight_bothUp :
    Guarded netmgrNext Permitted (netmgrInitBegin fun _ => true) (bothUp ++ [.setPri .wifi 5]) ∧
      ¬Guarded netmgrNext StepRight (netmgrInitBegin fun _ => true)
        (bothUp ++ [.setPri .wifi 5]) ∧
      (List.foldl netmgrNext (netmgrInitBegin fun _ => true)
        (bothUp ++ [.setPri .wifi 5])).active = .wired := by
  refine ⟨by decide, fun hright => ?_, rfl⟩
  rw [guarded_append] at hright
  exact absurd hright.2.1.1.sorted (by decide)

end TuyaOpen.Netmgr
