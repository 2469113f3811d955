import Mathlib.Logic.Function.Basic
import TuyaOpen.AiBiz.Session
import TuyaOpen.Basic.Transition

/-!
# Exactness of the session table

An observer follows the return values of `tuya_ai_biz_crt_session` and the identifiers that are
closed: a session is open from the call that returns `OPRT_OK` until it is closed. The table is
exact as long as it has the open sessions, each in one slot with its configuration. When all slots
are taken the function returns `OPRT_OK` and stores nothing.

## Main results

* `slotsOf_storeSession`, `slotsOf_clearSession`: the slots behind the two loops.
* `exactStep_iff`: one event.
* `sessionTable_iff`: the runs in which the table is exact.
-/

namespace TuyaOpen.AiBiz

variable {κ υ : Type*}

/-! ### Events -/

structure CStr where
  mem : Bytes
  zero_mem : 0 ∈ mem

/-- What happens to the table: the client runs, a session is created, is deleted by the application
or is closed by the cloud, where the pointer may be `NULL`, and the client closes. -/
inductive BizEvent (κ υ : Type*)
  | run (malloc mutex : Bool)
  | crt (c : CrtCall κ υ)
  | del (id : Option CStr) (close : OperateRet)
  | remoteClose (id : Option CStr)
  | cltClose

/-- The return value of an event and the static data behind it. There is no result if an identifier
is read behind its memory. -/
def BizEvent.step (s : Option (AiBasicBiz κ υ)) :
    BizEvent κ υ → Option (OperateRet × Option (AiBasicBiz κ υ))
  | .run malloc mutex => some (oprtOk, aiCltRunEvt malloc mutex s)
  | .crt c => some (tuyaAiBizCrtSession c s)
  | .del id close => tuyaAiBizDelSession (id.map CStr.mem) close s
  | .remoteClose id => aiBizSessionDestory (id.map CStr.mem) none s
  | .cltClose => some (oprtOk, aiCltCloseEvt s)

abbrev OpenSessions (κ υ : Type*) := Bytes → Option (AiSessionCfg κ υ)

/-- The open sessions after an event that returns `rt`. -/
def BizEvent.observe (live : OpenSessions κ υ) (rt : OperateRet) : BizEvent κ υ → OpenSessions κ υ
  | .run _ _ => live
  | .crt c => if rt = oprtOk then Function.update live c.id (some c.cfg) else live
  | .del (some id) _ => Function.update live (cString id.mem) none
  | .remoteClose (some id) => Function.update live (cString id.mem) none
  | .del none _ => live
  | .remoteClose none => live
  | .cltClose => fun _ => none

/-- The configurations in the slots of session `id`. -/
def slotsOf (ys : List (AiSession κ υ)) (id : Bytes) : List (AiSessionCfg κ υ) :=
  (ys.filter fun x => x.id = id).map AiSession.cfg

def held (s : Option (AiBasicBiz κ υ)) (id : Bytes) : List (AiSessionCfg κ υ) :=
  match s with
  | none => []
  | some biz => slotsOf biz.session id

abbrev BizState (κ υ : Type*) := Option (AiBasicBiz κ υ) × OpenSessions κ υ

def BizEvent.next (s : BizState κ υ) (ev : BizEvent κ υ) : BizState κ υ :=
  match ev.step s.1 with
  | none => s
  | some (rt, biz) => (biz, ev.observe s.2 rt)

def BizEvent.newId (s : BizState κ υ) : BizEvent κ υ → Option Bytes
  | .crt c => if s.1.isSome ∧ c.idNull = false then some c.id else none
  | _ => none

/-- After an event the table has the open sessions, each in one slot with its configuration, and no
others; and a creation has returned `OPRT_OK` just when its session is in the table. -/
def ExactStep (s : BizState κ υ) (ev : BizEvent κ υ) : Prop :=
  ∃ rt biz, ev.step s.1 = some (rt, biz) ∧
    (∀ id ≠ [], held biz id = (ev.observe s.2 rt id).toList) ∧
    ∀ c, ev = .crt c → (rt = oprtOk ↔ ev.newId s = some c.id ∧ held biz c.id = [c.cfg])

def FindsSlot (s : BizState κ υ) (ev : BizEvent κ υ) : Prop :=
  ∀ c biz, ev = .crt c → s.1 = some biz → c.idNull = false → c.packSession = oprtOk →
    ∃ x ∈ biz.session, x.id = []

def generatedIds (s : BizState κ υ) : List (BizEvent κ υ) → List Bytes
  | [] => []
  | ev :: evs => (ev.newId s).toList ++ generatedIds (ev.next s) evs

/-! ### Slots -/

section Slots

variable {x : AiSession κ υ} {ys zs : List (AiSession κ υ)} {id mem : Bytes}

theorem slotsOf_cons_of_ne (h : x.id ≠ id) : slotsOf (x :: ys) id = slotsOf ys id := by
  rw [slotsOf, List.filter_cons_of_neg (by simpa using h)]
  rfl

theorem slotsOf_cons_of_eq (h : x.id = id) : slotsOf (x :: ys) id = x.cfg :: slotsOf ys id := by
  rw [slotsOf, List.filter_cons_of_pos (by simpa using h)]
  rfl

theorem storeSession_eq_none_iff : storeSession x ys = none ↔ ∀ y ∈ ys, y.id ≠ [] := by
  induction ys with
  | nil => exact iff_of_true rfl (List.forall_mem_nil _)
  | cons y ys ih =>
    rw [storeSession, List.forall_mem_cons]
    by_cases hfree : y.id = []
    · rw [if_pos hfree]
      exact iff_of_false (Option.some_ne_none _) fun h => h.1 hfree
    · rw [if_neg hfree, Option.map_eq_none_iff, ih]
      exact ⟨fun h => ⟨hfree, h⟩, fun h => h.2⟩

theorem slotsOf_storeSession (h : storeSession x ys = some zs) (hx : x.id ≠ [])
    (hnew : slotsOf ys x.id = []) (hid : id ≠ []) :
    slotsOf zs id = if id = x.id then [x.cfg] else slotsOf ys id := by
  induction ys generalizing zs with
  | nil => cases h
  | cons y ys ih =>
    rw [storeSession] at h
    by_cases hfree : y.id = []
    · rw [if_pos hfree] at h
      have hother : slotsOf (y :: ys) id = slotsOf ys id :=
        slotsOf_cons_of_ne (by rw [hfree]; exact Ne.symm hid)
      rw [slotsOf_cons_of_ne (by rw [hfree]; exact Ne.symm hx)] at hnew
      rw [← Option.some.inj h, hother]
      by_cases heq : id = x.id
      · rw [if_pos heq, slotsOf_cons_of_eq heq.symm, heq, hnew]
      · rw [if_neg heq, slotsOf_cons_of_ne (Ne.symm heq)]
    · rw [if_neg hfree] at h
      obtain ⟨ws, hws, rfl⟩ := Option.map_eq_some_iff.mp h
      have hne : y.id ≠ x.id := by
        intro heq
        rw [slotsOf_cons_of_eq heq] at hnew
        cases hnew
      rw [slotsOf_cons_of_ne hne] at hnew
      have hrest := ih hws hnew
      by_cases hy : y.id = id
      · rw [slotsOf_cons_of_eq hy, slotsOf_cons_of_eq hy, hrest, if_neg (hy ▸ hne),
          if_neg (hy ▸ hne)]
      · rw [slotsOf_cons_of_ne hy, slotsOf_cons_of_ne hy, hrest]

theorem slotsOf_getD_map {y : AiSession κ υ} {r : Option (List (AiSession κ υ))}
    (hrest : slotsOf (r.getD ys) id = if id = cString mem then [] else slotsOf ys id)
    (hy : y.id = id → id ≠ cString mem) :
    slotsOf ((r.map fun ys => y :: ys).getD (y :: ys)) id =
      if id = cString mem then [] else slotsOf (y :: ys) id := by
  have hcons : (r.map fun ys => y :: ys).getD (y :: ys) = y :: r.getD ys := by
    cases r <;> rfl
  rw [hcons]
  by_cases hid : y.id = id
  · rw [if_neg (hy hid)] at hrest
    rw [slotsOf_cons_of_eq hid, slotsOf_cons_of_eq hid, hrest, if_neg (hy hid)]
  · rw [slotsOf_cons_of_ne hid, slotsOf_cons_of_ne hid, hrest]

theorem slotsOf_clearSession (htext : ∀ y ∈ ys, 0 ∉ y.id) (hmem : 0 ∈ mem)
    (hone : cString mem ≠ [] → (slotsOf ys (cString mem)).length ≤ 1) :
    ∃ r, clearSession mem ys = some r ∧
      ∀ id ≠ [], slotsOf (r.getD ys) id = if id = cString mem then [] else slotsOf ys id := by
  induction ys with
  | nil => exact ⟨none, rfl, fun id _ => by split_ifs <;> rfl⟩
  | cons y ys ih =>
    obtain ⟨hy, htext⟩ := List.forall_mem_cons.mp htext
    have hbehind (hne : cString mem ≠ [] → y.id ≠ cString mem) :
        ∃ r, clearSession mem ys = some r ∧ ∀ id ≠ [],
          slotsOf (r.getD ys) id = if id = cString mem then [] else slotsOf ys id := by
      refine ih htext fun hnil => ?_
      have hle := hone hnil
      rwa [slotsOf_cons_of_ne (hne hnil)] at hle
    rw [clearSession, strcmpEq_eq hy hmem]
    by_cases hfree : y.id = []
    · obtain ⟨r, hr, hslots⟩ := hbehind fun hnil heq => hnil (heq.symm.trans hfree)
      refine ⟨r.map fun ys => y :: ys, by rw [if_pos hfree, hr]; rfl, fun id hid => ?_⟩
      exact slotsOf_getD_map (hslots id hid) fun heq => absurd (heq.symm.trans hfree) hid
    · rw [if_neg hfree]
      by_cases heq : y.id = cString mem
      · refine ⟨some (.zero :: ys), by rw [decide_eq_true heq], fun id hid => ?_⟩
        have hlast : slotsOf ys (cString mem) = [] := by
          have hle := hone (heq ▸ hfree)
          rw [slotsOf_cons_of_eq heq, List.length_cons] at hle
          exact List.eq_nil_of_length_eq_zero (by omega)
        rw [Option.getD_some, slotsOf_cons_of_ne (Ne.symm hid)]
        split_ifs with hclosed
        · rw [hclosed, hlast]
        · rw [slotsOf_cons_of_ne (heq ▸ Ne.symm hclosed)]
      · obtain ⟨r, hr, hslots⟩ := hbehind fun _ => heq
        refine ⟨r.map fun ys => y :: ys, by rw [decide_eq_false heq, hr]; rfl, fun id hid => ?_⟩
        exact slotsOf_getD_map (hslots id hid) fun hy => hy ▸ heq

theorem forall_mem_storeSession {P : AiSession κ υ → Prop} (h : storeSession x ys = some zs)
    (hx : P x) (hys : ∀ y ∈ ys, P y) : ∀ z ∈ zs, P z := by
  induction ys generalizing zs with
  | nil => cases h
  | cons y ys ih =>
    obtain ⟨hy, hys⟩ := List.forall_mem_cons.mp hys
    rw [storeSession] at h
    split_ifs at h
    · rw [← Option.some.inj h]
      exact List.forall_mem_cons.mpr ⟨hx, hys⟩
    · obtain ⟨ws, hws, rfl⟩ := Option.map_eq_some_iff.mp h
      exact List.forall_mem_cons.mpr ⟨hy, ih hws hys⟩

theorem forall_mem_clearSession {P : AiSession κ υ → Prop}
    (h : clearSession mem ys = some (some zs)) (hzero : P .zero) (hys : ∀ y ∈ ys, P y) :
    ∀ z ∈ zs, P z := by
  induction ys generalizing zs with
  | nil => cases h
  | cons y ys ih =>
    obtain ⟨hy, hys⟩ := List.forall_mem_cons.mp hys
    have hbehind (hmap : (clearSession mem ys).map (fun r => r.map fun ys => y :: ys) =
        some (some zs)) : ∀ z ∈ zs, P z := by
      obtain ⟨r, hr, hsome⟩ := Option.map_eq_some_iff.mp hmap
      obtain ⟨ws, rfl, rfl⟩ := Option.map_eq_some_iff.mp hsome
      exact List.forall_mem_cons.mpr ⟨hy, ih hr hys⟩
    rw [clearSession] at h
    split_ifs at h
    · exact hbehind h
    · split at h
      · cases h
      · rw [← Option.some.inj (Option.some.inj h)]
        exact List.forall_mem_cons.mpr ⟨hzero, hys⟩
      · exact hbehind h

end Slots

/-! ### One event -/

/-- The table has the open sessions, and its identifiers are texts. -/
structure Exact (s : BizState κ υ) : Prop where
  held_eq : ∀ id ≠ [], held s.1 id = (s.2 id).toList
  text : ∀ biz, s.1 = some biz → ∀ x ∈ biz.session, 0 ∉ x.id

section Step

variable {s : BizState κ υ}

theorem CrtCall.id_ne_nil (c : CrtCall κ υ) : c.id ≠ [] :=
  List.ne_nil_of_length_pos ((uuidV4_spec c.uuid).1.symm ▸ by decide)

theorem exactStep_of_failed (hs : Exact s) {c : CrtCall κ υ} (rt : OperateRet)
    (hnew : BizEvent.newId s (.crt c) = some c.id → s.2 c.id = none)
    (hstep : tuyaAiBizCrtSession c s.1 = (rt, s.1)) (hrt : rt ≠ oprtOk) :
    ExactStep s (.crt c) := by
  refine ⟨rt, s.1, congrArg some hstep, fun id hid => ?_, fun c' hc' => ?_⟩
  · rw [BizEvent.observe, if_neg hrt]
    exact hs.held_eq id hid
  · cases hc'
    refine iff_of_false hrt ?_
    rintro ⟨hid, hheld⟩
    rw [hs.held_eq c.id c.id_ne_nil, hnew hid] at hheld
    cases hheld

theorem exactStep_pack_iff (hs : Exact s) {c : CrtCall κ υ} {biz : AiBasicBiz κ υ}
    (hbiz : s.1 = some biz) (hnull : c.idNull = false) (hpack : c.packSession = oprtOk)
    (hnew : s.2 c.id = none) :
    ExactStep s (.crt c) ↔ ∃ x ∈ biz.session, x.id = [] := by
  have hid : BizEvent.newId s (.crt c) = some c.id := by
    rw [BizEvent.newId, hbiz, if_pos ⟨rfl, hnull⟩]
  have hslots : slotsOf biz.session c.id = [] := by
    have hheld := hs.held_eq c.id c.id_ne_nil
    rw [hnew, hbiz] at hheld
    exact hheld
  obtain ⟨biz', hstep, hsession⟩ := @crtSession_of_pack _ _ biz c hnull hpack
  have hstep' : (BizEvent.crt c).step s.1 = some (oprtOk, some biz') := by
    rw [hbiz]
    exact congrArg some hstep
  by_cases hfull : ∀ y ∈ biz.session, y.id ≠ []
  · -- `OPRT_OK` opens the session, and no slot has it.
    rw [storeSession_eq_none_iff.mpr hfull, Option.getD_none] at hsession
    refine iff_of_false ?_ ?_
    · rintro ⟨rt, biz₁, hok, hheld, -⟩
      rw [hstep'] at hok
      obtain ⟨rfl, rfl⟩ := Prod.mk.inj (Option.some.inj hok)
      have hlost := hheld c.id c.id_ne_nil
      rw [held, hsession, hslots, BizEvent.observe, if_pos rfl, Function.update_self] at hlost
      cases hlost
    · rintro ⟨x, hx, hfree⟩
      exact hfull x hx hfree
  · obtain ⟨session, hstore⟩ := Option.ne_none_iff_exists'.mp
      (mt (@storeSession_eq_none_iff _ _ ⟨c.id, c.cfg⟩ _).mp hfull)
    rw [hstore, Option.getD_some] at hsession
    have hafter (id : Bytes) (hne : id ≠ []) :=
      slotsOf_storeSession hstore c.id_ne_nil hslots hne
    have hfree : ∃ x ∈ biz.session, x.id = [] := by
      by_contra hnone
      exact hfull fun y hy hfree => hnone ⟨y, hy, hfree⟩
    refine iff_of_true ⟨oprtOk, some biz', hstep', fun id hne => ?_, fun c' hc' => ?_⟩ hfree
    · rw [held, hsession, hafter id hne, BizEvent.observe, if_pos rfl, Function.update_apply]
      split_ifs
      · rfl
      · have hheld := hs.held_eq id hne
        rwa [hbiz] at hheld
    · cases hc'
      refine iff_of_true rfl ⟨hid, ?_⟩
      rw [held, hsession, hafter c.id c.id_ne_nil, if_pos rfl]

theorem exactStep_crt_iff (hs : Exact s) (c : CrtCall κ υ)
    (hnew : BizEvent.newId s (.crt c) = some c.id → s.2 c.id = none) :
    ExactStep s (.crt c) ↔ FindsSlot s (.crt c) := by
  cases hbiz : s.1 with
  | none =>
    refine iff_of_true (exactStep_of_failed hs oprtComError hnew ?_ (by decide)) ?_
    · rw [hbiz]
      rfl
    · intro _ _ _ hsome
      rw [hbiz] at hsome
      cases hsome
  | some biz =>
    cases hnull : c.idNull with
    | true =>
      refine iff_of_true (exactStep_of_failed hs oprtInvalidParm hnew ?_ (by decide)) ?_
      · rw [hbiz, tuyaAiBizCrtSession, if_pos hnull]
      · intro c' _ hc' _ hfalse
        cases hc'
        rw [hnull] at hfalse
        cases hfalse
    | false =>
      by_cases hpack : c.packSession = oprtOk
      · have hid : BizEvent.newId s (.crt c) = some c.id := by
          rw [BizEvent.newId, hbiz, if_pos ⟨rfl, hnull⟩]
        rw [exactStep_pack_iff hs hbiz hnull hpack (hnew hid)]
        constructor
        · intro h c' biz₁ hc' hsome _ _
          rw [hbiz] at hsome
          rwa [← Option.some.inj hsome]
        · intro h
          exact h c biz rfl hbiz hnull hpack
      · refine iff_of_true (exactStep_of_failed hs c.packSession hnew ?_ hpack) ?_
        · rw [hbiz, tuyaAiBizCrtSession, if_neg (by rw [hnull]; exact Bool.false_ne_true),
            if_pos hpack]
        · intro c' _ hc' _ _ hok
          cases hc'
          exact absurd hok hpack

theorem text_crt (hs : Exact s) (c : CrtCall κ υ) (biz' : AiBasicBiz κ υ)
    (hbiz' : (tuyaAiBizCrtSession c s.1).2 = some biz') : ∀ x ∈ biz'.session, 0 ∉ x.id := by
  cases hbiz : s.1 with
  | none =>
    rw [hbiz] at hbiz'
    cases hbiz'
  | some biz =>
    have htext := hs.text biz hbiz
    rw [hbiz] at hbiz'
    by_cases hfail : c.idNull = true ∨ c.packSession ≠ oprtOk
    · have hsame : (tuyaAiBizCrtSession c (some biz)).2 = some biz := by
        rw [tuyaAiBizCrtSession]
        rcases hfail with hnull | hpack
        · rw [if_pos hnull]
        · split_ifs <;> rfl
      rw [hsame] at hbiz'
      rwa [← Option.some.inj hbiz']
    · obtain ⟨hnull, hpack⟩ := not_or.mp hfail
      obtain ⟨biz₁, hstep, hsession⟩ :=
        @crtSession_of_pack _ _ biz c (Bool.eq_false_iff.mpr hnull) (not_not.mp hpack)
      rw [hstep] at hbiz'
      rw [← Option.some.inj hbiz', hsession]
      cases hstore : storeSession ⟨c.id, c.cfg⟩ biz.session with
      | none => exact htext
      | some session => exact forall_mem_storeSession hstore (uuidV4_spec c.uuid).2 htext

theorem destory_spec (hs : Exact s) (id : CStr) (close : Option OperateRet) :
    ∃ rt biz, aiBizSessionDestory (some id.mem) close s.1 = some (rt, biz) ∧
      Exact (biz, Function.update s.2 (cString id.mem) none) := by
  have hone (i : Bytes) (hi : i ≠ []) : (held s.1 i).length ≤ 1 := by
    rw [hs.held_eq i hi]
    cases s.2 i <;> simp
  cases hbiz : s.1 with
  | none =>
    refine ⟨oprtInvalidParm, none, rfl, fun i hi => ?_, nofun⟩
    have hheld := hs.held_eq i hi
    rw [hbiz] at hheld
    show [] = (Function.update s.2 (cString id.mem) none i).toList
    rw [Function.update_apply]
    split_ifs
    · rfl
    · exact hheld
  | some biz =>
    obtain ⟨r, hr, hslots⟩ := slotsOf_clearSession (hs.text biz hbiz) id.zero_mem fun hnil => by
      have hle := hone (cString id.mem) hnil
      rwa [hbiz] at hle
    obtain ⟨rt, biz', hstep, hsession⟩ := sessionDestory_of_clear hr close
    refine ⟨rt, some biz', hstep, fun i hi => ?_, ?_⟩
    · show slotsOf biz'.session i = _
      rw [hsession, hslots i hi]
      dsimp only
      rw [Function.update_apply]
      split_ifs
      · rfl
      · have hheld := hs.held_eq i hi
        rwa [hbiz] at hheld
    · intro biz₁ hbiz₁
      rw [← Option.some.inj hbiz₁, hsession]
      cases r with
      | none => exact hs.text biz hbiz
      | some session => exact forall_mem_clearSession hr List.not_mem_nil (hs.text biz hbiz)

theorem cltClose_spec (s : BizState κ υ) : Exact (aiCltCloseEvt s.1, fun _ => none) := by
  cases hbiz : s.1 with
  | none => exact ⟨fun _ _ => rfl, nofun⟩
  | some biz =>
    have hempty : ∀ x ∈ biz.session.map fun x => if x.id ≠ [] then .zero else x, x.id = [] := by
      intro x hx
      obtain ⟨y, -, rfl⟩ := List.mem_map.mp hx
      split_ifs with hy
      · rfl
      · exact not_not.mp hy
    refine ⟨fun id hid => ?_, fun biz' hbiz' x hx => ?_⟩
    · show ((biz.session.map fun x => if x.id ≠ [] then .zero else x).filter
        fun x => x.id = id).map AiSession.cfg = []
      rw [List.filter_eq_nil_iff.mpr, List.map_nil]
      intro x hx
      rw [hempty x hx]
      simpa using Ne.symm hid
    · rw [← Option.some.inj hbiz'] at hx
      rw [hempty x hx]
      exact List.not_mem_nil

theorem run_spec (hs : Exact s) (malloc mutex : Bool) :
    Exact (aiCltRunEvt malloc mutex s.1, s.2) := by
  cases hbiz : s.1 with
  | some biz =>
    have hsame : aiCltRunEvt malloc mutex (some biz) = s.1 := hbiz.symm
    rw [hsame]
    exact hs
  | none =>
    have hlive (id : Bytes) (hid : id ≠ []) : [] = (s.2 id).toList := by
      have hheld := hs.held_eq id hid
      rwa [hbiz] at hheld
    rw [aiCltRunEvt]
    split_ifs
    · refine ⟨fun id hid => ?_, fun biz' hbiz' x hx => ?_⟩
      · rw [← hlive id hid]
        show ((List.replicate aiSessionMaxNum AiSession.zero).filter
          fun x => x.id = id).map AiSession.cfg = []
        rw [List.filter_eq_nil_iff.mpr, List.map_nil]
        intro x hx
        rw [(List.mem_replicate.mp hx).2]
        simpa [AiSession.zero] using Ne.symm hid
      · rw [← Option.some.inj hbiz'] at hx
        rw [(List.mem_replicate.mp hx).2]
        exact List.not_mem_nil
    · exact ⟨hlive, nofun⟩

theorem findsSlot_of_ne_crt {ev : BizEvent κ υ} (h : ∀ c, ev ≠ .crt c) : FindsSlot s ev :=
  fun c _ hc _ _ _ => absurd hc (h c)

theorem exactStep_of_exact {ev : BizEvent κ υ} {rt : OperateRet} {biz : Option (AiBasicBiz κ υ)}
    (hcrt : ∀ c, ev ≠ .crt c) (hstep : ev.step s.1 = some (rt, biz))
    (h : Exact (biz, ev.observe s.2 rt)) :
    (ExactStep s ev ↔ FindsSlot s ev) ∧ (ExactStep s ev → Exact (ev.next s)) := by
  refine ⟨iff_of_true ⟨rt, biz, hstep, h.held_eq, fun c hc => absurd hc (hcrt c)⟩
    (findsSlot_of_ne_crt hcrt), fun _ => ?_⟩
  rw [BizEvent.next, hstep]
  exact h

/-- **One event** leaves the table exact just when a creation finds a slot. -/
theorem exactStep_iff (hs : Exact s) (ev : BizEvent κ υ)
    (hfresh : ∀ id, ev.newId s = some id → s.2 id = none) :
    (ExactStep s ev ↔ FindsSlot s ev) ∧ (ExactStep s ev → Exact (ev.next s)) := by
  cases ev with
  | run malloc mutex => exact exactStep_of_exact nofun rfl (run_spec hs malloc mutex)
  | cltClose => exact exactStep_of_exact nofun rfl (cltClose_spec s)
  | crt c =>
    refine ⟨exactStep_crt_iff hs c fun h => hfresh c.id h, ?_⟩
    rintro ⟨rt, biz, hstep, hheld, -⟩
    rw [BizEvent.next, hstep]
    refine ⟨hheld, fun biz' hbiz' => text_crt hs c biz' ?_⟩
    rw [Option.some.inj hstep]
    exact hbiz'
  | del id close =>
    cases id with
    | none => exact exactStep_of_exact nofun rfl hs
    | some id =>
      obtain ⟨rt, biz, hstep, hexact⟩ := destory_spec hs id (some close)
      exact exactStep_of_exact nofun hstep hexact
  | remoteClose id =>
    cases id with
    | none => exact exactStep_of_exact nofun rfl hs
    | some id =>
      obtain ⟨rt, biz, hstep, hexact⟩ := destory_spec hs id none
      exact exactStep_of_exact nofun hstep hexact

theorem crtSession_ne_ok {c : CrtCall κ υ} (h : BizEvent.newId s (.crt c) ≠ some c.id) :
    (tuyaAiBizCrtSession c s.1).1 ≠ oprtOk := by
  rw [BizEvent.newId] at h
  cases hbiz : s.1 with
  | none => exact oprtComError_ne_ok
  | some biz =>
    cases hnull : c.idNull with
    | true =>
      rw [tuyaAiBizCrtSession, if_pos hnull]
      exact (by decide : oprtInvalidParm ≠ oprtOk)
    | false =>
      rw [hbiz, if_pos ⟨rfl, hnull⟩] at h
      exact absurd rfl h

theorem open_next {ev : BizEvent κ υ} {id : Bytes} (h : (ev.next s).2 id ≠ none) :
    s.2 id ≠ none ∨ ev.newId s = some id := by
  have hupdate (i : Bytes) (hi : Function.update s.2 i none id ≠ none) : s.2 id ≠ none := by
    rw [Function.update_apply] at hi
    split_ifs at hi
    · exact absurd rfl hi
    · exact hi
  rw [BizEvent.next] at h
  cases hstep : ev.step s.1 with
  | none =>
    rw [hstep] at h
    exact .inl h
  | some r =>
    rw [hstep] at h
    dsimp only at h
    cases ev with
    | run malloc mutex => exact .inl h
    | cltClose => exact absurd rfl h
    | crt c =>
      rw [BizEvent.observe] at h
      by_cases hnew : BizEvent.newId s (.crt c) = some c.id
      · by_cases hid : id = c.id
        · exact .inr (hid ▸ hnew)
        · split_ifs at h
          · rw [Function.update_of_ne hid] at h
            exact .inl h
          · exact .inl h
      · have hrt : r.1 ≠ oprtOk := by
          rw [← Option.some.inj hstep]
          exact crtSession_ne_ok hnew
        rw [if_neg hrt] at h
        exact .inl h
    | del id close =>
      cases id with
      | none => exact .inl h
      | some id => exact .inl (hupdate _ h)
    | remoteClose id =>
      cases id with
      | none => exact .inl h
      | some id => exact .inl (hupdate _ h)

end Step

/-! ### Runs -/

/-- **The session table** is exact in the runs in which no creation meets a full table. -/
theorem sessionTable_iff (evs : List (BizEvent κ υ))
    (hdistinct : (generatedIds (none, fun _ => none) evs).Nodup) :
    Guarded BizEvent.next ExactStep (none, fun _ => none) evs ↔
      Guarded BizEvent.next FindsSlot (none, fun _ => none) evs := by
  have hrun (s : BizState κ υ) (evs : List (BizEvent κ υ)) (hs : Exact s)
      (hfresh : ∀ id, s.2 id ≠ none → id ∉ generatedIds s evs)
      (hdistinct : (generatedIds s evs).Nodup) :
      Guarded BizEvent.next ExactStep s evs ↔ Guarded BizEvent.next FindsSlot s evs := by
    induction evs generalizing s with
    | nil => exact Iff.rfl
    | cons ev evs ih =>
      rw [generatedIds] at hdistinct hfresh
      obtain ⟨-, hrest, hdisjoint⟩ := List.nodup_append.mp hdistinct
      have hnew (id : Bytes) (hid : ev.newId s = some id) : s.2 id = none := by
        by_contra hopen
        exact hfresh id hopen
          (List.mem_append_left _ (by rw [hid]; exact List.mem_singleton_self id))
      obtain ⟨hiff, hnext⟩ := exactStep_iff hs ev hnew
      have hfresh' (id : Bytes) (hid : (ev.next s).2 id ≠ none) :
          id ∉ generatedIds (ev.next s) evs := by
        rcases open_next hid with hopen | hid
        · exact fun hmem => hfresh id hopen (List.mem_append_right _ hmem)
        · intro hmem
          exact hdisjoint id (by rw [hid]; exact List.mem_singleton_self id) id hmem rfl
      constructor
      · rintro ⟨hexact, hevs⟩
        exact ⟨hiff.mp hexact, (ih _ (hnext hexact) hfresh' hrest).mp hevs⟩
      · rintro ⟨hfinds, hevs⟩
        have hexact := hiff.mpr hfinds
        exact ⟨hexact, (ih _ (hnext hexact) hfresh' hrest).mpr hevs⟩
  exact hrun _ evs ⟨fun _ _ => rfl, nofun⟩ (fun _ h => absurd rfl h) hdistinct

/-- A creation with the random bytes `b`, in which nothing fails. -/
def sampleCrt (b : UInt8) : BizEvent Unit Unit :=
  .crt ⟨AiSession.zero.cfg, false, fun _ => b, fun _ => true, fun _ _ => oprtOk, false⟩

def sampleEvents : List (BizEvent Unit Unit) :=
  [.run true true, sampleCrt 1, sampleCrt 2,
    .remoteClose (some ⟨tuyaAiBasicUuidV4 (fun _ => 1) ++ [0], List.mem_append_right _ (.head _)⟩),
    sampleCrt 3]

theorem sessionTable_iff_sampleEvents :
    (generatedIds (none, fun _ => none) sampleEvents).Nodup ∧
      (Guarded BizEvent.next ExactStep (none, fun _ => none) sampleEvents ↔
        Guarded BizEvent.next FindsSlot (none, fun _ => none) sampleEvents) := by
  have hdistinct : (generatedIds (none, fun _ => none) sampleEvents).Nodup := by decide +kernel
  exact ⟨hdistinct, sessionTable_iff sampleEvents hdistinct⟩

def sevenSessions : List (BizEvent Unit Unit) :=
  [.run true true, sampleCrt 1, sampleCrt 2, sampleCrt 3, sampleCrt 4, sampleCrt 5, sampleCrt 6] ++
    [sampleCrt 7]

/-- The seventh creation returns `OPRT_OK`, and its session is not in the table. -/
theorem not_exactStep_sevenSessions :
    ¬∀ evs : List (BizEvent Unit Unit), (generatedIds (none, fun _ => none) evs).Nodup →
      Guarded BizEvent.next ExactStep (none, fun _ => none) evs := by
  intro h
  have hdistinct : (generatedIds (none, fun _ => none) sevenSessions).Nodup := by decide +kernel
  obtain ⟨-, ⟨rt, biz, hstep, hheld, -⟩, -⟩ := guarded_append.mp (h sevenSessions hdistinct)
  have hlost : ((sampleCrt 7).step (List.foldl BizEvent.next (none, fun _ => none)
      [.run true true, sampleCrt 1, sampleCrt 2, sampleCrt 3, sampleCrt 4, sampleCrt 5,
        sampleCrt 6]).1).map (fun r => (r.1, held r.2 (tuyaAiBasicUuidV4 fun _ => 7))) =
      some (oprtOk, []) := by
    decide +kernel
  rw [hstep] at hlost
  obtain ⟨hrt, hnone⟩ := Prod.mk.inj (Option.some.inj hlost)
  have hobserve (live : OpenSessions Unit Unit) :
      (sampleCrt 7).observe live rt (tuyaAiBasicUuidV4 fun _ => 7) = some AiSession.zero.cfg := by
    show (if rt = oprtOk then
      Function.update live (tuyaAiBasicUuidV4 fun _ => 7) (some AiSession.zero.cfg)
      else live) _ = _
    rw [if_pos hrt, Function.update_self]
  have hopen := hheld (tuyaAiBasicUuidV4 fun _ => 7)
    (List.ne_nil_of_length_pos ((uuidV4_spec _).1.symm ▸ by decide))
  rw [hobserve, show held biz (tuyaAiBasicUuidV4 fun _ => 7) = [] from hnone] at hopen
  cases hopen

end TuyaOpen.AiBiz
