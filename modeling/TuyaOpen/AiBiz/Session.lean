import TuyaOpen.Basic.Text
import TuyaOpen.Common.OperateRet

/-!
# AI sessions

The table of sessions in `tuya_ai_biz.c`. It has six slots; a slot is free if its identifier is the
empty string. Sessions are created and deleted by the application, and closed by the cloud or with
the connection. Callbacks and the pointers that they get are of arbitrary types.
-/

namespace TuyaOpen.AiBiz

/-- `AI_SESSION_MAX_NUM`. -/
def aiSessionMaxNum : Nat := 6

/-- `AI_MAX_SESSION_ID_NUM`. -/
def aiMaxSessionIdNum : Nat := 5

/-! ### Static data -/

/-- `AI_BIZ_SEND_DATA_T`: the channel, and whether there is a `get_cb`. -/
structure AiBizSendData where
  id : UInt16
  getCb : Bool
  deriving DecidableEq

/-- `AI_BIZ_RECV_DATA_T`. -/
structure AiBizRecvData (κ υ : Type*) where
  id : UInt16
  cb : Option κ
  usrData : Option υ
  deriving DecidableEq

/-- `AI_SESSION_CFG_T`. The lists have `send_num` and `recv_num` members. -/
structure AiSessionCfg (κ υ : Type*) where
  send : List AiBizSendData
  recv : List (AiBizRecvData κ υ)
  eventCb : Option κ
  length_send_le : send.length ≤ aiMaxSessionIdNum
  length_recv_le : recv.length ≤ aiMaxSessionIdNum
  deriving DecidableEq

/-- `AI_SESSION_T`: the text in `id`, and `cfg`. -/
structure AiSession (κ υ : Type*) where
  id : Bytes
  cfg : AiSessionCfg κ υ
  deriving DecidableEq

/-- `AI_BASIC_BIZ_T`; of the thread only whether it has been created. -/
structure AiBasicBiz (κ υ : Type*) where
  thread : Bool
  session : List (AiSession κ υ)
  cb : Option κ
  length_session : session.length = aiSessionMaxNum
  deriving DecidableEq

section Model

variable {κ υ : Type*}

def AiSession.zero : AiSession κ υ :=
  ⟨[], ⟨[], [], none, Nat.zero_le _, Nat.zero_le _⟩⟩

/-- The static data after `memset`. -/
def AiBasicBiz.zero : AiBasicBiz κ υ :=
  ⟨false, List.replicate aiSessionMaxNum .zero, none, List.length_replicate⟩

/-! ### Identifiers -/

/-- A byte that is printed with `%02x`. -/
def hexByte (b : UInt8) : Bytes :=
  asciiBytes [Nat.digitChar (b.toNat / 16), Nat.digitChar (b.toNat % 16)]

/-- The groups of digits in an identifier that is made of the random bytes `uuid`. -/
def uuidGroups (uuid : Fin 16 → UInt8) : List (List UInt8) :=
  [[uuid 0, uuid 1, uuid 2, uuid 3], [uuid 4, uuid 5], [uuid 6 &&& 0x0F ||| 0x40, uuid 7],
    [uuid 8 &&& 0x3F ||| 0x80, uuid 9],
    [uuid 10, uuid 11, uuid 12, uuid 13, uuid 14, uuid 15]]

/-- `tuya_ai_basic_uuid_v4`, when `uni_random_bytes` gives `uuid`. -/
def tuyaAiBasicUuidV4 (uuid : Fin 16 → UInt8) : Bytes :=
  (asciiBytes ['-']).intercalate ((uuidGroups uuid).map fun group => group.flatMap hexByte)

/-- `!strcmp`, for a text and a pointer: no result if memory ends while both are equal. -/
def strcmpEq : Bytes → Bytes → Option Bool
  | _, [] => none
  | [], b :: _ => some (b = 0)
  | a :: as, b :: bs => if a = b then strcmpEq as bs else some false

/-! ### The table -/

/-- The loop of `tuya_ai_biz_crt_session`: the first free slot is filled. There is no result if
`idx` gets to `AI_SESSION_MAX_NUM`. -/
def storeSession (x : AiSession κ υ) : List (AiSession κ υ) → Option (List (AiSession κ υ))
  | [] => none
  | y :: ys => if y.id = [] then some (x :: ys) else (storeSession x ys).map fun ys => y :: ys

/-- The loop of `__ai_biz_session_destory`: the first slot of the session is cleared, and there is
none if `idx` gets to `AI_SESSION_MAX_NUM`. There is no result at all if `id` is read behind its
memory. -/
def clearSession (id : Bytes) : List (AiSession κ υ) → Option (Option (List (AiSession κ υ)))
  | [] => some none
  | y :: ys =>
    if y.id = [] then (clearSession id ys).map fun r => r.map fun ys => y :: ys
    else
      match strcmpEq y.id id with
      | none => none
      | some true => some (some (.zero :: ys))
      | some false => (clearSession id ys).map fun r => r.map fun ys => y :: ys

theorem length_storeSession {x : AiSession κ υ} {ys zs : List (AiSession κ υ)}
    (h : storeSession x ys = some zs) : zs.length = ys.length := by
  induction ys generalizing zs with
  | nil => cases h
  | cons y ys ih =>
    rw [storeSession] at h
    split_ifs at h
    · rw [← Option.some.inj h]
      rfl
    · obtain ⟨zs, hzs, rfl⟩ := Option.map_eq_some_iff.mp h
      exact congrArg Nat.succ (ih hzs)

theorem length_clearSession {id : Bytes} {ys zs : List (AiSession κ υ)}
    (h : clearSession id ys = some (some zs)) : zs.length = ys.length := by
  induction ys generalizing zs with
  | nil => cases h
  | cons y ys ih =>
    have hrest (hmap : (clearSession id ys).map (fun r => r.map fun ys => y :: ys) =
        some (some zs)) : zs.length = (y :: ys).length := by
      obtain ⟨r, hr, hsome⟩ := Option.map_eq_some_iff.mp hmap
      obtain ⟨zs', rfl, rfl⟩ := Option.map_eq_some_iff.mp hsome
      exact congrArg Nat.succ (ih hr)
    rw [clearSession] at h
    split_ifs at h
    · exact hrest h
    · split at h
      · cases h
      · rw [← Option.some.inj (Option.some.inj h)]
        rfl
      · exact hrest h

/-- `__ai_biz_need_send_task`. -/
def aiBizNeedSendTask (session : List (AiSession κ υ)) : Bool :=
  session.any fun x => x.id ≠ [] && x.cfg.send.any fun s => s.getCb

/-! ### Creating -/

/-- The data that `__ai_pack_session_data` sends with the identifiers of the channels. -/
def packSessionData (cfg : AiSessionCfg κ υ) : Bytes :=
  beBytes 2 (2 * cfg.send.length) ++ cfg.send.flatMap (fun s => beBytes 2 s.id.toNat) ++
    (beBytes 2 (2 * cfg.recv.length) ++ cfg.recv.flatMap fun r => beBytes 2 r.id.toNat)

/-- A call of `tuya_ai_biz_crt_session`, with what the functions that it calls give: random bytes,
memory, the result of `tuya_ai_basic_session_new` and a thread. -/
structure CrtCall (κ υ : Type*) where
  cfg : AiSessionCfg κ υ
  idNull : Bool
  uuid : Fin 16 → UInt8
  malloc : Nat → Bool
  sessionNew : Bytes → Bytes → OperateRet
  threadCreate : Bool

def CrtCall.id (c : CrtCall κ υ) : Bytes := tuyaAiBasicUuidV4 c.uuid

/-- `__ai_pack_session_data`. -/
def CrtCall.packSession (c : CrtCall κ υ) : OperateRet :=
  let data := packSessionData c.cfg
  if c.malloc data.length then c.sessionNew c.id data else oprtMallocFailed

/-- `tuya_ai_biz_crt_session`: the return value and the static data. -/
def tuyaAiBizCrtSession (c : CrtCall κ υ) (aiBasicBiz : Option (AiBasicBiz κ υ)) :
    OperateRet × Option (AiBasicBiz κ υ) :=
  match aiBasicBiz with
  | none => (oprtComError, none)
  | some biz =>
    if c.idNull then (oprtInvalidParm, some biz)
    else if c.packSession ≠ oprtOk then (c.packSession, some biz)
    else
      let biz : AiBasicBiz κ υ :=
        match h : storeSession ⟨c.id, c.cfg⟩ biz.session with
        | none => biz
        | some session =>
          { biz with
            session := session
            length_session := (length_storeSession h).trans biz.length_session }
      let thread := biz.thread || aiBizNeedSendTask biz.session && c.threadCreate
      -- With a full table `rt` is `OPRT_OK` as well.
      (c.packSession, some { biz with thread := thread })

/-! ### Closing -/

/-- `__ai_biz_session_destory`, with the result of `tuya_ai_basic_session_close` if that is called.
There is no result if `id` is read behind its memory. -/
def aiBizSessionDestory (id : Option Bytes) (close : Option OperateRet)
    (aiBasicBiz : Option (AiBasicBiz κ υ)) : Option (OperateRet × Option (AiBasicBiz κ υ)) :=
  match id, aiBasicBiz with
  | some id, some biz =>
    match h : clearSession id biz.session with
    | none => none
    | some none => some (oprtComError, some biz)
    | some (some session) =>
      some (close.getD oprtOk, some
        { biz with
          session := session
          length_session := (length_clearSession h).trans biz.length_session })
  | _, _ => some (oprtInvalidParm, aiBasicBiz)

/-- `tuya_ai_biz_del_session`. -/
def tuyaAiBizDelSession (id : Option Bytes) (close : OperateRet)
    (aiBasicBiz : Option (AiBasicBiz κ υ)) : Option (OperateRet × Option (AiBasicBiz κ υ)) :=
  aiBizSessionDestory id (some close) aiBasicBiz

/-- `__ai_clt_close_evt`. -/
def aiCltCloseEvt (aiBasicBiz : Option (AiBasicBiz κ υ)) : Option (AiBasicBiz κ υ) :=
  aiBasicBiz.map fun biz =>
    { biz with
      session := biz.session.map fun x => if x.id ≠ [] then .zero else x
      length_session := (List.length_map _).trans biz.length_session }

/-- `__ai_clt_run_evt`, when memory and a mutex can be had or not. -/
def aiCltRunEvt (malloc mutex : Bool) (aiBasicBiz : Option (AiBasicBiz κ υ)) :
    Option (AiBasicBiz κ υ) :=
  match aiBasicBiz with
  | some biz => some biz
  | none => if malloc && mutex then some .zero else none

end Model

/-! ### The table behind a call -/

section Calls

variable {κ υ : Type*} {biz : AiBasicBiz κ υ}

theorem crtSession_of_pack {c : CrtCall κ υ} (hnull : c.idNull = false)
    (hpack : c.packSession = oprtOk) :
    ∃ biz', tuyaAiBizCrtSession c (some biz) = (oprtOk, some biz') ∧
      biz'.session = (storeSession ⟨c.id, c.cfg⟩ biz.session).getD biz.session := by
  rw [tuyaAiBizCrtSession, if_neg (by rw [hnull]; exact Bool.false_ne_true),
    if_neg (not_not.mpr hpack), hpack]
  refine ⟨_, rfl, ?_⟩
  dsimp only
  split
  · next h => exact (congrArg (Option.getD · biz.session) h).symm
  · next session h => exact (congrArg (Option.getD · biz.session) h).symm

theorem sessionDestory_of_clear {id : Bytes} {r : Option (List (AiSession κ υ))}
    (h : clearSession id biz.session = some r) (close : Option OperateRet) :
    ∃ rt biz', aiBizSessionDestory (some id) close (some biz) = some (rt, some biz') ∧
      biz'.session = r.getD biz.session := by
  rw [aiBizSessionDestory]
  split
  · next hnone => rw [h] at hnone; cases hnone
  · next hsome =>
    rw [h] at hsome
    obtain rfl := Option.some.inj hsome
    exact ⟨_, _, rfl, rfl⟩
  · next session hsome =>
    rw [h] at hsome
    obtain rfl := Option.some.inj hsome
    exact ⟨_, _, rfl, rfl⟩

end Calls

/-! ### Texts -/

theorem hexByte_spec (b : UInt8) : (hexByte b).length = 2 ∧ 0 ∉ hexByte b := by
  have hdigit : ∀ n < 16, UInt8.ofNat (Nat.digitChar n).toNat ≠ 0 := by decide
  have hb : b.toNat < 256 := b.toNat_lt
  refine ⟨rfl, fun h => ?_⟩
  rcases List.mem_cons.mp h with hhigh | hrest
  · exact hdigit (b.toNat / 16) (by omega) hhigh.symm
  · exact hdigit (b.toNat % 16) (by omega) (List.mem_singleton.mp hrest).symm

theorem flatMap_hexByte (group : List UInt8) :
    (group.flatMap hexByte).length = 2 * group.length ∧ 0 ∉ group.flatMap hexByte := by
  induction group with
  | nil => exact ⟨rfl, List.not_mem_nil⟩
  | cons b group ih =>
    obtain ⟨hlen, hzero⟩ := hexByte_spec b
    refine ⟨?_, ?_⟩
    · rw [List.flatMap_cons, List.length_append, hlen, ih.1, List.length_cons]
      omega
    · rw [List.flatMap_cons, List.mem_append]
      exact not_or.mpr ⟨hzero, ih.2⟩

/-- **An identifier** is a text of 36 bytes. -/
theorem uuidV4_spec (uuid : Fin 16 → UInt8) :
    (tuyaAiBasicUuidV4 uuid).length = 36 ∧ 0 ∉ tuyaAiBasicUuidV4 uuid := by
  have hdash : asciiBytes ['-'] = [45] := rfl
  have hzero (group : List UInt8) : 0 ∉ group.flatMap hexByte := (flatMap_hexByte group).2
  have hlen (group : List UInt8) : (group.flatMap hexByte).length = 2 * group.length :=
    (flatMap_hexByte group).1
  simp only [tuyaAiBasicUuidV4, uuidGroups, List.intercalate, List.map_cons, List.map_nil,
    List.intersperse, List.flatten_cons, List.flatten_nil, hdash]
  constructor
  · simp only [List.length_append, hlen]
    rfl
  · simp only [List.mem_append, hzero]
    decide

theorem strcmpEq_eq {text mem : Bytes} (htext : 0 ∉ text) (hmem : 0 ∈ mem) :
    strcmpEq text mem = some (decide (text = cString mem)) := by
  induction mem generalizing text with
  | nil => cases hmem
  | cons b mem ih =>
    rw [cString_cons]
    cases text with
    | nil => by_cases hb : b = 0 <;> simp [strcmpEq, hb]
    | cons a text =>
      obtain ⟨ha, htext⟩ := not_or.mp (mt List.mem_cons.mpr htext)
      rw [strcmpEq]
      by_cases hab : a = b
      · have hb : b ≠ 0 := fun hzero => ha (hab.trans hzero).symm
        have hmem' : 0 ∈ mem := (List.mem_cons.mp hmem).resolve_left (Ne.symm hb)
        rw [if_pos hab, ih htext hmem', if_neg hb, hab]
        simp
      · rw [if_neg hab]
        by_cases hb : b = 0 <;> simp [hb, hab]

end TuyaOpen.AiBiz
