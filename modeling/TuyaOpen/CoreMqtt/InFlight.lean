import TuyaOpen.Basic.Transition
import TuyaOpen.CoreMqtt.Records

/-!
# The publishes in flight

What the records are for: the publishes in flight in each direction, in order, with different packet
identifiers. The functions of `core_mqtt_state.c` on the two arrays answer every sequence of calls
as the operations on these lists do. Where a record stands in its array and when the array is
compacted cannot be told from the answers.
-/

namespace TuyaOpen.CoreMqtt

/-! ### Lists of records -/

@[ext] structure RecordLog where
  records : List MqttPubAckInfo
  unique : UniqueIds records
  inUse : ∀ record ∈ records, record.InUse
  room : records.length ≤ mqttStateArrayMaxCount

def RecordLog.empty : RecordLog :=
  ⟨[], List.nodup_nil, by simp, Nat.zero_le _⟩

section Operations

variable {records : List MqttPubAckInfo}

theorem uniqueIds_appendRecord (h : UniqueIds records) (info : MqttPubAckInfo) :
    UniqueIds (appendRecord records info).2 := by
  rw [appendRecord]
  split
  · exact h
  next hid =>
    split
    · rw [UniqueIds, List.map_append, List.nodup_append]
      refine ⟨h, List.nodup_singleton _, ?_⟩
      intro a ha b hb heq
      rw [List.map_singleton, List.mem_singleton] at hb
      exact hid (by rwa [← hb, ← heq])
    · exact h

theorem inUse_appendRecord (h : ∀ record ∈ records, record.InUse) {info : MqttPubAckInfo}
    (hinfo : info.InUse) : ∀ record ∈ (appendRecord records info).2, record.InUse := by
  rw [appendRecord]
  split
  · exact h
  · split
    · intro record hrecord
      rcases List.mem_append.1 hrecord with hrecord | hrecord
      · exact h record hrecord
      · rwa [List.mem_singleton.1 hrecord]
    · exact h

theorem room_appendRecord (h : records.length ≤ mqttStateArrayMaxCount) (info : MqttPubAckInfo) :
    (appendRecord records info).2.length ≤ mqttStateArrayMaxCount := by
  rw [appendRecord]
  split
  · exact h
  · split
    · rwa [List.length_append]
    · exact h

@[simp] theorem map_packetId_setRecordState (records : List MqttPubAckInfo) (packetId : UInt16)
    (newState : MqttPublishState) :
    (setRecordState records packetId newState).map (·.packetId) = records.map (·.packetId) := by
  rw [setRecordState, List.map_map]
  refine List.map_congr_left fun record _ => ?_
  rw [Function.comp_apply]
  split <;> rfl

theorem inUse_setRecordState (h : ∀ record ∈ records, record.InUse) (packetId : UInt16)
    (newState : MqttPublishState) :
    ∀ record ∈ setRecordState records packetId newState, record.InUse := by
  intro record hrecord
  obtain ⟨r, hr, rfl⟩ := List.mem_map.1 hrecord
  split
  · exact h r hr
  · exact h r hr

theorem uniqueIds_eraseRecord (h : UniqueIds records) (packetId : UInt16) :
    UniqueIds (eraseRecord records packetId) :=
  h.sublist (List.filter_sublist.map _)

theorem length_eraseRecord_lt {packetId : UInt16} {record : MqttPubAckInfo}
    (h : lookupRecord records packetId = some record) :
    (eraseRecord records packetId).length < records.length := by
  rw [eraseRecord, List.length_filter_lt_length_iff_exists]
  have hrecord := List.find?_some h
  exact ⟨record, List.mem_of_find?_eq_some h, by simpa using hrecord⟩

theorem packetId_not_mem_eraseRecord (records : List MqttPubAckInfo) (packetId : UInt16) :
    packetId ∉ (eraseRecord records packetId).map (·.packetId) := by
  rw [List.mem_map]
  rintro ⟨record, hrecord, hid⟩
  have := (List.mem_filter.1 hrecord).2
  simp [hid] at this

theorem setRecordState_self (h : UniqueIds records) {packetId : UInt16} {record : MqttPubAckInfo}
    (hrecord : lookupRecord records packetId = some record) :
    setRecordState records packetId record.publishState = records := by
  have hid : record.packetId = packetId := by simpa using List.find?_some hrecord
  obtain ⟨front, back, rfl⟩ := List.append_of_mem (List.mem_of_find?_eq_some hrecord)
  obtain ⟨hfront, hback⟩ := h.split
  rw [hid] at hfront hback
  have hfront' := setRecordState_of_forall hfront record.publishState
  have hback' := setRecordState_of_forall hback record.publishState
  rw [setRecordState] at hfront' hback' ⊢
  rw [List.map_append, List.map_cons, hfront', hback', if_pos hid]

end Operations

namespace RecordLog

def ids (log : RecordLog) : List UInt16 := log.records.map (·.packetId)

def append (log : RecordLog) (packetId : UInt16) (h : packetId ≠ packetIdInvalid) (qos : MqttQos)
    (publishState : MqttPublishState) : MqttStatus × RecordLog :=
  ((appendRecord log.records ⟨packetId, qos, publishState⟩).1,
    ⟨(appendRecord log.records ⟨packetId, qos, publishState⟩).2,
      uniqueIds_appendRecord log.unique _, inUse_appendRecord log.inUse h,
      room_appendRecord log.room _⟩)

def setState (log : RecordLog) (packetId : UInt16) (newState : MqttPublishState) : RecordLog :=
  ⟨setRecordState log.records packetId newState,
    by simpa only [UniqueIds, map_packetId_setRecordState] using log.unique,
    inUse_setRecordState log.inUse packetId newState,
    by simpa only [setRecordState, List.length_map] using log.room⟩

def erase (log : RecordLog) (packetId : UInt16) : RecordLog :=
  ⟨eraseRecord log.records packetId, uniqueIds_eraseRecord log.unique packetId,
    fun record h => log.inUse record (List.mem_filter.1 h).1,
    (List.length_filter_le ..).trans log.room⟩

/-- A record is removed, and one for the release of its publish is added at the end. -/
def moveToEnd (log : RecordLog) (packetId : UInt16) (h : packetId ≠ packetIdInvalid) : RecordLog :=
  ((log.erase packetId).append packetId h .qos2 .pubRelSend).2

theorem records_moveToEnd (log : RecordLog) {packetId : UInt16} (h : packetId ≠ packetIdInvalid)
    {record : MqttPubAckInfo} (hrecord : lookupRecord log.records packetId = some record) :
    (log.moveToEnd packetId h).records =
        eraseRecord log.records packetId ++ [⟨packetId, .qos2, .pubRelSend⟩] ∧
      ((log.erase packetId).append packetId h .qos2 .pubRelSend).1 = .success := by
  have hroom : (eraseRecord log.records packetId).length < mqttStateArrayMaxCount :=
    (length_eraseRecord_lt hrecord).trans_le log.room
  have happend : appendRecord (eraseRecord log.records packetId) ⟨packetId, .qos2, .pubRelSend⟩ =
      (.success, eraseRecord log.records packetId ++ [⟨packetId, .qos2, .pubRelSend⟩]) := by
    rw [appendRecord, if_neg (packetId_not_mem_eraseRecord _ _), if_pos hroom]
  exact ⟨congrArg Prod.snd happend, congrArg Prod.fst happend⟩

def advance (log : RecordLog) (packetId : UInt16) (h : packetId ≠ packetIdInvalid)
    (newState : MqttPublishState) : RecordLog :=
  if newState = .publishDone then log.erase packetId
  else if newState = .pubRelSend then log.moveToEnd packetId h
  else log.setState packetId newState

def ack (log : RecordLog) (packetId : UInt16) (h : packetId ≠ packetIdInvalid)
    (packetType : MqttPubAckType) (opType : MqttStateOperation) : StateAnswer × RecordLog :=
  match lookupRecord log.records packetId with
  | none => ((.badResponse, none), log)
  | some found =>
    let newState := calculateStateAck packetType opType found.qos
    if validateTransitionAck found.publishState newState then
      ((.success, some newState), log.advance packetId h newState)
    else ((.illegalState, none), log)

def send (log : RecordLog) (packetId : UInt16) (qos : MqttQos) : StateAnswer × RecordLog :=
  match lookupRecord log.records packetId with
  | none => ((.badParameter, none), log)
  | some found =>
    let newState := calculateStatePublish .send qos
    if found.qos ≠ qos then ((.badParameter, none), log)
    else if validateTransitionPublish found.publishState newState .send qos then
      ((.success, some newState), log.setState packetId newState)
    else ((.illegalState, none), log)

end RecordLog

/-! ### Calls -/

structure InFlight where
  sent : RecordLog
  received : RecordLog

def InFlight.none : InFlight := ⟨.empty, .empty⟩

inductive StateCall
  | reserve (packetId : UInt16) (qos : MqttQos)
  | publish (packetId : UInt16) (opType : MqttStateOperation) (qos : MqttQos)
  | ack (packetId : UInt16) (packetType : MqttPubAckType) (opType : MqttStateOperation)
  deriving DecidableEq

/-- A call of a function of `core_mqtt_state.c`. -/
def stateStep (c : MqttContext) : StateCall → StateAnswer × MqttContext
  | .reserve packetId qos =>
    let r := mqttReserveState c packetId qos
    ((r.1, none), r.2)
  | .publish packetId opType qos => mqttUpdateStatePublish c packetId opType qos
  | .ack packetId packetType opType => mqttUpdateStateAck c packetId packetType opType

def inFlightStep (s : InFlight) : StateCall → StateAnswer × InFlight
  | .reserve packetId qos =>
    if qos = .qos0 then ((.success, none), s)
    else if h : packetId = packetIdInvalid then ((.badParameter, none), s)
    else
      let r := s.sent.append packetId h qos .publishSend
      ((r.1, none), { s with sent := r.2 })
  | .publish packetId opType qos =>
    if qos = .qos0 then ((.success, some .publishDone), s)
    else if h : packetId = packetIdInvalid then ((.badParameter, none), s)
    else
      match opType with
      | .send =>
        let r := s.sent.send packetId qos
        (r.1, { s with sent := r.2 })
      | .receive =>
        let newState := calculateStatePublish .receive qos
        let r := s.received.append packetId h qos newState
        (stateAnswer r.1 newState, { s with received := r.2 })
  | .ack packetId packetType opType =>
    if h : packetId = packetIdInvalid then ((.badParameter, none), s)
    else if isPublishOutgoing packetType opType then
      let r := s.sent.ack packetId h packetType opType
      (r.1, { s with sent := r.2 })
    else
      let r := s.received.ack packetId h packetType opType
      (r.1, { s with received := r.2 })

/-! ### Refinement -/

def ArrayOf (log : RecordLog) (array : List MqttPubAckInfo) : Prop :=
  array.length = mqttStateArrayMaxCount ∧ live array = log.records

def Represents (c : MqttContext) (s : InFlight) : Prop :=
  ArrayOf s.sent c.outgoing ∧ ArrayOf s.received c.incoming

theorem arrayOf_init : ArrayOf .empty (List.replicate mqttStateArrayMaxCount .zero) :=
  ⟨List.length_replicate, live_replicate_zero _⟩

theorem represents_init : Represents mqttInit .none := ⟨arrayOf_init, arrayOf_init⟩

namespace ArrayOf

variable {log : RecordLog} {array : List MqttPubAckInfo}

theorem unique (h : ArrayOf log array) : UniqueIds (live array) := by
  rw [h.2]
  exact log.unique

theorem addRecord (h : ArrayOf log array) {packetId : UInt16} (hid : packetId ≠ packetIdInvalid)
    (qos : MqttQos) (publishState : MqttPublishState) :
    (addRecord array mqttStateArrayMaxCount ⟨packetId, qos, publishState⟩).1 =
        (log.append packetId hid qos publishState).1 ∧
      ArrayOf (log.append packetId hid qos publishState).2
        (addRecord array mqttStateArrayMaxCount ⟨packetId, qos, publishState⟩).2 := by
  obtain ⟨hlength, heq⟩ := @addRecord_eq _ ⟨packetId, qos, publishState⟩ h.1 hid
  rw [h.2] at heq
  have hstatus := congrArg Prod.fst heq
  have hlive := congrArg Prod.snd heq
  exact ⟨hstatus, hlength, hlive⟩

variable {packetId : UInt16} {index : Nat} {found : MqttPubAckInfo}

theorem lookup (h : ArrayOf log array) (hid : packetId ≠ packetIdInvalid) :
    lookupRecord log.records packetId = (findInRecord array packetId).map Prod.snd := by
  rw [findInRecord_eq hid, h.2]

theorem updateRecord (h : ArrayOf log array) (hid : packetId ≠ packetIdInvalid)
    (hfound : findInRecord array packetId = some (index, found)) (newState : MqttPublishState) :
    ArrayOf (log.setState packetId newState) (updateRecord array index newState false) :=
  ⟨by rw [length_updateRecord, h.1], by rw [live_updateRecord hid h.unique hfound, h.2]; rfl⟩

theorem deleteRecord (h : ArrayOf log array) (hid : packetId ≠ packetIdInvalid)
    (hfound : findInRecord array packetId = some (index, found)) (newState : MqttPublishState) :
    ArrayOf (log.erase packetId) (CoreMqtt.updateRecord array index newState true) :=
  ⟨by rw [length_updateRecord, h.1], by rw [live_deleteRecord hid h.unique hfound, h.2]; rfl⟩

theorem setState_self (h : ArrayOf log array)
    (hfound : lookupRecord log.records packetId = some found) :
    ArrayOf (log.setState packetId found.publishState) array :=
  ⟨h.1, by rw [h.2]; exact (setRecordState_self log.unique hfound).symm⟩

theorem updateStateAck (h : ArrayOf log array) (hid : packetId ≠ packetIdInvalid)
    (hfound : findInRecord array packetId = some (index, found)) {newState : MqttPublishState}
    (hvalid : validateTransitionAck found.publishState newState = true) :
    (updateStateAck array index packetId found.publishState newState).1 = .success ∧
      ArrayOf (log.advance packetId hid newState)
        (updateStateAck array index packetId found.publishState newState).2 := by
  have hlookup : lookupRecord log.records packetId = some found := by
    rw [h.lookup hid, hfound]
    rfl
  rw [CoreMqtt.updateStateAck, if_pos hvalid, RecordLog.advance]
  by_cases hsame : found.publishState = newState
  · -- The states in which a packet may be repeated are not those that delete the record.
    have hdone : newState ≠ .publishDone := by
      rintro rfl
      rw [hsame] at hvalid
      cases hvalid
    have hrel : newState ≠ .pubRelSend := by
      rintro rfl
      rw [hsame] at hvalid
      cases hvalid
    rw [if_neg (not_not.2 hsame), if_neg hdone, if_neg hrel, ← hsame]
    exact ⟨rfl, h.setState_self hlookup⟩
  · rw [if_pos hsame]
    dsimp only
    by_cases hdone : newState = .publishDone
    · rw [if_pos hdone, if_neg (by rw [hdone]; decide)]
      refine ⟨rfl, ?_⟩
      rw [decide_eq_true hdone, Bool.true_or]
      exact h.deleteRecord hid hfound newState
    · rw [if_neg hdone]
      by_cases hrel : newState = .pubRelSend
      · simp only [if_pos hrel, decide_eq_true hrel, Bool.or_true]
        obtain ⟨hstatus, harray⟩ :=
          (h.deleteRecord hid hfound newState).addRecord hid .qos2 .pubRelSend
        exact ⟨hstatus.trans (log.records_moveToEnd hid hlookup).2, harray⟩
      · simp only [if_neg hrel, decide_eq_false hdone, decide_eq_false hrel, Bool.or_false]
        exact ⟨trivial, h.updateRecord hid hfound newState⟩

theorem ack (h : ArrayOf log array) (hid : packetId ≠ packetIdInvalid)
    (packetType : MqttPubAckType) (opType : MqttStateOperation) :
    match findInRecord array packetId with
    | none => log.ack packetId hid packetType opType = ((.badResponse, none), log)
    | some (index, found) =>
      let newState := calculateStateAck packetType opType found.qos
      let r := CoreMqtt.updateStateAck array index packetId found.publishState newState
      stateAnswer r.1 newState = (log.ack packetId hid packetType opType).1 ∧
        ArrayOf (log.ack packetId hid packetType opType).2 r.2 := by
  have hlookup := h.lookup hid
  rw [RecordLog.ack]
  cases hfind : findInRecord array packetId with
  | none =>
    rw [hfind] at hlookup
    rw [hlookup]
    rfl
  | some found =>
    obtain ⟨index, found⟩ := found
    rw [hfind] at hlookup
    rw [hlookup]
    dsimp only [Option.map_some]
    by_cases hvalid : validateTransitionAck found.publishState
        (calculateStateAck packetType opType found.qos) = true
    · obtain ⟨hstatus, harray⟩ := h.updateStateAck hid hfind hvalid
      rw [if_pos hvalid, hstatus]
      exact ⟨rfl, harray⟩
    · rw [if_neg hvalid, CoreMqtt.updateStateAck, if_neg hvalid]
      exact ⟨rfl, h⟩

end ArrayOf

theorem Represents.reserve {c : MqttContext} {s : InFlight} (h : Represents c s)
    (packetId : UInt16) (qos : MqttQos) :
    (stateStep c (.reserve packetId qos)).1 = (inFlightStep s (.reserve packetId qos)).1 ∧
      Represents (stateStep c (.reserve packetId qos)).2
        (inFlightStep s (.reserve packetId qos)).2 := by
  rw [stateStep, inFlightStep, mqttReserveState]
  by_cases hqos : qos = .qos0
  · rw [if_pos hqos, if_pos hqos]
    exact ⟨rfl, h⟩
  · rw [if_neg hqos, if_neg hqos]
    by_cases hid : packetId = packetIdInvalid
    · rw [if_pos hid, dif_pos hid]
      exact ⟨rfl, h⟩
    · rw [if_neg hid, dif_neg hid]
      obtain ⟨hstatus, harray⟩ := h.1.addRecord hid qos .publishSend
      exact ⟨congrArg (fun status => (status, none)) hstatus, harray, h.2⟩

theorem Represents.send {c : MqttContext} {s : InFlight} (h : Represents c s)
    (packetId : UInt16) (qos : MqttQos) :
    (stateStep c (.publish packetId .send qos)).1 =
        (inFlightStep s (.publish packetId .send qos)).1 ∧
      Represents (stateStep c (.publish packetId .send qos)).2
        (inFlightStep s (.publish packetId .send qos)).2 := by
  rw [stateStep, inFlightStep, mqttUpdateStatePublish]
  by_cases hqos : qos = .qos0
  · rw [if_pos hqos, if_pos hqos]
    exact ⟨rfl, h⟩
  · rw [if_neg hqos, if_neg hqos]
    by_cases hid : packetId = packetIdInvalid
    · rw [if_pos hid, dif_pos hid]
      exact ⟨rfl, h⟩
    · rw [if_neg hid, dif_neg hid]
      have hlookup := h.1.lookup hid
      dsimp only [RecordLog.send]
      cases hfind : findInRecord c.outgoing packetId with
      | none =>
        rw [hfind] at hlookup
        rw [hlookup]
        exact ⟨rfl, h⟩
      | some found =>
        obtain ⟨index, found⟩ := found
        rw [hfind] at hlookup
        rw [hlookup]
        dsimp only [Option.map_some]
        by_cases hne : found.qos ≠ qos
        · rw [if_pos hne, if_pos hne]
          exact ⟨rfl, h⟩
        · rw [if_neg hne, if_neg hne, updateStatePublish]
          by_cases hvalid : validateTransitionPublish found.publishState
              (calculateStatePublish .send qos) .send qos = true
          · rw [if_pos hvalid, if_pos hvalid, if_neg (by decide)]
            by_cases hsame : found.publishState = calculateStatePublish .send qos
            · rw [if_neg (not_not.2 hsame), ← hsame]
              exact ⟨rfl, h.1.setState_self hlookup, h.2⟩
            · rw [if_pos hsame]
              exact ⟨rfl, h.1.updateRecord hid hfind _, h.2⟩
          · rw [if_neg hvalid, if_neg hvalid]
            exact ⟨rfl, h⟩

theorem Represents.receive {c : MqttContext} {s : InFlight} (h : Represents c s)
    (packetId : UInt16) (qos : MqttQos) :
    (stateStep c (.publish packetId .receive qos)).1 =
        (inFlightStep s (.publish packetId .receive qos)).1 ∧
      Represents (stateStep c (.publish packetId .receive qos)).2
        (inFlightStep s (.publish packetId .receive qos)).2 := by
  rw [stateStep, inFlightStep, mqttUpdateStatePublish]
  by_cases hqos : qos = .qos0
  · rw [if_pos hqos, if_pos hqos]
    exact ⟨rfl, h⟩
  · rw [if_neg hqos, if_neg hqos]
    by_cases hid : packetId = packetIdInvalid
    · rw [if_pos hid, dif_pos hid]
      exact ⟨rfl, h⟩
    · have hvalid : validateTransitionPublish .stateNull (calculateStatePublish .receive qos)
          .receive qos = true := by
        cases qos with
        | qos0 => exact absurd rfl hqos
        | qos1 => rfl
        | qos2 => rfl
      obtain ⟨hstatus, harray⟩ := h.2.addRecord hid qos (calculateStatePublish .receive qos)
      rw [if_neg hid, dif_neg hid]
      dsimp only
      rw [updateStatePublish, if_pos hvalid, if_pos rfl]
      exact ⟨congrArg (fun status => stateAnswer status _) hstatus, h.1, harray⟩

theorem Represents.ack {c : MqttContext} {s : InFlight} (h : Represents c s) (packetId : UInt16)
    (packetType : MqttPubAckType) (opType : MqttStateOperation) :
    (stateStep c (.ack packetId packetType opType)).1 =
        (inFlightStep s (.ack packetId packetType opType)).1 ∧
      Represents (stateStep c (.ack packetId packetType opType)).2
        (inFlightStep s (.ack packetId packetType opType)).2 := by
  rw [stateStep, inFlightStep, mqttUpdateStateAck]
  by_cases hid : packetId = packetIdInvalid
  · rw [if_pos hid, dif_pos hid]
    exact ⟨rfl, h⟩
  · rw [if_neg hid, dif_neg hid]
    by_cases hout : isPublishOutgoing packetType opType = true
    · have hack := h.1.ack hid packetType opType
      simp only [if_pos hout]
      cases hfind : findInRecord c.outgoing packetId with
      | none =>
        rw [hfind] at hack
        dsimp only at hack
        rw [hack]
        exact ⟨rfl, h⟩
      | some found =>
        rw [hfind] at hack
        exact ⟨hack.1, hack.2, h.2⟩
    · have hack := h.2.ack hid packetType opType
      simp only [if_neg hout]
      cases hfind : findInRecord c.incoming packetId with
      | none =>
        rw [hfind] at hack
        dsimp only at hack
        rw [hack]
        exact ⟨rfl, h⟩
      | some found =>
        rw [hfind] at hack
        exact ⟨hack.1, h.1, hack.2⟩

theorem Represents.step {c : MqttContext} {s : InFlight} (h : Represents c s) (call : StateCall) :
    (stateStep c call).1 = (inFlightStep s call).1 ∧
      Represents (stateStep c call).2 (inFlightStep s call).2 := by
  cases call with
  | reserve packetId qos => exact h.reserve packetId qos
  | publish packetId opType qos =>
    cases opType with
    | send => exact h.send packetId qos
    | receive => exact h.receive packetId qos
  | ack packetId packetType opType => exact h.ack packetId packetType opType

/-- **Publishes in flight.** Every run of calls from `MQTT_Init` on has the answers of the lists of
publishes in flight, and the records in use are those lists. -/
theorem stateStep_run (calls : List StateCall) :
    (outputs stateStep mqttInit calls).1 = (outputs inFlightStep .none calls).1 ∧
      live (outputs stateStep mqttInit calls).2.outgoing =
        (outputs inFlightStep .none calls).2.sent.records ∧
      live (outputs stateStep mqttInit calls).2.incoming =
        (outputs inFlightStep .none calls).2.received.records := by
  obtain ⟨houts, hsent, hreceived⟩ :=
    outputs_eq_of_simulation (fun _ _ call h => h.step call) represents_init calls
  exact ⟨houts, hsent.2, hreceived.2⟩

end TuyaOpen.CoreMqtt
