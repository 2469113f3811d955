import Mathlib.Data.List.Basic
import Mathlib.Data.UInt

/-!
# The state records of publishes

`core_mqtt_state.c`. The library keeps two arrays of records, for the publishes that it sends and
for those that it receives with a quality of service above 0. A record is free when its packet
identifier is 0. New records are put behind the last one in use, and the array is compacted when
its last record is in use, so that the order of the records is the order of the publishes.
-/

namespace TuyaOpen.CoreMqtt

/-! ### Types -/

/-- `MQTTPublishState_t`. -/
inductive MqttPublishState
  | stateNull
  | publishSend
  | pubAckSend
  | pubRecSend
  | pubRelSend
  | pubCompSend
  | pubAckPending
  | pubRecPending
  | pubRelPending
  | pubCompPending
  | publishDone
  deriving DecidableEq

/-- `MQTTQoS_t`. -/
inductive MqttQos
  | qos0
  | qos1
  | qos2
  deriving DecidableEq

/-- `MQTTPubAckType_t`. -/
inductive MqttPubAckType
  | puback
  | pubrec
  | pubrel
  | pubcomp
  deriving DecidableEq

/-- `MQTTStateOperation_t`. -/
inductive MqttStateOperation
  | send
  | receive
  deriving DecidableEq

/-- The values of `MQTTStatus_t` that the functions on publishes return. -/
inductive MqttStatus
  | success
  | badParameter
  | noMemory
  | stateCollision
  | illegalState
  | badResponse
  | sendFailed
  deriving DecidableEq

/-- `MQTTPubAckInfo_t`. -/
structure MqttPubAckInfo where
  packetId : UInt16
  qos : MqttQos
  publishState : MqttPublishState

/-- `MQTT_PACKET_ID_INVALID`. -/
def packetIdInvalid : UInt16 := 0

/-- `MQTT_STATE_ARRAY_MAX_COUNT`. -/
def mqttStateArrayMaxCount : Nat := 10

def MqttPubAckInfo.zero : MqttPubAckInfo := ⟨packetIdInvalid, .qos0, .stateNull⟩

/-- The records of `MQTTContext_t`. -/
structure MqttContext where
  outgoing : List MqttPubAckInfo
  incoming : List MqttPubAckInfo

/-- The records after `MQTT_Init`. -/
def mqttInit : MqttContext :=
  ⟨List.replicate mqttStateArrayMaxCount .zero, List.replicate mqttStateArrayMaxCount .zero⟩

/-! ### Transitions -/

/-- `validateTransitionPublish`. -/
def validateTransitionPublish (currentState newState : MqttPublishState)
    (opType : MqttStateOperation) (qos : MqttQos) : Bool :=
  match currentState with
  | .stateNull => opType = .receive && (newState = .pubAckSend || newState = .pubRecSend)
  | .publishSend =>
    match qos with
    | .qos1 => newState = .pubAckPending
    | .qos2 => newState = .pubRecPending
    | .qos0 => false
  | .pubAckPending => newState = .pubAckPending
  | .pubRecPending => newState = .pubRecPending
  | _ => false

/-- `validateTransitionAck`. -/
def validateTransitionAck (currentState newState : MqttPublishState) : Bool :=
  match currentState with
  | .pubAckSend | .pubAckPending => newState = .publishDone
  | .pubRecSend => newState = .pubRelPending
  | .pubRelPending => newState = .pubCompSend || newState = .pubRelPending
  | .pubCompSend => newState = .publishDone || newState = .pubCompSend
  | .pubRecPending => newState = .pubRelSend
  | .pubRelSend => newState = .pubCompPending
  | .pubCompPending => newState = .publishDone || newState = .pubCompPending
  | _ => false

/-- `isPublishOutgoing`. -/
def isPublishOutgoing (packetType : MqttPubAckType) (opType : MqttStateOperation) : Bool :=
  match packetType with
  | .puback | .pubrec | .pubcomp => opType = .receive
  | .pubrel => opType = .send

/-- `MQTT_CalculateStateAck`. -/
def calculateStateAck (packetType : MqttPubAckType) (opType : MqttStateOperation)
    (qos : MqttQos) : MqttPublishState :=
  match packetType with
  | .puback => if qos = .qos1 then .publishDone else .stateNull
  | .pubrec =>
    if qos = .qos2 then if opType = .send then .pubRelPending else .pubRelSend else .stateNull
  | .pubrel =>
    if qos = .qos2 then if opType = .send then .pubCompPending else .pubCompSend else .stateNull
  | .pubcomp => if qos = .qos2 then .publishDone else .stateNull

/-- `MQTT_CalculateStatePublish`. -/
def calculateStatePublish (opType : MqttStateOperation) : MqttQos → MqttPublishState
  | .qos0 => .publishDone
  | .qos1 => if opType = .send then .pubAckPending else .pubAckSend
  | .qos2 => if opType = .send then .pubRecPending else .pubRecSend

/-! ### Arrays of records -/

/-- An iteration of `compactRecords`. The state is the array and `emptyIndex`. -/
def compactStep (s : List MqttPubAckInfo × Nat) (index : Nat) : List MqttPubAckInfo × Nat :=
  let record := s.1.getD index .zero
  if record.packetId = packetIdInvalid then
    (s.1, if s.2 = mqttStateArrayMaxCount then index else s.2)
  else if s.2 ≠ mqttStateArrayMaxCount then
    ((s.1.set s.2 record).set index { record with packetId := packetIdInvalid }, s.2 + 1)
  else s

/-- `compactRecords`. -/
def compactRecords (records : List MqttPubAckInfo) (recordCount : Nat) : List MqttPubAckInfo :=
  ((List.range recordCount).foldl compactStep (records, mqttStateArrayMaxCount)).1

/-- The loop of `addRecord`, from the end on: `availableIndex`, or `none` for a collision. -/
def addScan (records : List MqttPubAckInfo) (packetId : UInt16) : Nat → Nat → Bool → Option Nat
  | 0, availableIndex, _ => some availableIndex
  | index + 1, availableIndex, validEntryFound =>
    let record := records.getD index .zero
    if record.packetId = packetIdInvalid then
      addScan records packetId index (if validEntryFound then availableIndex else index)
        validEntryFound
    else if record.packetId = packetId then none
    else addScan records packetId index availableIndex true

/-- `addRecord`. -/
def addRecord (records : List MqttPubAckInfo) (recordCount : Nat) (info : MqttPubAckInfo) :
    MqttStatus × List MqttPubAckInfo :=
  let records :=
    if (records.getD (recordCount - 1) .zero).packetId ≠ packetIdInvalid then
      compactRecords records recordCount
    else records
  match addScan records info.packetId recordCount recordCount false with
  | none => (.stateCollision, records)
  | some availableIndex =>
    if availableIndex < recordCount then (.success, records.set availableIndex info)
    else (.noMemory, records)

/-- `findInRecord`: the index and the record. -/
def findInRecord (records : List MqttPubAckInfo) (packetId : UInt16) :
    Option (Nat × MqttPubAckInfo) :=
  (records.findIdx? fun record => record.packetId = packetId).map fun index =>
    (index, records.getD index .zero)

/-- `updateRecord`. -/
def updateRecord (records : List MqttPubAckInfo) (recordIndex : Nat) (newState : MqttPublishState)
    (shouldDelete : Bool) : List MqttPubAckInfo :=
  records.modify recordIndex fun record =>
    if shouldDelete then { record with packetId := packetIdInvalid }
    else { record with publishState := newState }

/-! ### The functions of the header -/

/-- `MQTT_ReserveState`. -/
def mqttReserveState (c : MqttContext) (packetId : UInt16) (qos : MqttQos) :
    MqttStatus × MqttContext :=
  if qos = .qos0 then (.success, c)
  else if packetId = packetIdInvalid then (.badParameter, c)
  else
    let r := addRecord c.outgoing mqttStateArrayMaxCount ⟨packetId, qos, .publishSend⟩
    (r.1, { c with outgoing := r.2 })

/-- `updateStatePublish`. -/
def updateStatePublish (c : MqttContext) (recordIndex : Nat) (packetId : UInt16)
    (opType : MqttStateOperation) (qos : MqttQos) (currentState newState : MqttPublishState) :
    MqttStatus × MqttContext :=
  if validateTransitionPublish currentState newState opType qos then
    if opType = .receive then
      let r := addRecord c.incoming mqttStateArrayMaxCount ⟨packetId, qos, newState⟩
      (r.1, { c with incoming := r.2 })
    else if currentState ≠ newState then
      (.success, { c with outgoing := updateRecord c.outgoing recordIndex newState false })
    else (.success, c)
  else (.illegalState, c)

/-- The answer of a function: its status, and what it stores in `*pNewState`. -/
abbrev StateAnswer := MqttStatus × Option MqttPublishState

def stateAnswer (status : MqttStatus) (newState : MqttPublishState) : StateAnswer :=
  (status, if status = .success then some newState else none)

/-- `MQTT_UpdateStatePublish`. -/
def mqttUpdateStatePublish (c : MqttContext) (packetId : UInt16) (opType : MqttStateOperation)
    (qos : MqttQos) : StateAnswer × MqttContext :=
  if qos = .qos0 then ((.success, some .publishDone), c)
  else if packetId = packetIdInvalid then ((.badParameter, none), c)
  else
    let newState := calculateStatePublish opType qos
    match opType with
    | .send =>
      match findInRecord c.outgoing packetId with
      | none => ((.badParameter, none), c)
      | some (recordIndex, found) =>
        if found.qos ≠ qos then ((.badParameter, none), c)
        else
          let r := updateStatePublish c recordIndex packetId .send qos found.publishState newState
          (stateAnswer r.1 newState, r.2)
    | .receive =>
      let r := updateStatePublish c mqttStateArrayMaxCount packetId .receive qos .stateNull newState
      (stateAnswer r.1 newState, r.2)

/-- `updateStateAck`. -/
def updateStateAck (records : List MqttPubAckInfo) (recordIndex : Nat) (packetId : UInt16)
    (currentState newState : MqttPublishState) : MqttStatus × List MqttPubAckInfo :=
  if validateTransitionAck currentState newState then
    if currentState ≠ newState then
      let records := updateRecord records recordIndex newState
        (newState = .publishDone || newState = .pubRelSend)
      if newState = .pubRelSend then
        addRecord records mqttStateArrayMaxCount ⟨packetId, .qos2, .pubRelSend⟩
      else (.success, records)
    else (.success, records)
  else (.illegalState, records)

/-- `MQTT_UpdateStateAck`. -/
def mqttUpdateStateAck (c : MqttContext) (packetId : UInt16) (packetType : MqttPubAckType)
    (opType : MqttStateOperation) : StateAnswer × MqttContext :=
  if packetId = packetIdInvalid then ((.badParameter, none), c)
  else
    let isOutgoingPublish := isPublishOutgoing packetType opType
    let records := if isOutgoingPublish then c.outgoing else c.incoming
    match findInRecord records packetId with
    | none => ((.badResponse, none), c)
    | some (recordIndex, found) =>
      let newState := calculateStateAck packetType opType found.qos
      let r := updateStateAck records recordIndex packetId found.publishState newState
      (stateAnswer r.1 newState,
        if isOutgoingPublish then { c with outgoing := r.2 } else { c with incoming := r.2 })

/-- The loop of `stateSelect` from a cursor on: the packet identifier and the cursor. -/
def stateSelect (searchStates : List MqttPublishState) (records : List MqttPubAckInfo) :
    Nat → Nat → UInt16 × Nat
  | 0, cursor => (packetIdInvalid, cursor)
  | fuel + 1, cursor =>
    if cursor < mqttStateArrayMaxCount then
      let record := records.getD cursor .zero
      if record.publishState ∈ searchStates then (record.packetId, cursor + 1)
      else stateSelect searchStates records fuel (cursor + 1)
    else (packetIdInvalid, cursor)

/-- `MQTT_PubrelToResend`. -/
def mqttPubrelToResend (c : MqttContext) (cursor : Nat) : UInt16 × Nat :=
  stateSelect [.pubCompPending, .pubRelSend] c.outgoing mqttStateArrayMaxCount cursor

/-- `MQTT_PublishToResend`. -/
def mqttPublishToResend (c : MqttContext) (cursor : Nat) : UInt16 × Nat :=
  stateSelect [.publishSend, .pubAckPending, .pubRecPending] c.outgoing mqttStateArrayMaxCount
    cursor

end TuyaOpen.CoreMqtt
