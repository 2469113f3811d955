import TuyaOpen.Basic.Since
import TuyaOpen.CoreMqtt.Order

/-!
# Publishes over an unreliable connection

The functions of `core_mqtt.c` that send and receive publishes and their acknowledgements, and that
resume a session. The broker may send any packet at any time, and every packet that the client sends
may be lost with the connection. What the application and the broker see is a log of packets and
callbacks.

## Main results

* `ClientInv.step`: every event keeps the records and the log together.
* `delivered_once`: a publish is not delivered again before its last acknowledgement is sent.
* `pubrel_after_pubrec`: a PUBREL is sent only for a publish whose receipt the broker has confirmed.
-/

namespace TuyaOpen.CoreMqtt

/-! ### The client -/

/-- What the client sends, and the calls of the callback of the application. -/
inductive ClientOutput
  | sentPublish (packetId : UInt16) (qos : MqttQos) (dup : Bool)
  | sentAck (packetType : MqttPubAckType) (packetId : UInt16)
  | publishCallback (packetId : UInt16) (qos : MqttQos)
  | ackCallback (packetType : MqttPubAckType) (packetId : UInt16)
  /-- The records are cleared for a new session. -/
  | cleared
  deriving DecidableEq

abbrev ClientResult := List ClientOutput × MqttStatus × MqttContext

/-- `getAckTypeToSend`, as the type of the acknowledgement. -/
def getAckTypeToSend : MqttPublishState → Option MqttPubAckType
  | .pubAckSend => some .puback
  | .pubRecSend => some .pubrec
  | .pubRelSend => some .pubrel
  | .pubCompSend => some .pubcomp
  | _ => none

/-- `sendPublishAcks`. The packet is sent whole when `sent`. -/
def sendPublishAcks (c : MqttContext) (packetId : UInt16) (publishState : MqttPublishState)
    (sent : Bool) : ClientResult :=
  match getAckTypeToSend publishState with
  | none => ([], .success, c)
  | some packetType =>
    if sent then
      let r := mqttUpdateStateAck c packetId packetType .send
      ([.sentAck packetType packetId], r.1.1, r.2)
    else ([], .sendFailed, c)

/-- `MQTT_Publish`. The packet is sent when `sent`. -/
def mqttPublish (c : MqttContext) (packetId : UInt16) (qos : MqttQos) (dup sent : Bool) :
    ClientResult :=
  if qos ≠ .qos0 ∧ packetId = packetIdInvalid then ([], .badParameter, c)
  else
    let r := if qos = .qos0 then (.success, c) else mqttReserveState c packetId qos
    if r.1 = .success ∨ (r.1 = .stateCollision ∧ dup) then
      if sent then
        let r' := if qos = .qos0 then ((.success, none), r.2)
          else mqttUpdateStatePublish r.2 packetId .send qos
        ([.sentPublish packetId qos dup], r'.1.1, r'.2)
      else ([], .sendFailed, r.2)
    else ([], r.1, r.2)

/-- `handleIncomingPublish` for a packet that is deserialized. -/
def handleIncomingPublish (c : MqttContext) (packetId : UInt16) (qos : MqttQos) (sent : Bool) :
    ClientResult :=
  let r := mqttUpdateStatePublish c packetId .receive qos
  match r.1 with
  | (.success, publishRecordState) =>
    let r' := sendPublishAcks r.2 packetId (publishRecordState.getD .stateNull) sent
    (.publishCallback packetId qos :: r'.1, r'.2)
  | (.stateCollision, _) =>
    -- A duplicate is acknowledged again and not handed to the application.
    sendPublishAcks r.2 packetId (calculateStatePublish .receive qos) sent
  | (status, _) => ([], status, r.2)

/-- `handlePublishAcks` for a packet that is deserialized. -/
def handlePublishAcks (c : MqttContext) (packetType : MqttPubAckType) (packetId : UInt16)
    (sent : Bool) : ClientResult :=
  let r := mqttUpdateStateAck c packetId packetType .receive
  match r.1 with
  | (.success, publishRecordState) =>
    let r' := sendPublishAcks r.2 packetId (publishRecordState.getD .stateNull) sent
    (.ackCallback packetType packetId :: r'.1, r'.2)
  | (status, _) => ([], status, r.2)

/-- The loop of `handleSessionResumption`. The list tells which of its packets are sent. -/
def resendPubrels (c : MqttContext) (status : MqttStatus) :
    Nat → UInt16 × Nat → List Bool → ClientResult
  | 0, _, _ => ([], status, c)
  | fuel + 1, (packetId, cursor), sent =>
    if packetId ≠ packetIdInvalid ∧ status = .success then
      let r := sendPublishAcks c packetId .pubRelSend (sent.headD false)
      let r' := resendPubrels r.2.2 r.2.1 fuel (mqttPubrelToResend r.2.2 cursor) sent.tail
      (r.1 ++ r'.1, r'.2)
    else ([], status, c)

/-- `handleSessionResumption`. -/
def handleSessionResumption (c : MqttContext) (sessionPresent : Bool) (sent : List Bool) :
    ClientResult :=
  if sessionPresent then
    resendPubrels c .success (mqttStateArrayMaxCount + 1) (mqttPubrelToResend c 0) sent
  else ([.cleared], .success, mqttInit)

inductive ClientEvent
  | publish (packetId : UInt16) (qos : MqttQos) (dup sent : Bool)
  | incomingPublish (packetId : UInt16) (qos : MqttQos) (sent : Bool)
  | incomingAck (packetType : MqttPubAckType) (packetId : UInt16) (sent : Bool)
  | connected (sessionPresent : Bool) (sent : List Bool)
  deriving DecidableEq

def clientResult (c : MqttContext) : ClientEvent → ClientResult
  | .publish packetId qos dup sent => mqttPublish c packetId qos dup sent
  | .incomingPublish packetId qos sent => handleIncomingPublish c packetId qos sent
  | .incomingAck packetType packetId sent => handlePublishAcks c packetType packetId sent
  | .connected sessionPresent sent => handleSessionResumption c sessionPresent sent

def clientStep (c : MqttContext) (event : ClientEvent) : List ClientOutput × MqttContext :=
  ((clientResult c event).1, (clientResult c event).2.2)

/-! ### The log -/

def Delivers (packetId : UInt16) : ClientOutput → Prop
  | .publishCallback id qos => id = packetId ∧ qos ≠ .qos0
  | _ => False

/-- The last acknowledgement of a publish of the broker is sent, or its session ends. -/
def Completes (packetId : UInt16) : ClientOutput → Prop
  | .sentAck .puback id => id = packetId
  | .sentAck .pubcomp id => id = packetId
  | .cleared => True
  | _ => False

def ConfirmsReceipt (packetId : UInt16) : ClientOutput → Prop
  | .ackCallback .pubrec id => id = packetId
  | _ => False

def ConfirmsRelease (packetId : UInt16) : ClientOutput → Prop
  | .ackCallback .pubcomp id => id = packetId
  | .cleared => True
  | _ => False

def ClientRule (log : List ClientOutput) : ClientOutput → Prop
  | .publishCallback packetId qos =>
    qos ≠ .qos0 → ¬Since (Delivers packetId) (Completes packetId) log
  | .sentAck .pubrel packetId => Since (ConfirmsReceipt packetId) (ConfirmsRelease packetId) log
  | _ => True

/-! ### The records and the observer -/

def Agrees (c : MqttContext) (o : Session) : Prop := ∃ s, Represents c s ∧ Tracks s o

theorem agrees_init : Agrees mqttInit .none := ⟨.none, represents_init, tracks_none⟩

namespace Agrees

variable {c : MqttContext} {o : Session}

theorem step (h : Agrees c o) (call : StateCall) :
    Agrees (stateStep c call).2 (o.observe (call, (stateStep c call).1)) := by
  obtain ⟨s, hs, htracks⟩ := h
  obtain ⟨hanswer, hs'⟩ := hs.step call
  rw [hanswer]
  exact ⟨_, hs', htracks.step call⟩

theorem success (h : Agrees c o) {call : StateCall} (hstatus : (stateStep c call).1.1 = .success) :
    Agrees (stateStep c call).2 (o.succeed call) := by
  have := h.step call
  rwa [o.observe_success call hstatus] at this

theorem failure (h : Agrees c o) {call : StateCall} (hstatus : (stateStep c call).1.1 ≠ .success) :
    Agrees (stateStep c call).2 o := by
  have := h.step call
  rwa [o.observe_failure call hstatus] at this

theorem nodup_received (h : Agrees c o) : o.received.Nodup := by
  obtain ⟨s, -, htracks⟩ := h
  rw [← htracks.received]
  exact s.received.unique

theorem nodup_releasing (h : Agrees c o) : o.releasing.Nodup := by
  obtain ⟨s, -, htracks⟩ := h
  rw [← htracks.releasing]
  exact s.sent.unique.sublist (List.filter_sublist.map _)

theorem mem_releasing (h : Agrees c o) {record : MqttPubAckInfo} (hrecord : record ∈ c.outgoing)
    (huse : record.InUse) (hstate : record.publishState.IsReleasing) :
    record.packetId ∈ o.releasing := by
  obtain ⟨s, hs, htracks⟩ := h
  rw [← htracks.releasing, ← hs.1.2]
  exact List.mem_map_of_mem (List.mem_filter.2 ⟨mem_live.2 ⟨hrecord, huse⟩, by simpa using hstate⟩)

theorem stateSelect_mem (searchStates : List MqttPublishState) (records : List MqttPubAckInfo)
    (hlength : records.length = mqttStateArrayMaxCount) (fuel cursor : Nat)
    (hne : (stateSelect searchStates records fuel cursor).1 ≠ packetIdInvalid) :
    ∃ record ∈ records, record.publishState ∈ searchStates ∧
      record.packetId = (stateSelect searchStates records fuel cursor).1 := by
  induction fuel generalizing cursor with
  | zero => exact absurd rfl hne
  | succ fuel ih =>
    rw [stateSelect] at hne ⊢
    split at hne
    next hlt =>
      rw [if_pos hlt]
      dsimp only at hne ⊢
      have hget : records.getD cursor .zero = records[cursor] := List.getD_eq_getElem _ _ _
      rw [hget] at hne ⊢
      split
      next hstate => exact ⟨records[cursor], List.getElem_mem _, hstate, rfl⟩
      next hstate =>
        rw [if_neg hstate] at hne
        exact ih (cursor + 1) hne
    · exact absurd rfl hne

theorem pubrelToResend_mem (h : Agrees c o) (cursor : Nat)
    (hne : (mqttPubrelToResend c cursor).1 ≠ packetIdInvalid) :
    (mqttPubrelToResend c cursor).1 ∈ o.releasing := by
  have hlength : c.outgoing.length = mqttStateArrayMaxCount := by
    obtain ⟨s, hs, -⟩ := h
    exact hs.1.1
  obtain ⟨record, hrecord, hstate, hid⟩ := stateSelect_mem _ _ hlength _ _ hne
  rw [mqttPubrelToResend, ← hid]
  refine h.mem_releasing hrecord ?_ ?_
  · rw [MqttPubAckInfo.InUse, hid]
    exact hne
  · rw [List.mem_cons, List.mem_singleton] at hstate
    rw [MqttPublishState.IsReleasing, List.mem_cons, List.mem_singleton]
    exact hstate.symm

end Agrees

theorem publishRecordState_receive (c : MqttContext) (packetId : UInt16) (qos : MqttQos)
    (h : (mqttUpdateStatePublish c packetId .receive qos).1.1 = .success) :
    (mqttUpdateStatePublish c packetId .receive qos).1.2 =
      some (calculateStatePublish .receive qos) := by
  rw [mqttUpdateStatePublish] at h ⊢
  split
  next hqos =>
    rw [hqos]
    rfl
  next hqos =>
    rw [if_neg hqos] at h
    split
    next hid =>
      rw [if_pos hid] at h
      cases h
    next hid =>
      rw [if_neg hid] at h
      exact if_pos h

theorem calculateStateAck_pubRelSend {packetType : MqttPubAckType} {qos : MqttQos}
    (h : calculateStateAck packetType .receive qos = .pubRelSend) : packetType = .pubrec := by
  revert h
  cases packetType <;> cases qos <;> decide

theorem stateAnswer_getD {status : MqttStatus} {newState state : MqttPublishState}
    (h : (stateAnswer status newState).2.getD .stateNull = state) (hne : state ≠ .stateNull) :
    newState = state := by
  rw [stateAnswer] at h
  by_cases hstatus : status = .success
  · rwa [if_pos hstatus] at h
  · rw [if_neg hstatus] at h
    exact absurd h.symm hne

theorem publishRecordState_pubRelSend (c : MqttContext) (packetId : UInt16)
    (packetType : MqttPubAckType)
    (h : (mqttUpdateStateAck c packetId packetType .receive).1.2.getD .stateNull = .pubRelSend) :
    packetType = .pubrec := by
  rw [mqttUpdateStateAck] at h
  split at h
  · cases h
  · dsimp only at h
    split at h
    · cases h
    · exact calculateStateAck_pubRelSend (stateAnswer_getD h (by decide))

/-! ### The invariant -/

/-- The records and the log belong together, and the log obeys its rule. -/
structure ClientInv (c : MqttContext) (log : List ClientOutput) (o : Session) : Prop where
  agrees : Agrees c o
  delivered : ∀ packetId, Since (Delivers packetId) (Completes packetId) log → packetId ∈ o.received
  confirmed : ∀ packetId ∈ o.releasing,
    Since (ConfirmsReceipt packetId) (ConfirmsRelease packetId) log
  obeys : Obeys ClientRule log

theorem clientInv_init : ClientInv mqttInit [] .none :=
  ⟨agrees_init, fun _ h => absurd h not_since_nil, by simp [Session.none], obeys_nil⟩

namespace ClientInv

variable {c : MqttContext} {log : List ClientOutput} {o : Session}

theorem sentPublish (h : ClientInv c log o) (packetId : UInt16) (qos : MqttQos) (dup : Bool) :
    ClientInv c (log ++ [.sentPublish packetId qos dup]) o := by
  refine ⟨h.agrees, fun id hid => h.delivered id ?_, fun id hid => ?_,
    obeys_snoc.2 ⟨h.obeys, trivial⟩⟩
  · rwa [since_snoc_of_not (fun h => h) (fun h => h)] at hid
  · rw [since_snoc_of_not (fun h => h) (fun h => h)]
    exact h.confirmed id hid

theorem call (h : ClientInv c log o) (call : StateCall)
    (hreceived : (o.succeed call).received = o.received)
    (hreleasing : (o.succeed call).releasing = o.releasing) :
    ∃ o', ClientInv (stateStep c call).2 log o' := by
  by_cases hstatus : (stateStep c call).1.1 = .success
  · refine ⟨o.succeed call, h.agrees.success hstatus, ?_, ?_, h.obeys⟩
    · rw [hreceived]
      exact h.delivered
    · rw [hreleasing]
      exact h.confirmed
  · exact ⟨o, h.agrees.failure hstatus, h.delivered, h.confirmed, h.obeys⟩

theorem failed (h : ClientInv c log o) (call : StateCall)
    (hstatus : (stateStep c call).1.1 ≠ .success) : ClientInv (stateStep c call).2 log o :=
  ⟨h.agrees.failure hstatus, h.delivered, h.confirmed, h.obeys⟩

theorem publishCallback (h : ClientInv c log o) {packetId : UInt16} {qos : MqttQos}
    (hstatus : (stateStep c (.publish packetId .receive qos)).1.1 = .success) :
    ∃ o', ClientInv (stateStep c (.publish packetId .receive qos)).2
      (log ++ [.publishCallback packetId qos]) o' := by
  have hagrees := h.agrees.success hstatus
  refine ⟨_, hagrees, fun id hid => ?_, fun id hid => ?_,
    obeys_snoc.2 ⟨h.obeys, fun hqos hopen => ?_⟩⟩
  · rw [Session.succeed]
    rcases since_snoc.1 hid with ⟨rfl, hqos⟩ | ⟨hid, -⟩
    · rw [if_neg hqos]
      simp
    · have := h.delivered id hid
      split
      · exact this
      · exact List.mem_append_left _ this
  · have hid' : id ∈ o.releasing := by
      rw [Session.succeed] at hid
      split at hid <;> exact hid
    rw [since_snoc_of_not (fun h => h) (fun h => h)]
    exact h.confirmed id hid'
  · -- A publish that is open has a record, so that its packet identifier collides.
    have hmem := h.delivered packetId hopen
    have hnodup := hagrees.nodup_received
    rw [Session.succeed, if_neg hqos, List.nodup_append] at hnodup
    exact hnodup.2.2 packetId hmem packetId (List.mem_singleton_self _) rfl

theorem ackCallback (h : ClientInv c log o) {packetType : MqttPubAckType} {packetId : UInt16}
    (hstatus : (stateStep c (.ack packetId packetType .receive)).1.1 = .success) :
    ClientInv (stateStep c (.ack packetId packetType .receive)).2
      (log ++ [.ackCallback packetType packetId])
      (o.succeed (.ack packetId packetType .receive)) := by
  have hagrees := h.agrees.success hstatus
  have hnodup := h.agrees.nodup_releasing
  refine ⟨hagrees, fun id hid => ?_, fun id hid => ?_, obeys_snoc.2 ⟨h.obeys, trivial⟩⟩
  · have hid' := h.delivered id ((since_snoc_of_not (fun h => h) (fun h => h)).1 hid)
    cases packetType <;> exact hid'
  · rw [since_snoc]
    cases packetType with
    | puback | pubrel => exact Or.inr ⟨h.confirmed id hid, fun h => h⟩
    | pubrec =>
      rcases List.mem_append.1 hid with hid | hid
      · exact Or.inr ⟨h.confirmed id hid, fun h => h⟩
      · exact Or.inl (List.mem_singleton.1 hid).symm
    | pubcomp =>
      have hmem := (hnodup.mem_erase_iff).1 hid
      exact Or.inr ⟨h.confirmed id hmem.2, fun heq => hmem.1 heq.symm⟩

theorem sentAck (h : ClientInv c log o) {packetType : MqttPubAckType} {packetId : UInt16}
    (hrel : packetType = .pubrel → packetId ∈ o.releasing) :
    ∃ o', ClientInv (stateStep c (.ack packetId packetType .send)).2
      (log ++ [.sentAck packetType packetId]) o' := by
  have hrule : ClientRule log (.sentAck packetType packetId) := by
    cases packetType with
    | pubrel => exact h.confirmed packetId (hrel rfl)
    | puback | pubrec | pubcomp => trivial
  have hconfirmed : ∀ id ∈ o.releasing, Since (ConfirmsReceipt id) (ConfirmsRelease id)
      (log ++ [.sentAck packetType packetId]) := fun id hid =>
    (since_snoc_of_not (fun h => h) (fun h => h)).2 (h.confirmed id hid)
  have hobeys := obeys_snoc.2 ⟨h.obeys, hrule⟩
  by_cases hstatus : (stateStep c (.ack packetId packetType .send)).1.1 = .success
  · refine ⟨_, h.agrees.success hstatus, fun id hid => ?_, fun id hid => ?_, hobeys⟩
    · rcases since_snoc.1 hid with hid | ⟨hid, hne⟩
      · exact hid.elim
      · have hmem := h.delivered id hid
        cases packetType with
        | puback | pubcomp => exact (List.mem_erase_of_ne (fun heq => hne heq.symm)).2 hmem
        | pubrec | pubrel => exact hmem
    · refine hconfirmed id ?_
      cases packetType <;> exact hid
  · refine ⟨o, h.agrees.failure hstatus, fun id hid => ?_, hconfirmed, hobeys⟩
    rcases since_snoc.1 hid with hid | ⟨hid, -⟩
    · exact hid.elim
    · exact h.delivered id hid

theorem sendPublishAcks (h : ClientInv c log o) (packetId : UInt16)
    (publishState : MqttPublishState) (sent : Bool)
    (hrel : publishState = .pubRelSend → packetId ∈ o.releasing) :
    ∃ o', ClientInv (sendPublishAcks c packetId publishState sent).2.2
      (log ++ (sendPublishAcks c packetId publishState sent).1) o' := by
  rw [CoreMqtt.sendPublishAcks]
  cases htype : getAckTypeToSend publishState with
  | none => exact ⟨o, by rwa [List.append_nil]⟩
  | some packetType =>
    dsimp only
    split
    · refine h.sentAck fun hpubrel => hrel ?_
      rw [hpubrel] at htype
      cases publishState <;> first | rfl | cases htype
    · exact ⟨o, by rwa [List.append_nil]⟩

theorem mqttPublish (h : ClientInv c log o) (packetId : UInt16) (qos : MqttQos) (dup sent : Bool) :
    ∃ o', ClientInv (mqttPublish c packetId qos dup sent).2.2
      (log ++ (mqttPublish c packetId qos dup sent).1) o' := by
  have hreserve : ∃ o', ClientInv
      (if qos = .qos0 then (MqttStatus.success, c) else mqttReserveState c packetId qos).2 log
        o' := by
    split
    · exact ⟨o, h⟩
    · refine h.call (.reserve packetId qos) ?_ ?_ <;>
        · rw [Session.succeed]
          split <;> rfl
  obtain ⟨o', h'⟩ := hreserve
  rw [CoreMqtt.mqttPublish]
  generalize (if qos = .qos0 then (MqttStatus.success, c) else mqttReserveState c packetId qos) = r
    at h' ⊢
  by_cases hid : qos ≠ .qos0 ∧ packetId = packetIdInvalid
  · rw [if_pos hid]
    exact ⟨o, by rwa [List.append_nil]⟩
  · rw [if_neg hid]
    dsimp only
    by_cases hsend : r.1 = .success ∨ r.1 = .stateCollision ∧ dup = true
    · rw [if_pos hsend]
      cases sent with
      | false => exact ⟨o', by rw [if_neg Bool.false_ne_true, List.append_nil]; exact h'⟩
      | true =>
        rw [if_pos rfl]
        have hsent := h'.sentPublish packetId qos dup
        by_cases hqos : qos = .qos0
        · exact ⟨o', by simpa only [if_pos hqos] using hsent⟩
        · simp only [if_neg hqos]
          exact hsent.call (.publish packetId .send qos) rfl rfl
    · rw [if_neg hsend]
      exact ⟨o', by rwa [List.append_nil]⟩

theorem handleIncomingPublish (h : ClientInv c log o) (packetId : UInt16) (qos : MqttQos)
    (sent : Bool) :
    ∃ o', ClientInv (handleIncomingPublish c packetId qos sent).2.2
      (log ++ (handleIncomingPublish c packetId qos sent).1) o' := by
  have hnew (hstatus : (mqttUpdateStatePublish c packetId .receive qos).1.1 = .success) :
      ∃ o', ClientInv (mqttUpdateStatePublish c packetId .receive qos).2
        (log ++ [.publishCallback packetId qos]) o' :=
    h.publishCallback hstatus
  have hfailed (hstatus : (mqttUpdateStatePublish c packetId .receive qos).1.1 ≠ .success) :
      ClientInv (mqttUpdateStatePublish c packetId .receive qos).2 log o :=
    h.failed (.publish packetId .receive qos) hstatus
  -- No acknowledgement of an incoming publish is a PUBREL.
  have hnotRel : ∀ state, state = calculateStatePublish .receive qos → state ≠ .pubRelSend := by
    rintro _ rfl
    cases qos <;> decide
  have hstate := publishRecordState_receive c packetId qos
  rw [CoreMqtt.handleIncomingPublish]
  generalize mqttUpdateStatePublish c packetId .receive qos = r at hnew hfailed hstate ⊢
  obtain ⟨⟨status, publishRecordState⟩, c'⟩ := r
  cases status with
  | success =>
    obtain ⟨o', h'⟩ := hnew rfl
    obtain rfl : publishRecordState = some (calculateStatePublish .receive qos) := hstate rfl
    obtain ⟨o'', h''⟩ := h'.sendPublishAcks packetId (calculateStatePublish .receive qos) sent
      fun hrel => absurd hrel (hnotRel _ rfl)
    exact ⟨o'', by rwa [List.append_assoc] at h''⟩
  | stateCollision =>
    exact (hfailed nofun).sendPublishAcks packetId (calculateStatePublish .receive qos) sent
      fun hrel => absurd hrel (hnotRel _ rfl)
  | badParameter | noMemory | illegalState | badResponse | sendFailed =>
    exact ⟨o, by rw [List.append_nil]; exact hfailed nofun⟩

theorem handlePublishAcks (h : ClientInv c log o) (packetType : MqttPubAckType) (packetId : UInt16)
    (sent : Bool) :
    ∃ o', ClientInv (handlePublishAcks c packetType packetId sent).2.2
      (log ++ (handlePublishAcks c packetType packetId sent).1) o' := by
  have hnew (hstatus : (mqttUpdateStateAck c packetId packetType .receive).1.1 = .success) :
      ClientInv (mqttUpdateStateAck c packetId packetType .receive).2
        (log ++ [.ackCallback packetType packetId])
        (o.succeed (.ack packetId packetType .receive)) :=
    h.ackCallback hstatus
  have hfailed (hstatus : (mqttUpdateStateAck c packetId packetType .receive).1.1 ≠ .success) :
      ClientInv (mqttUpdateStateAck c packetId packetType .receive).2 log o :=
    h.failed (.ack packetId packetType .receive) hstatus
  have hstate := publishRecordState_pubRelSend c packetId packetType
  rw [CoreMqtt.handlePublishAcks]
  generalize mqttUpdateStateAck c packetId packetType .receive = r at hnew hfailed hstate ⊢
  obtain ⟨⟨status, publishRecordState⟩, c'⟩ := r
  cases status with
  | success =>
    obtain ⟨o', h'⟩ := (hnew rfl).sendPublishAcks packetId (publishRecordState.getD .stateNull) sent
      fun hrel => by
        obtain rfl := hstate hrel
        exact List.mem_append_right _ (List.mem_singleton_self _)
    exact ⟨o', by rwa [List.append_assoc] at h'⟩
  | stateCollision | badParameter | noMemory | illegalState | badResponse | sendFailed =>
    exact ⟨o, by rw [List.append_nil]; exact hfailed nofun⟩

theorem cleared (h : ClientInv c log o) : ClientInv mqttInit (log ++ [.cleared]) .none := by
  refine ⟨agrees_init, fun id hid => ?_, by simp [Session.none], obeys_snoc.2 ⟨h.obeys, trivial⟩⟩
  rcases since_snoc.1 hid with hid | ⟨-, hne⟩
  · exact hid.elim
  · exact absurd trivial hne

theorem resendPubrels (fuel : Nat) (h : ClientInv c log o) (status : MqttStatus)
    {cursor : UInt16 × Nat} (hcursor : cursor.1 ≠ packetIdInvalid → cursor.1 ∈ o.releasing)
    (sent : List Bool) :
    ∃ o', ClientInv (resendPubrels c status fuel cursor sent).2.2
      (log ++ (resendPubrels c status fuel cursor sent).1) o' := by
  induction fuel generalizing c log o status cursor sent with
  | zero => exact ⟨o, by rw [CoreMqtt.resendPubrels, List.append_nil]; exact h⟩
  | succ fuel ih =>
    obtain ⟨packetId, cursor⟩ := cursor
    rw [CoreMqtt.resendPubrels]
    split
    next hloop =>
      obtain ⟨o', h'⟩ := h.sendPublishAcks packetId .pubRelSend (sent.headD false)
        fun _ => hcursor hloop.1
      obtain ⟨o'', h''⟩ := ih h'
        (CoreMqtt.sendPublishAcks c packetId .pubRelSend (sent.headD false)).2.1
        (fun hne => h'.agrees.pubrelToResend_mem cursor hne) sent.tail
      exact ⟨o'', by rwa [List.append_assoc] at h''⟩
    · exact ⟨o, by rw [List.append_nil]; exact h⟩

theorem step (h : ClientInv c log o) (event : ClientEvent) :
    ∃ o', ClientInv (clientStep c event).2 (log ++ (clientStep c event).1) o' := by
  cases event with
  | publish packetId qos dup sent => exact h.mqttPublish packetId qos dup sent
  | incomingPublish packetId qos sent => exact h.handleIncomingPublish packetId qos sent
  | incomingAck packetType packetId sent => exact h.handlePublishAcks packetType packetId sent
  | connected sessionPresent sent =>
    rw [clientStep, clientResult, CoreMqtt.handleSessionResumption]
    split
    · exact h.resendPubrels _ .success (fun hne => h.agrees.pubrelToResend_mem 0 hne) sent
    · exact ⟨_, h.cleared⟩

end ClientInv

theorem exists_clientInv (events : List ClientEvent) :
    ∃ o, ClientInv (outputs clientStep mqttInit events).2
      (outputs clientStep mqttInit events).1.flatten o :=
  @outputs_invariant _ _ _ clientStep (fun c log => ∃ o, ClientInv c log o)
    (fun _ _ event ⟨_, h⟩ => h.step event) _ _ ⟨.none, clientInv_init⟩ events

/-- A publish comes twice before its PUBREC is sent, and again after its PUBCOMP. -/
def sampleEvents : List ClientEvent :=
  [.incomingPublish 7 .qos2 false, .connected true [], .incomingPublish 7 .qos2 true,
    .incomingAck .pubrel 7 true, .incomingPublish 7 .qos2 true]

/-- **Delivery.** Whatever the broker sends and whichever packets are lost, a publish with an
acknowledgement is handed to the application again only after its last acknowledgement has been
sent, or after a new session. -/
theorem delivered_once (events : List ClientEvent) {before between after : List ClientOutput}
    {packetId : UInt16} {qos qos' : MqttQos} (hqos : qos ≠ .qos0) (hqos' : qos' ≠ .qos0)
    (hlog : (outputs clientStep mqttInit events).1.flatten =
      before ++ .publishCallback packetId qos :: between ++
        .publishCallback packetId qos' :: after) :
    ∃ o ∈ between, Completes packetId o := by
  by_contra hopen
  push Not at hopen
  obtain ⟨o, hinv⟩ := exists_clientInv events
  have hrule := hinv.obeys.of_eq hlog
  exact hrule hqos' ⟨before, _, between, rfl, ⟨rfl, hqos⟩, hopen⟩

theorem delivered_once_sample :
    ∃ o ∈ [ClientOutput.sentAck .pubrec 7, .ackCallback .pubrel 7, .sentAck .pubcomp 7],
      Completes 7 o :=
  @delivered_once sampleEvents [] _ [.sentAck .pubrec 7] 7 .qos2 .qos2 (by decide) (by decide)
    (by decide +kernel)

/-- **Release.** A PUBREL is sent only for a publish whose receipt the broker has confirmed and
whose release it has not confirmed since, in the same session. -/
theorem pubrel_after_pubrec (events : List ClientEvent) {before after : List ClientOutput}
    {packetId : UInt16}
    (hlog : (outputs clientStep mqttInit events).1.flatten =
      before ++ .sentAck .pubrel packetId :: after) :
    Since (ConfirmsReceipt packetId) (ConfirmsRelease packetId) before := by
  obtain ⟨o, hinv⟩ := exists_clientInv events
  exact hinv.obeys.of_eq hlog

/-- The PUBREL of a resumed session. -/
theorem pubrel_after_pubrec_sample :
    Since (ConfirmsReceipt 3) (ConfirmsRelease 3)
      [ClientOutput.sentPublish 3 .qos2 false, .ackCallback .pubrec 3] :=
  @pubrel_after_pubrec [.publish 3 .qos2 false true, .incomingAck .pubrec 3 false,
    .connected true [true]] _ [] 3 (by decide +kernel)

end TuyaOpen.CoreMqtt
