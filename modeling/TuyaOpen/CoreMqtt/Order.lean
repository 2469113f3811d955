import TuyaOpen.CoreMqtt.InFlight

/-!
# The order of the publishes in flight

The protocol asks that publishes are sent again in the order in which they were sent, and the
packets that release them in the order in which their receipt was confirmed. The order is kept in
the places of the records alone. What a caller can see of a session is the calls that succeeded; the
records in use are the publishes that this history leaves open, in its order.
-/

namespace TuyaOpen.CoreMqtt

/-! ### The observer -/

structure Session where
  /-- Publishes that are reserved and not received by the peer yet. -/
  waiting : List UInt16
  /-- Publishes that the peer has received and that are not complete. -/
  releasing : List UInt16
  /-- Publishes of the peer that are not complete. -/
  received : List UInt16

def Session.none : Session := ⟨[], [], []⟩

def Session.succeed (o : Session) : StateCall → Session
  | .reserve packetId qos =>
    if qos = .qos0 then o else { o with waiting := o.waiting ++ [packetId] }
  | .publish packetId .receive qos =>
    if qos = .qos0 then o else { o with received := o.received ++ [packetId] }
  | .publish _ .send _ => o
  | .ack packetId .puback .receive => { o with waiting := o.waiting.erase packetId }
  | .ack packetId .pubrec .receive =>
    { o with waiting := o.waiting.erase packetId, releasing := o.releasing ++ [packetId] }
  | .ack packetId .pubcomp .receive => { o with releasing := o.releasing.erase packetId }
  | .ack packetId .puback .send => { o with received := o.received.erase packetId }
  | .ack packetId .pubcomp .send => { o with received := o.received.erase packetId }
  | .ack _ .pubrel _ => o
  | .ack _ .pubrec .send => o

def Session.observe (o : Session) (event : StateCall × StateAnswer) : Session :=
  if event.2.1 = .success then o.succeed event.1 else o

theorem Session.observe_success (o : Session) (call : StateCall) {answer : StateAnswer}
    (h : answer.1 = .success) : o.observe (call, answer) = o.succeed call :=
  if_pos h

theorem Session.observe_failure (o : Session) (call : StateCall) {answer : StateAnswer}
    (h : answer.1 ≠ .success) : o.observe (call, answer) = o :=
  if_neg h

/-! ### The records -/

def MqttPublishState.IsWaiting (state : MqttPublishState) : Prop :=
  state ∈ [.publishSend, .pubAckPending, .pubRecPending]

def MqttPublishState.IsReleasing (state : MqttPublishState) : Prop :=
  state ∈ [.pubRelSend, .pubCompPending]

instance (state : MqttPublishState) : Decidable state.IsWaiting :=
  inferInstanceAs (Decidable (state ∈ _))

instance (state : MqttPublishState) : Decidable state.IsReleasing :=
  inferInstanceAs (Decidable (state ∈ _))

/-- The packet identifiers of the records whose state has a property, in order. -/
def idsIn (p : MqttPublishState → Prop) [DecidablePred p] (records : List MqttPubAckInfo) :
    List UInt16 :=
  (records.filter fun record => p record.publishState).map (·.packetId)

def waitingIds (records : List MqttPubAckInfo) : List UInt16 := idsIn (·.IsWaiting) records

def releasingIds (records : List MqttPubAckInfo) : List UInt16 := idsIn (·.IsReleasing) records

def SentState : MqttQos → MqttPublishState → Prop
  | .qos1, state => state = .publishSend ∨ state = .pubAckPending
  | .qos2, state =>
    state = .publishSend ∨ state = .pubRecPending ∨ state = .pubRelSend ∨ state = .pubCompPending
  | .qos0, _ => False

section Records

variable {p : MqttPublishState → Prop} [DecidablePred p] {records : List MqttPubAckInfo}
  {packetId : UInt16} {record : MqttPubAckInfo}

theorem idsIn_append (records records' : List MqttPubAckInfo) :
    idsIn p (records ++ records') = idsIn p records ++ idsIn p records' := by
  rw [idsIn, List.filter_append, List.map_append]
  rfl

theorem idsIn_cons (record : MqttPubAckInfo) (records : List MqttPubAckInfo) :
    idsIn p (record :: records) =
      if p record.publishState then record.packetId :: idsIn p records else idsIn p records := by
  rw [idsIn, List.filter_cons]
  by_cases h : p record.publishState <;> simp [h, idsIn]

theorem mem_of_mem_idsIn {records : List MqttPubAckInfo} {packetId : UInt16}
    (h : packetId ∈ idsIn p records) :
    ∃ record ∈ records, record.packetId = packetId ∧ p record.publishState := by
  obtain ⟨record, hrecord, hid⟩ := List.mem_map.1 h
  obtain ⟨hmem, hp⟩ := List.mem_filter.1 hrecord
  exact ⟨record, hmem, hid, of_decide_eq_true hp⟩

theorem not_mem_idsIn (h : ∀ record ∈ records, record.packetId ≠ packetId) :
    packetId ∉ idsIn p records := fun hmem => by
  obtain ⟨record, hrecord, hid, -⟩ := mem_of_mem_idsIn hmem
  exact h record hrecord hid

theorem split_lookup (hunique : UniqueIds records)
    (h : lookupRecord records packetId = some record) :
    record.packetId = packetId ∧ ∃ front back, records = front ++ record :: back ∧
      (∀ r ∈ front, r.packetId ≠ packetId) ∧ ∀ r ∈ back, r.packetId ≠ packetId := by
  have hid : record.packetId = packetId := by simpa using List.find?_some h
  obtain ⟨front, back, rfl⟩ := List.append_of_mem (List.mem_of_find?_eq_some h)
  obtain ⟨hfront, hback⟩ := hunique.split
  rw [hid] at hfront hback
  exact ⟨hid, front, back, rfl, hfront, hback⟩

theorem idsIn_setRecordState (hunique : UniqueIds records)
    (h : lookupRecord records packetId = some record) {newState : MqttPublishState}
    (hp : p newState ↔ p record.publishState) :
    idsIn p (setRecordState records packetId newState) = idsIn p records := by
  obtain ⟨hid, front, back, rfl, hfront, hback⟩ := split_lookup hunique h
  have hfront' := setRecordState_of_forall hfront newState
  have hback' := setRecordState_of_forall hback newState
  rw [setRecordState] at hfront' hback' ⊢
  rw [List.map_append, List.map_cons, hfront', hback', if_pos hid, idsIn_append, idsIn_append,
    idsIn_cons, idsIn_cons]
  simp only [hp]

theorem idsIn_eraseRecord (hunique : UniqueIds records)
    (h : lookupRecord records packetId = some record) :
    idsIn p (eraseRecord records packetId) =
      if p record.publishState then (idsIn p records).erase packetId else idsIn p records := by
  obtain ⟨hid, front, back, rfl, hfront, hback⟩ := split_lookup hunique h
  have hfront' := eraseRecord_of_forall hfront
  have hback' := eraseRecord_of_forall hback
  rw [eraseRecord] at hfront' hback' ⊢
  rw [List.filter_append, List.filter_cons_of_neg (by simp [hid]), hfront', hback', idsIn_append,
    idsIn_append, idsIn_cons]
  by_cases hp : p record.publishState
  · rw [if_pos hp, if_pos hp, hid, List.erase_append_right _ (not_mem_idsIn hfront),
      List.erase_cons_head]
  · rw [if_neg hp, if_neg hp]

theorem ids_eraseRecord (hunique : UniqueIds records)
    (h : lookupRecord records packetId = some record) :
    (eraseRecord records packetId).map (·.packetId) =
      (records.map (·.packetId)).erase packetId := by
  have hall : ∀ l : List MqttPubAckInfo, idsIn (fun _ => True) l = l.map (·.packetId) := by
    intro l
    simp [idsIn]
  have := idsIn_eraseRecord (p := fun _ => True) hunique h
  rwa [if_pos trivial, hall, hall] at this

end Records

/-! ### The transitions -/

/-- The packets about an outgoing publish, and what they do to its state. -/
inductive SentAck : MqttPubAckType → MqttStateOperation → MqttQos → MqttPublishState →
    MqttPublishState → Prop
  | puback : SentAck .puback .receive .qos1 .pubAckPending .publishDone
  | pubrec : SentAck .pubrec .receive .qos2 .pubRecPending .pubRelSend
  | pubrel {state : MqttPublishState} (h : state.IsReleasing) :
      SentAck .pubrel .send .qos2 state .pubCompPending
  | pubcomp : SentAck .pubcomp .receive .qos2 .pubCompPending .publishDone

/-- The packets about a publish of the peer, and the states that they lead to. -/
inductive ReceivedAck : MqttPubAckType → MqttStateOperation → MqttPublishState → Prop
  | puback : ReceivedAck .puback .send .publishDone
  | pubrec : ReceivedAck .pubrec .send .pubRelPending
  | pubrel : ReceivedAck .pubrel .receive .pubCompSend
  | pubcomp : ReceivedAck .pubcomp .send .publishDone

theorem MqttPublishState.IsReleasing.not_isWaiting {state : MqttPublishState}
    (h : state.IsReleasing) : ¬state.IsWaiting := by
  revert h
  cases state <;> decide

theorem SentAck.of_valid {packetType : MqttPubAckType} {opType : MqttStateOperation} {qos : MqttQos}
    {state : MqttPublishState} (hout : isPublishOutgoing packetType opType = true)
    (hlegal : SentState qos state)
    (hvalid : validateTransitionAck state (calculateStateAck packetType opType qos) = true) :
    SentAck packetType opType qos state (calculateStateAck packetType opType qos) := by
  -- Of the packets in their directions and the states of the quality of service, a few remain.
  cases qos with
  | qos0 => exact hlegal.elim
  | qos1 =>
    rcases hlegal with rfl | rfl <;> cases packetType <;> cases opType <;>
      first
        | exact absurd hout (by decide)
        | exact absurd hvalid (by decide)
        | exact .puback
  | qos2 =>
    rcases hlegal with rfl | rfl | rfl | rfl <;> cases packetType <;> cases opType <;>
      first
        | exact absurd hout (by decide)
        | exact absurd hvalid (by decide)
        | exact .pubrec
        | exact .pubcomp
        | exact .pubrel (by simp [MqttPublishState.IsReleasing])

theorem ReceivedAck.of_valid {packetType : MqttPubAckType} {opType : MqttStateOperation}
    {qos : MqttQos} {state : MqttPublishState}
    (hin : ¬isPublishOutgoing packetType opType = true)
    (hvalid : validateTransitionAck state (calculateStateAck packetType opType qos) = true) :
    ReceivedAck packetType opType (calculateStateAck packetType opType qos) := by
  have hnull : calculateStateAck packetType opType qos ≠ .stateNull := by
    intro h
    rw [h] at hvalid
    cases state <;> cases hvalid
  cases packetType <;> cases opType <;> first | exact absurd rfl hin | cases qos
  all_goals first
    | exact absurd rfl hnull
    | constructor

/-! ### The invariant -/

/-- The records are those that the history leaves open. -/
structure Tracks (s : InFlight) (o : Session) : Prop where
  legal : ∀ record ∈ s.sent.records, SentState record.qos record.publishState
  waiting : waitingIds s.sent.records = o.waiting
  releasing : releasingIds s.sent.records = o.releasing
  received : s.received.ids = o.received

theorem tracks_none : Tracks .none .none :=
  ⟨by simp [InFlight.none, RecordLog.empty], rfl, rfl, rfl⟩

theorem RecordLog.append_eq (log : RecordLog) {packetId : UInt16} (h : packetId ≠ packetIdInvalid)
    (qos : MqttQos) (publishState : MqttPublishState) :
    ((log.append packetId h qos publishState).1 = .success ∧
        (log.append packetId h qos publishState).2.records =
          log.records ++ [⟨packetId, qos, publishState⟩]) ∨
      ((log.append packetId h qos publishState).1 ≠ .success ∧
        (log.append packetId h qos publishState).2 = log) := by
  simp only [RecordLog.append, RecordLog.ext_iff, appendRecord]
  split
  · exact Or.inr ⟨MqttStatus.noConfusion, rfl⟩
  · split
    · exact Or.inl ⟨rfl, rfl⟩
    · exact Or.inr ⟨MqttStatus.noConfusion, rfl⟩

namespace Tracks

variable {s : InFlight} {o : Session}

theorem reserve (h : Tracks s o) (packetId : UInt16) (qos : MqttQos) :
    Tracks (inFlightStep s (.reserve packetId qos)).2
      (o.observe (.reserve packetId qos, (inFlightStep s (.reserve packetId qos)).1)) := by
  rw [inFlightStep]
  by_cases hqos : qos = .qos0
  · rw [if_pos hqos, o.observe_success _ rfl, Session.succeed, if_pos hqos]
    exact h
  · rw [if_neg hqos]
    by_cases hid : packetId = packetIdInvalid
    · rw [dif_pos hid, Session.observe_failure]
      · exact h
      · exact fun h => by cases h
    · rw [dif_neg hid]
      dsimp only
      rcases s.sent.append_eq hid qos .publishSend with ⟨hstatus, happend⟩ | ⟨hstatus, happend⟩
      · rw [o.observe_success _ hstatus, Session.succeed, if_neg hqos]
        refine ⟨?_, ?_, ?_, h.received⟩
        · intro record hrecord
          rw [happend] at hrecord
          rcases List.mem_append.1 hrecord with hrecord | hrecord
          · exact h.legal record hrecord
          · rw [List.mem_singleton.1 hrecord]
            cases qos with
            | qos0 => exact absurd rfl hqos
            | qos1 => exact Or.inl rfl
            | qos2 => exact Or.inl rfl
        · rw [happend, waitingIds, idsIn_append, ← waitingIds, h.waiting]
          rfl
        · rw [happend, releasingIds, idsIn_append, ← releasingIds, h.releasing]
          exact List.append_nil _
      · rw [o.observe_failure _ hstatus, happend]
        exact h

theorem setState (h : Tracks s o) {packetId : UInt16} {record : MqttPubAckInfo}
    (hrecord : lookupRecord s.sent.records packetId = some record) {newState : MqttPublishState}
    (hlegal : SentState record.qos newState)
    (hwaiting : newState.IsWaiting ↔ record.publishState.IsWaiting)
    (hreleasing : newState.IsReleasing ↔ record.publishState.IsReleasing) :
    Tracks { s with sent := s.sent.setState packetId newState } o := by
  refine ⟨?_, ?_, ?_, h.received⟩
  · intro r hr
    obtain ⟨hid, front, back, hsplit, hfront, hback⟩ := split_lookup s.sent.unique hrecord
    change r ∈ setRecordState s.sent.records packetId newState at hr
    obtain ⟨r', hr', rfl⟩ := List.mem_map.1 hr
    by_cases hid' : r'.packetId = packetId
    · rw [if_pos hid']
      rw [hsplit, List.mem_append, List.mem_cons] at hr'
      rcases hr' with hr' | rfl | hr'
      · exact absurd hid' (hfront r' hr')
      · exact hlegal
      · exact absurd hid' (hback r' hr')
    · rw [if_neg hid']
      exact h.legal r' hr'
  · exact (idsIn_setRecordState s.sent.unique hrecord hwaiting).trans h.waiting
  · exact (idsIn_setRecordState s.sent.unique hrecord hreleasing).trans h.releasing

theorem send (h : Tracks s o) (packetId : UInt16) (qos : MqttQos) :
    Tracks (inFlightStep s (.publish packetId .send qos)).2
      (o.observe (.publish packetId .send qos,
        (inFlightStep s (.publish packetId .send qos)).1)) := by
  have hobserve : ∀ answer, o.observe (.publish packetId .send qos, answer) = o := by
    intro answer
    rw [Session.observe, Session.succeed, ite_self]
  rw [hobserve, inFlightStep]
  split
  · exact h
  · split
    · exact h
    · dsimp only [RecordLog.send]
      cases hrecord : lookupRecord s.sent.records packetId with
      | none => exact h
      | some record =>
        dsimp only
        split
        · exact h
        next hqos =>
          rw [not_not] at hqos
          split
          next hvalid =>
            have hlegal := h.legal record (List.mem_of_find?_eq_some hrecord)
            rw [← hqos] at hvalid ⊢
            cases hq : record.qos <;> cases hst : record.publishState <;> rw [hq, hst] at hvalid
            all_goals first
              | exact absurd hvalid (by decide)
              | exact h.setState hrecord (by rw [hq]; simp [SentState, calculateStatePublish])
                  (by rw [hst]; decide) (by rw [hst]; decide)
          · exact h

theorem receive (h : Tracks s o) (packetId : UInt16) (qos : MqttQos) :
    Tracks (inFlightStep s (.publish packetId .receive qos)).2
      (o.observe (.publish packetId .receive qos,
        (inFlightStep s (.publish packetId .receive qos)).1)) := by
  rw [inFlightStep]
  by_cases hqos : qos = .qos0
  · rw [if_pos hqos, o.observe_success _ rfl, Session.succeed, if_pos hqos]
    exact h
  · rw [if_neg hqos]
    by_cases hid : packetId = packetIdInvalid
    · rw [dif_pos hid, Session.observe_failure]
      · exact h
      · exact fun h => by cases h
    · rw [dif_neg hid]
      dsimp only
      rcases s.received.append_eq hid qos (calculateStatePublish .receive qos) with
        ⟨hstatus, happend⟩ | ⟨hstatus, happend⟩
      · rw [o.observe_success _ hstatus, Session.succeed, if_neg hqos]
        refine ⟨h.legal, h.waiting, h.releasing, ?_⟩
        rw [RecordLog.ids, happend, List.map_append, ← RecordLog.ids, h.received]
        rfl
      · rw [o.observe_failure _ hstatus, happend]
        exact h

/-! #### Acknowledgements -/

theorem ack_none {log : RecordLog} {packetId : UInt16} (hid : packetId ≠ packetIdInvalid)
    (h : lookupRecord log.records packetId = none) (packetType : MqttPubAckType)
    (opType : MqttStateOperation) :
    log.ack packetId hid packetType opType = ((.badResponse, none), log) := by
  rw [RecordLog.ack, h]

theorem ack_some {log : RecordLog} {packetId : UInt16} (hid : packetId ≠ packetIdInvalid)
    {record : MqttPubAckInfo} (h : lookupRecord log.records packetId = some record)
    (packetType : MqttPubAckType) (opType : MqttStateOperation) :
    log.ack packetId hid packetType opType =
      if validateTransitionAck record.publishState
          (calculateStateAck packetType opType record.qos) then
        ((.success, some (calculateStateAck packetType opType record.qos)),
          log.advance packetId hid (calculateStateAck packetType opType record.qos))
      else ((.illegalState, none), log) := by
  rw [RecordLog.ack, h]

theorem erase (h : Tracks s o) {packetId : UInt16} {record : MqttPubAckInfo}
    (hrecord : lookupRecord s.sent.records packetId = some record) :
    Tracks { s with sent := s.sent.erase packetId }
      { o with
        waiting := if record.publishState.IsWaiting then o.waiting.erase packetId else o.waiting
        releasing :=
          if record.publishState.IsReleasing then o.releasing.erase packetId
          else o.releasing } := by
  refine ⟨?_, ?_, ?_, h.received⟩
  · intro r hr
    exact h.legal r (List.mem_filter.1 hr).1
  · rw [← h.waiting]
    exact idsIn_eraseRecord s.sent.unique hrecord
  · rw [← h.releasing]
    exact idsIn_eraseRecord s.sent.unique hrecord

theorem moveToEnd (h : Tracks s o) {packetId : UInt16} (hid : packetId ≠ packetIdInvalid)
    {record : MqttPubAckInfo} (hrecord : lookupRecord s.sent.records packetId = some record)
    (hstate : record.publishState = .pubRecPending) :
    Tracks { s with sent := s.sent.moveToEnd packetId hid }
      { o with
        waiting := o.waiting.erase packetId
        releasing := o.releasing ++ [packetId] } := by
  have hmove := (s.sent.records_moveToEnd hid hrecord).1
  refine ⟨?_, ?_, ?_, h.received⟩
  · intro r hr
    rw [hmove] at hr
    rcases List.mem_append.1 hr with hr | hr
    · exact h.legal r (List.mem_filter.1 hr).1
    · rw [List.mem_singleton.1 hr]
      exact Or.inr (Or.inr (Or.inl rfl))
  · dsimp only
    rw [hmove, waitingIds, idsIn_append, idsIn_eraseRecord s.sent.unique hrecord, hstate,
      if_pos (by decide), ← waitingIds, h.waiting]
    exact List.append_nil _
  · dsimp only
    rw [hmove, releasingIds, idsIn_append, idsIn_eraseRecord s.sent.unique hrecord, hstate,
      if_neg (by decide), ← releasingIds, h.releasing]
    rfl

theorem ackSent (h : Tracks s o) {packetId : UInt16} (hid : packetId ≠ packetIdInvalid)
    {packetType : MqttPubAckType} {opType : MqttStateOperation}
    (hout : isPublishOutgoing packetType opType = true) :
    Tracks { s with sent := (s.sent.ack packetId hid packetType opType).2 }
      (o.observe (.ack packetId packetType opType,
        (s.sent.ack packetId hid packetType opType).1)) := by
  cases hrecord : lookupRecord s.sent.records packetId with
  | none =>
    rw [ack_none hid hrecord, Session.observe_failure]
    · exact h
    · exact fun h => by cases h
  | some record =>
    rw [ack_some hid hrecord]
    by_cases hvalid : validateTransitionAck record.publishState
        (calculateStateAck packetType opType record.qos) = true
    · rw [if_pos hvalid, o.observe_success _ rfl, RecordLog.advance]
      have hack := SentAck.of_valid hout (h.legal record (List.mem_of_find?_eq_some hrecord)) hvalid
      have herase := h.erase hrecord
      generalize calculateStateAck packetType opType record.qos = newState at hack ⊢
      generalize hstate : record.publishState = state at hack herase
      generalize hqos : record.qos = qos at hack
      cases hack with
      | puback => exact herase
      | pubrec => exact h.moveToEnd hid hrecord hstate
      | pubrel hreleasing =>
        refine h.setState hrecord (by rw [hqos]; simp [SentState]) ?_ ?_
        · rw [hstate]
          exact iff_of_false (by decide) hreleasing.not_isWaiting
        · rw [hstate]
          exact iff_of_true (by decide) hreleasing
      | pubcomp => exact herase
    · rw [if_neg hvalid, Session.observe_failure]
      · exact h
      · exact fun h => by cases h

theorem ackReceived (h : Tracks s o) {packetId : UInt16} (hid : packetId ≠ packetIdInvalid)
    {packetType : MqttPubAckType} {opType : MqttStateOperation}
    (hin : ¬isPublishOutgoing packetType opType = true) :
    Tracks { s with received := (s.received.ack packetId hid packetType opType).2 }
      (o.observe (.ack packetId packetType opType,
        (s.received.ack packetId hid packetType opType).1)) := by
  cases hrecord : lookupRecord s.received.records packetId with
  | none =>
    rw [ack_none hid hrecord, Session.observe_failure]
    · exact h
    · exact fun h => by cases h
  | some record =>
    rw [ack_some hid hrecord]
    by_cases hvalid : validateTransitionAck record.publishState
        (calculateStateAck packetType opType record.qos) = true
    · rw [if_pos hvalid, o.observe_success _ rfl, RecordLog.advance]
      have hack := ReceivedAck.of_valid hin hvalid
      have herase : (s.received.erase packetId).ids = o.received.erase packetId := by
        rw [← h.received]
        exact ids_eraseRecord s.received.unique hrecord
      have hset : ∀ newState, (s.received.setState packetId newState).ids = o.received :=
        fun newState => (map_packetId_setRecordState _ packetId newState).trans h.received
      generalize calculateStateAck packetType opType record.qos = newState at hack ⊢
      cases hack with
      | puback | pubcomp => exact ⟨h.legal, h.waiting, h.releasing, herase⟩
      | pubrec | pubrel => exact ⟨h.legal, h.waiting, h.releasing, hset _⟩
    · rw [if_neg hvalid, Session.observe_failure]
      · exact h
      · exact fun h => by cases h

theorem ack (h : Tracks s o) (packetId : UInt16) (packetType : MqttPubAckType)
    (opType : MqttStateOperation) :
    Tracks (inFlightStep s (.ack packetId packetType opType)).2
      (o.observe (.ack packetId packetType opType,
        (inFlightStep s (.ack packetId packetType opType)).1)) := by
  rw [inFlightStep]
  by_cases hid : packetId = packetIdInvalid
  · rw [dif_pos hid, Session.observe_failure]
    · exact h
    · exact fun h => by cases h
  · rw [dif_neg hid]
    by_cases hout : isPublishOutgoing packetType opType = true
    · rw [if_pos hout]
      exact h.ackSent hid hout
    · rw [if_neg hout]
      exact h.ackReceived hid hout

theorem step (h : Tracks s o) (call : StateCall) :
    Tracks (inFlightStep s call).2 (o.observe (call, (inFlightStep s call).1)) := by
  cases call with
  | reserve packetId qos => exact h.reserve packetId qos
  | publish packetId opType qos =>
    cases opType with
    | send => exact h.send packetId qos
    | receive => exact h.receive packetId qos
  | ack packetId packetType opType => exact h.ack packetId packetType opType

end Tracks

/-- **Order of the records.** After every run of calls from `MQTT_Init` on, the records in use are
the publishes that the history of calls and answers leaves open, in the order of the history: those
that wait for the receipt in the order in which they were reserved, those that wait for the release
in the order in which their receipt was confirmed, and those of the peer in the order in which they
came. -/
theorem records_in_order (calls : List StateCall) :
    let r := outputs stateStep mqttInit calls
    let o := (calls.zip r.1).foldl Session.observe .none
    waitingIds (live r.2.outgoing) = o.waiting ∧ releasingIds (live r.2.outgoing) = o.releasing ∧
      liveIds r.2.incoming = o.received := by
  have hrun := stateStep_run calls
  have htracks : Tracks (outputs inFlightStep .none calls).2
      (([] ++ calls.zip (outputs inFlightStep .none calls).1).foldl Session.observe .none) :=
    @outputs_history _ _ _ inFlightStep (fun s h => Tracks s (h.foldl Session.observe .none))
      (fun s h call hs => by rw [List.foldl_append]; exact hs.step call) _ _ tracks_none calls
  rw [List.nil_append] at htracks
  obtain ⟨houts, hsent, hreceived⟩ := hrun
  dsimp only
  rw [houts, hsent, liveIds, hreceived]
  exact ⟨htracks.waiting, htracks.releasing, htracks.received⟩

end TuyaOpen.CoreMqtt
