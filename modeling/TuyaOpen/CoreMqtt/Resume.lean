import TuyaOpen.CoreMqtt.Client

/-!
# The PUBRELs of a resumed session

When a session is resumed, the PUBRELs of the publishes that the broker has received are sent again.
The search for them looks at the state of each place of the array, also of the free ones, whose
state is the last one that they had. A free place with the state of a PUBREL ends the search.

## Main results

* `sendPublishAcks_pubrel`: a PUBREL that is sent again leaves its record at its place.
* `resendPubrels_eq`: what the loop sends from a place on.
* `resumption_resends`: the PUBRELs that are sent again, and when these are all of them.
-/

namespace TuyaOpen.CoreMqtt

/-- The packet identifiers of the records that wait for the release, in front of the first free
place that has one of their states. -/
def resumedIds (records : List MqttPubAckInfo) : List UInt16 :=
  ((records.filter fun record => record.publishState.IsReleasing).takeWhile fun record =>
    record.InUse).map (·.packetId)

theorem resumedIds_cons (record : MqttPubAckInfo) (records : List MqttPubAckInfo) :
    resumedIds (record :: records) =
      if record.publishState.IsReleasing then
        if record.InUse then record.packetId :: resumedIds records else []
      else resumedIds records := by
  rw [resumedIds, List.filter_cons]
  by_cases hstate : record.publishState.IsReleasing
  · by_cases huse : record.InUse <;> simp [hstate, huse, resumedIds]
  · simp [hstate, resumedIds]

theorem releasingIds_live_cons (record : MqttPubAckInfo) (records : List MqttPubAckInfo) :
    releasingIds (live (record :: records)) =
      if record.publishState.IsReleasing ∧ record.InUse then
        record.packetId :: releasingIds (live records)
      else releasingIds (live records) := by
  rw [live_cons]
  by_cases huse : record.InUse
  · by_cases hstate : record.publishState.IsReleasing <;>
      simp [huse, hstate, releasingIds, idsIn_cons]
  · simp [huse]

theorem resumedIds_sublist (records : List MqttPubAckInfo) :
    (resumedIds records).Sublist (releasingIds (live records)) := by
  induction records with
  | nil => exact List.Sublist.refl _
  | cons record records ih =>
    rw [resumedIds_cons, releasingIds_live_cons]
    by_cases hstate : record.publishState.IsReleasing
    · by_cases huse : record.InUse
      · rw [if_pos hstate, if_pos huse, if_pos ⟨hstate, huse⟩]
        exact ih.cons_cons _
      · rw [if_pos hstate, if_neg huse]
        exact List.nil_sublist _
    · rw [if_neg hstate, if_neg (fun h => hstate h.1)]
      exact ih

/-- The search finds all records that wait for the release exactly when none stands behind a free
place that has one of their states. -/
theorem resumedIds_eq_iff (records : List MqttPubAckInfo) :
    resumedIds records = releasingIds (live records) ↔
      ∀ front place back, records = front ++ place :: back → ¬place.InUse →
        place.publishState.IsReleasing → releasingIds (live back) = [] := by
  induction records with
  | nil =>
    refine iff_of_true rfl fun front place back h => ?_
    exact absurd h.symm (List.append_ne_nil_of_right_ne_nil _ (List.cons_ne_nil _ _))
  | cons record records ih =>
    have hsplit : (∀ front place back, record :: records = front ++ place :: back →
          ¬place.InUse → place.publishState.IsReleasing → releasingIds (live back) = []) ↔
        (¬record.InUse → record.publishState.IsReleasing → releasingIds (live records) = []) ∧
          ∀ front place back, records = front ++ place :: back → ¬place.InUse →
            place.publishState.IsReleasing → releasingIds (live back) = [] := by
      constructor
      · exact fun h => ⟨h [] record records rfl, fun front place back heq =>
          h (record :: front) place back (by rw [heq, List.cons_append])⟩
      · rintro ⟨hhead, htail⟩ front place back heq
        cases front with
        | nil =>
          obtain ⟨rfl, rfl⟩ := List.cons.inj heq
          exact hhead
        | cons _ front => exact htail front place back (List.cons.inj heq).2
    rw [hsplit, ← ih, resumedIds_cons, releasingIds_live_cons]
    by_cases hstate : record.publishState.IsReleasing
    · by_cases huse : record.InUse
      · simp [hstate, huse]
      · -- The search ends here, so that nothing may stand behind.
        simp only [hstate, huse, if_true, if_false, and_false, not_false_eq_true, forall_true_left]
        constructor
        · intro h
          refine ⟨h.symm, ?_⟩
          rw [← h]
          have : (resumedIds records).Sublist (releasingIds (live records)) :=
            resumedIds_sublist records
          rwa [← h, List.sublist_nil] at this
        · exact fun h => h.1.symm
    · simp [hstate]

/-! ### The search -/

theorem stateSelect_fuel (searchStates : List MqttPublishState) (records : List MqttPubAckInfo)
    {fuel fuel' cursor : Nat} (h : mqttStateArrayMaxCount ≤ fuel + cursor)
    (h' : mqttStateArrayMaxCount ≤ fuel' + cursor) :
    stateSelect searchStates records fuel cursor =
      stateSelect searchStates records fuel' cursor := by
  induction fuel generalizing fuel' cursor with
  | zero =>
    cases fuel' with
    | zero => rfl
    | succ fuel' => rw [stateSelect, stateSelect, if_neg (by omega)]
  | succ fuel ih =>
    cases fuel' with
    | zero => rw [stateSelect, stateSelect, if_neg (by omega)]
    | succ fuel' =>
      have ih' : stateSelect searchStates records fuel (cursor + 1) =
          stateSelect searchStates records fuel' (cursor + 1) := ih (by omega) (by omega)
      simp only [stateSelect, ih']

theorem isReleasing_iff_mem (state : MqttPublishState) :
    state ∈ [MqttPublishState.pubCompPending, .pubRelSend] ↔ state.IsReleasing := by
  cases state <;> decide

section Search

variable {c : MqttContext} {front back : List MqttPubAckInfo} {record : MqttPubAckInfo}

theorem pubrelToResend_cons (hrecords : c.outgoing = front ++ record :: back)
    (hlength : c.outgoing.length = mqttStateArrayMaxCount) :
    mqttPubrelToResend c front.length =
      if record.publishState.IsReleasing then (record.packetId, front.length + 1)
      else mqttPubrelToResend c (front.length + 1) := by
  have hlt : front.length < mqttStateArrayMaxCount := by
    rw [← hlength, hrecords, List.length_append, List.length_cons]
    omega
  have hget : c.outgoing.getD front.length .zero = record := by
    rw [hrecords, List.getD_append_right _ _ _ _ le_rfl, Nat.sub_self]
    rfl
  have hfuel := stateSelect_fuel [.pubCompPending, .pubRelSend] c.outgoing
    (Nat.le_add_right mqttStateArrayMaxCount front.length)
    (Nat.le_trans (Nat.le_succ _) (Nat.le_add_right (mqttStateArrayMaxCount + 1) front.length))
  rw [mqttPubrelToResend, hfuel, stateSelect, if_pos hlt, hget]
  simp only [isReleasing_iff_mem]
  rfl

theorem pubrelToResend_end (c : MqttContext) :
    (mqttPubrelToResend c mqttStateArrayMaxCount).1 = packetIdInvalid :=
  rfl

/-! ### Sending a PUBREL again -/

theorem findInRecord_append_cons (hunique : UniqueIds (live (front ++ record :: back)))
    (huse : record.InUse) :
    findInRecord (front ++ record :: back) record.packetId = some (front.length, record) := by
  rw [live_append, live_cons, if_pos huse] at hunique
  have hfront : ∀ r ∈ front, r.packetId ≠ record.packetId := fun r hr heq =>
    hunique.split.1 r (mem_live.2 ⟨hr, fun h => huse (heq.symm.trans h)⟩) heq
  rw [findInRecord, Option.map_eq_some_iff]
  refine ⟨front.length, ?_, ?_⟩
  · rw [List.findIdx?_append, List.findIdx?_eq_none_iff.2 fun r hr => by simp [hfront r hr],
      List.findIdx?_cons]
    simp
  · rw [List.getD_append_right _ _ _ _ le_rfl, Nat.sub_self]
    rfl

def MqttPubAckInfo.released (record : MqttPubAckInfo) : MqttPubAckInfo :=
  { record with publishState := .pubCompPending }

theorem sendPublishAcks_pubrel {o : Session} (h : Agrees c o)
    (hrecords : c.outgoing = front ++ record :: back) (huse : record.InUse)
    (hstate : record.publishState.IsReleasing) :
    sendPublishAcks c record.packetId .pubRelSend true =
      ([.sentAck .pubrel record.packetId], .success,
        { c with outgoing := front ++ record.released :: back }) := by
  obtain ⟨s, hs, htracks⟩ := h
  have hunique := hs.1.unique
  rw [hrecords] at hunique
  have hfind := findInRecord_append_cons hunique huse
  have hmem : record ∈ s.sent.records := by
    rw [← hs.1.2, hrecords]
    exact mem_live.2 ⟨List.mem_append_right _ List.mem_cons_self, huse⟩
  have hqos : record.qos = .qos2 := by
    have hlegal := htracks.legal record hmem
    revert hlegal hstate
    cases record.qos <;> cases record.publishState <;>
      simp [SentState, MqttPublishState.IsReleasing]
  have hvalid : validateTransitionAck record.publishState .pubCompPending = true := by
    revert hstate
    cases record.publishState <;> decide
  have hupdate : (updateStateAck c.outgoing front.length record.packetId record.publishState
      .pubCompPending) = (.success, front ++ record.released :: back) := by
    rw [updateStateAck, if_pos hvalid]
    by_cases hsame : record.publishState = .pubCompPending
    · have hreleased : record.released = record := by
        rw [MqttPubAckInfo.released, ← hsame]
      rw [if_neg (not_not.2 hsame), hreleased, hrecords]
    · rw [if_pos hsame, hrecords]
      simp only [updateRecord, modify_length_append]
      rfl
  have hnew : calculateStateAck .pubrel .send record.qos = .pubCompPending := by
    rw [hqos]
    rfl
  rw [sendPublishAcks]
  dsimp only [getAckTypeToSend]
  rw [if_pos rfl, mqttUpdateStateAck, if_neg huse]
  simp only [isPublishOutgoing, decide_true, if_true]
  rw [hrecords] at hupdate ⊢
  rw [hfind]
  dsimp only
  rw [hnew, hupdate]
  rfl

end Search

theorem sendPublishAcks_failed (c : MqttContext) (packetId : UInt16) :
    sendPublishAcks c packetId .pubRelSend false = ([], .sendFailed, c) :=
  rfl

theorem resendPubrels_sendFailed (c : MqttContext) (fuel : Nat) (cursor : UInt16 × Nat)
    (sent : List Bool) :
    resendPubrels c .sendFailed fuel cursor sent = ([], .sendFailed, c) := by
  cases fuel with
  | zero => rfl
  | succ fuel => rw [resendPubrels, if_neg (fun hloop => absurd hloop.2 (by decide))]

theorem resendPubrels_eq {c : MqttContext} {o : Session} (h : Agrees c o)
    {front back : List MqttPubAckInfo} (hrecords : c.outgoing = front ++ back) {fuel : Nat}
    (hfuel : back.length < fuel) (sent : List Bool) :
    (resendPubrels c .success fuel (mqttPubrelToResend c front.length) sent).1 =
      ((resumedIds back).take (sent.takeWhile id).length).map (.sentAck .pubrel) := by
  have hlength : c.outgoing.length = mqttStateArrayMaxCount := by
    obtain ⟨s, hs, -⟩ := h
    exact hs.1.1
  induction back generalizing c o front fuel sent with
  | nil =>
    have hend : front.length = mqttStateArrayMaxCount := by
      rw [← hlength, hrecords, List.append_nil]
    obtain ⟨fuel, rfl⟩ := Nat.exists_eq_succ_of_ne_zero (Nat.ne_of_gt (Nat.zero_lt_of_lt hfuel))
    have hcursor := pubrelToResend_end c
    rw [← hend] at hcursor
    rw [resendPubrels, if_neg (fun h => h.1 hcursor)]
    simp [resumedIds]
  | cons record back ih =>
    obtain ⟨fuel, rfl⟩ := Nat.exists_eq_succ_of_ne_zero (Nat.ne_of_gt (Nat.zero_lt_of_lt hfuel))
    rw [List.length_cons, Nat.succ_lt_succ_iff] at hfuel
    rw [pubrelToResend_cons hrecords hlength, resumedIds_cons]
    by_cases hstate : record.publishState.IsReleasing
    · rw [if_pos hstate, if_pos hstate, resendPubrels]
      by_cases huse : record.InUse
      · rw [if_pos ⟨huse, rfl⟩, if_pos huse]
        cases sent with
        | nil =>
          rw [List.headD_nil, sendPublishAcks_failed]
          dsimp only
          rw [resendPubrels_sendFailed]
          rfl
        | cons sent rest =>
          cases sent with
          | false =>
            rw [List.headD_cons, sendPublishAcks_failed]
            dsimp only
            rw [resendPubrels_sendFailed]
            rfl
          | true =>
            have hsend := sendPublishAcks_pubrel h hrecords huse hstate
            have hagrees := h.step (.ack record.packetId .pubrel .send)
            rw [show (stateStep c (.ack record.packetId .pubrel .send)).2 = _ from
              congrArg (fun r => r.2.2) hsend] at hagrees
            have hlength' : (front ++ record.released :: back).length = mqttStateArrayMaxCount := by
              rw [← hlength, hrecords, List.length_append, List.length_append]
              rfl
            have hrest := ih hagrees (List.append_cons front record.released back) hfuel rest
              hlength'
            rw [List.length_append, List.length_singleton] at hrest
            rw [List.headD_cons, hsend]
            dsimp only [List.tail_cons]
            rw [hrest]
            simp
      · rw [if_neg (fun h => huse h.1), if_neg huse]
        simp
    · rw [if_neg hstate, if_neg hstate]
      have := @ih c o h (front ++ [record]) (by rw [hrecords]; simp) (fuel + 1) (by omega) sent
        hlength
      rwa [List.length_append, List.length_singleton] at this

/-- **Resumption.** When a session is resumed after any run, the PUBRELs that are sent again, until
one cannot be sent, are those of the records that wait for the release, in their order, up to the
first free place that has one of their states. They are those of all these records exactly when none
of these records stands behind such a place. -/
theorem resumption_resends (events : List ClientEvent) (sent : List Bool) :
    let c := (outputs clientStep mqttInit events).2
    (handleSessionResumption c true sent).1 =
        ((resumedIds c.outgoing).take (sent.takeWhile id).length).map (.sentAck .pubrel) ∧
      (resumedIds c.outgoing = releasingIds (live c.outgoing) ↔
        ∀ front place back, c.outgoing = front ++ place :: back → ¬place.InUse →
          place.publishState.IsReleasing → releasingIds (live back) = []) := by
  intro c
  obtain ⟨o, hinv⟩ := exists_clientInv events
  have h := hinv.agrees
  refine ⟨?_, resumedIds_eq_iff c.outgoing⟩
  have hlength : c.outgoing.length = mqttStateArrayMaxCount := by
    obtain ⟨s, hs, -⟩ := h
    exact hs.1.1
  have hrun := resendPubrels_eq h (List.nil_append c.outgoing).symm
    (Nat.lt_succ_of_le hlength.le) sent
  rw [handleSessionResumption, if_pos rfl]
  exact hrun

/-- The first of two publishes is complete, and its place keeps the state of a PUBREL: the PUBREL of
the second one is not sent again. -/
example :
    let c := (outputs clientStep mqttInit
      [.publish 1 .qos2 false true, .publish 2 .qos2 false true, .incomingAck .pubrec 1 true,
        .incomingAck .pubrec 2 true, .incomingAck .pubcomp 1 true]).2
    (handleSessionResumption c true [true]).1 = [] ∧ releasingIds (live c.outgoing) = [2] := by
  decide +kernel

end TuyaOpen.CoreMqtt
