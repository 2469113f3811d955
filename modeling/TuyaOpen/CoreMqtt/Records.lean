import Mathlib.Data.List.GetD
import TuyaOpen.CoreMqtt.State

/-!
# The records in use

An array of state records has free places anywhere, but a new record goes behind the last one in
use. The array stands for the list of its records in use: adding a record is adding it at the end of
that list, and finding, updating and freeing a record are the operations by packet identifier.

## Main results

* `compactRecords_eq`: compaction moves the records in use to the front and keeps their order.
* `addRecord_eq`: what `addRecord` does to the records in use.
* `findInRecord_eq`, `live_updateRecord`, `live_deleteRecord`: what the other functions do to them.
-/

namespace TuyaOpen.CoreMqtt

def MqttPubAckInfo.InUse (record : MqttPubAckInfo) : Prop := record.packetId ≠ packetIdInvalid

instance (record : MqttPubAckInfo) : Decidable record.InUse :=
  inferInstanceAs (Decidable (record.packetId ≠ packetIdInvalid))

def live (records : List MqttPubAckInfo) : List MqttPubAckInfo := records.filter (·.InUse)

def liveIds (records : List MqttPubAckInfo) : List UInt16 := (live records).map (·.packetId)

def AllFree (records : List MqttPubAckInfo) : Prop := ∀ record ∈ records, ¬record.InUse

@[simp] theorem live_nil : live [] = [] := rfl

@[simp] theorem live_append (records records' : List MqttPubAckInfo) :
    live (records ++ records') = live records ++ live records' :=
  List.filter_append ..

theorem live_cons (record : MqttPubAckInfo) (records : List MqttPubAckInfo) :
    live (record :: records) = if record.InUse then record :: live records else live records := by
  simp [live, List.filter_cons]

@[simp] theorem live_singleton (record : MqttPubAckInfo) :
    live [record] = if record.InUse then [record] else [] := by
  simp [live_cons]

@[simp] theorem live_live (records : List MqttPubAckInfo) : live (live records) = live records := by
  simp [live]

theorem live_eq_nil_iff {records : List MqttPubAckInfo} : live records = [] ↔ AllFree records := by
  simp [live, AllFree]

theorem AllFree.live_eq {records : List MqttPubAckInfo} (h : AllFree records) : live records = [] :=
  live_eq_nil_iff.2 h

theorem length_live_le (records : List MqttPubAckInfo) : (live records).length ≤ records.length :=
  List.length_filter_le ..

theorem mem_live {record : MqttPubAckInfo} {records : List MqttPubAckInfo} :
    record ∈ live records ↔ record ∈ records ∧ record.InUse := by
  simp [live]

theorem live_replicate_zero (n : Nat) : live (List.replicate n .zero) = [] :=
  live_eq_nil_iff.2 fun record h => by
    rw [List.eq_of_mem_replicate h]
    decide

theorem live_take_succ (records : List MqttPubAckInfo) (k : Nat) (h : k < records.length) :
    live (records.take (k + 1)) =
      live (records.take k) ++ if records[k].InUse then [records[k]] else [] := by
  rw [List.take_succ_eq_append_getElem h, live_append, live_singleton]

/-! ### Compaction -/

/-- After `k` iterations, the records in use among the first `k` are in front, and `free` places
follow. -/
def Compacted (records : List MqttPubAckInfo) (k : Nat) (s : List MqttPubAckInfo × Nat) : Prop :=
  ∃ free, AllFree free ∧ (live (records.take k)).length + free.length = k ∧
    s.1 = live (records.take k) ++ free ++ records.drop k ∧
    s.2 = if free = [] then mqttStateArrayMaxCount else (live (records.take k)).length

theorem compacted_zero (records : List MqttPubAckInfo) :
    Compacted records 0 (records, mqttStateArrayMaxCount) :=
  ⟨[], by simp [AllFree], by simp, by simp, by simp⟩

theorem Compacted.step {records : List MqttPubAckInfo}
    (hlength : records.length ≤ mqttStateArrayMaxCount) {k : Nat} (hk : k < records.length)
    {s : List MqttPubAckInfo × Nat} (h : Compacted records k s) :
    Compacted records (k + 1) (compactStep s k) := by
  obtain ⟨free, hfree, hcount, hs, hempty⟩ := h
  set front := live (records.take k) with hfront
  have hdrop : records.drop k = records[k] :: records.drop (k + 1) :=
    List.drop_eq_getElem_cons hk
  have hget : s.1.getD k .zero = records[k] := by
    rw [hs, List.getD_append_right _ _ _ _ (by simp; omega), hdrop]
    simp [hcount, hk]
  rw [hdrop] at hs
  unfold Compacted
  rw [live_take_succ records k hk, ← hfront, compactStep, hget]
  by_cases huse : records[k].InUse
  · rw [if_neg huse, if_pos huse]
    cases free with
    | nil =>
      rw [if_pos rfl] at hempty
      refine ⟨[], hfree, by simpa using hcount, ?_, ?_⟩
      · rw [if_neg (not_not.2 hempty), hs]
        simp
      · rw [if_neg (not_not.2 hempty), if_pos rfl, hempty]
    | cons place free =>
      -- The record moves to the first free place, and its own place becomes free.
      rw [if_neg (by simp)] at hempty
      simp only [List.length_cons] at hcount
      have hne : s.2 ≠ mqttStateArrayMaxCount := by omega
      have hset : s.1.set s.2 records[k] =
          (front ++ [records[k]] ++ free) ++ records[k] :: records.drop (k + 1) := by
        rw [hs, hempty]
        simp
      refine ⟨free ++ [{ records[k] with packetId := packetIdInvalid }], ?_, ?_, ?_, ?_⟩
      · intro record hrecord
        rcases List.mem_append.1 hrecord with hrecord | hrecord
        · exact hfree record (List.mem_cons_of_mem _ hrecord)
        · rw [List.mem_singleton.1 hrecord]
          exact fun h => h rfl
      · simp
        omega
      · rw [if_pos hne, hset, List.set_append_right _ _ (by simp; omega)]
        have hlen : k - (front ++ [records[k]] ++ free).length = 0 := by
          simp
          omega
        rw [hlen, List.set_cons_zero]
        simp only [List.append_assoc, List.cons_append, List.nil_append]
      · rw [if_pos hne, if_neg (by simp), hempty]
        simp
  · rw [if_pos (not_not.1 huse), if_neg huse, List.append_nil]
    refine ⟨free ++ [records[k]], ?_, ?_, ?_, ?_⟩
    · intro record hrecord
      rcases List.mem_append.1 hrecord with hrecord | hrecord
      · exact hfree record hrecord
      · rwa [List.mem_singleton.1 hrecord]
    · simp
      omega
    · rw [hs]
      simp only [List.append_assoc, List.cons_append, List.nil_append]
    · rw [if_neg (List.append_ne_nil_of_right_ne_nil _ (List.cons_ne_nil _ _))]
      cases free with
      | nil =>
        rw [if_pos rfl] at hempty
        rw [if_pos hempty, ← hcount]
        rfl
      | cons place free =>
        rw [if_neg (List.cons_ne_nil _ _)] at hempty
        have hne : s.2 ≠ mqttStateArrayMaxCount := by
          simp only [List.length_cons] at hcount
          omega
        rw [if_neg hne, hempty]

theorem compactRecords_eq {records : List MqttPubAckInfo}
    (hlength : records.length ≤ mqttStateArrayMaxCount) :
    ∃ free, AllFree free ∧ (live records).length + free.length = records.length ∧
      compactRecords records records.length = live records ++ free := by
  have hrun : ∀ k ≤ records.length,
      Compacted records k ((List.range k).foldl compactStep (records, mqttStateArrayMaxCount)) := by
    intro k
    induction k with
    | zero => exact fun _ => compacted_zero records
    | succ k ih =>
      intro hk
      rw [List.range_succ, List.foldl_append]
      exact (ih (Nat.le_of_succ_le hk)).step hlength hk
  obtain ⟨free, hfree, hcount, hs, -⟩ := hrun records.length le_rfl
  rw [List.take_length] at hcount hs
  exact ⟨free, hfree, hcount, by rw [compactRecords, hs, List.drop_length, List.append_nil]⟩

/-! ### Adding a record -/

theorem exists_split_free (records : List MqttPubAckInfo) :
    ∃ used free, records = used ++ free ∧ AllFree free ∧
      ∀ record ∈ used.getLast?, record.InUse := by
  induction records using List.reverseRecOn with
  | nil => exact ⟨[], [], rfl, by simp [AllFree], by simp⟩
  | append_singleton records record ih =>
    by_cases huse : record.InUse
    · exact ⟨records ++ [record], [], by simp, by simp [AllFree], by simpa using huse⟩
    · obtain ⟨used, free, rfl, hfree, hlast⟩ := ih
      refine ⟨used, free ++ [record], by simp, ?_, hlast⟩
      intro record' h
      rcases List.mem_append.1 h with h | h
      · exact hfree record' h
      · rwa [List.mem_singleton.1 h]

theorem addScan_found (records : List MqttPubAckInfo) (packetId : UInt16) (availableIndex : Nat)
    (index : Nat) (h : index ≤ records.length) :
    addScan records packetId index availableIndex true =
      if packetId ∈ liveIds (records.take index) then none else some availableIndex := by
  induction index with
  | zero => simp [addScan, liveIds]
  | succ index ih =>
    have hget : records.getD index .zero = records[index] := List.getD_eq_getElem _ _ h
    rw [addScan, hget, if_pos rfl, ih (Nat.le_of_succ_le h), liveIds, liveIds,
      live_take_succ records index h]
    by_cases huse : records[index].InUse
    · rw [if_neg huse, if_pos huse]
      by_cases hid : records[index].packetId = packetId
      · rw [if_pos hid, if_pos (by simp [hid])]
      · rw [if_neg hid]
        simp [Ne.symm hid]
    · rw [if_pos (not_not.1 huse), if_neg huse, List.append_nil]

theorem addScan_free (used free : List MqttPubAckInfo) (packetId : UInt16) (hfree : AllFree free)
    (k availableIndex : Nat) (hk : k ≤ free.length)
    (havailable : k = 0 → availableIndex = used.length) :
    addScan (used ++ free) packetId (used.length + k) availableIndex false =
      addScan (used ++ free) packetId used.length used.length false := by
  induction k generalizing availableIndex with
  | zero => rw [havailable rfl, Nat.add_zero]
  | succ k ih =>
    have hget : (used ++ free).getD (used.length + k) .zero = free[k] := by
      rw [List.getD_append_right _ _ _ _ (by omega), Nat.add_sub_cancel_left]
      exact List.getD_eq_getElem _ _ hk
    have hplace : free[k].packetId = packetIdInvalid :=
      not_not.1 (hfree _ (List.getElem_mem hk))
    rw [← Nat.add_assoc, addScan, hget]
    rw [if_pos hplace, if_neg Bool.false_ne_true]
    exact ih _ (Nat.le_of_succ_le hk) fun h => by rw [h, Nat.add_zero]

theorem addScan_eq {used free : List MqttPubAckInfo} {packetId : UInt16} (hfree : AllFree free)
    (hlast : ∀ record ∈ used.getLast?, record.InUse) :
    addScan (used ++ free) packetId (used ++ free).length (used ++ free).length false =
      if packetId ∈ liveIds (used ++ free) then none else some used.length := by
  have hids : liveIds (used ++ free) = liveIds ((used ++ free).take used.length) := by
    rw [liveIds, liveIds, live_append, hfree.live_eq, List.append_nil, List.take_left]
  rw [List.length_append, addScan_free used free packetId hfree _ _ le_rfl (by simp), hids]
  rcases List.eq_nil_or_concat' used with rfl | ⟨used, record, rfl⟩
  · simp [addScan, liveIds]
  · -- The scan meets a record in use first, so that nothing before it can be taken.
    have huse : record.InUse := hlast record (by simp)
    have hfound := addScan_found ((used ++ [record]) ++ free) packetId (used ++ [record]).length
      (used ++ [record]).length (by simp)
    rw [← hfound, List.length_append, List.length_singleton, addScan, addScan]
    have hget : ((used ++ [record]) ++ free).getD used.length .zero = record := by
      rw [List.append_assoc, List.getD_append_right _ _ _ _ le_rfl]
      simp
    rw [hget, if_neg huse, if_neg huse]

/-- What `addRecord` does to the records in use: a new one goes behind the others. -/
def appendRecord (records : List MqttPubAckInfo) (info : MqttPubAckInfo) :
    MqttStatus × List MqttPubAckInfo :=
  if info.packetId ∈ records.map (·.packetId) then (.stateCollision, records)
  else if records.length < mqttStateArrayMaxCount then (.success, records ++ [info])
  else (.noMemory, records)

/-- `addRecord` once the array is compacted: the loop, and the assignment. -/
def placeRecord (records : List MqttPubAckInfo) (recordCount : Nat) (info : MqttPubAckInfo) :
    MqttStatus × List MqttPubAckInfo :=
  match addScan records info.packetId recordCount recordCount false with
  | none => (.stateCollision, records)
  | some availableIndex =>
    if availableIndex < recordCount then (.success, records.set availableIndex info)
    else (.noMemory, records)

theorem addRecord_eq_placeRecord (records : List MqttPubAckInfo) (recordCount : Nat)
    (info : MqttPubAckInfo) :
    addRecord records recordCount info = placeRecord
      (if (records.getD (recordCount - 1) .zero).packetId ≠ packetIdInvalid then
        compactRecords records recordCount else records) recordCount info :=
  rfl

theorem placeRecord_eq {used free : List MqttPubAckInfo} {info : MqttPubAckInfo}
    (hlength : (used ++ free).length = mqttStateArrayMaxCount) (hinfo : info.InUse)
    (hfree : AllFree free) (hlast : ∀ record ∈ used.getLast?, record.InUse)
    (hroom : used.length < mqttStateArrayMaxCount ↔
      (live (used ++ free)).length < mqttStateArrayMaxCount) :
    (placeRecord (used ++ free) mqttStateArrayMaxCount info).2.length = mqttStateArrayMaxCount ∧
      ((placeRecord (used ++ free) mqttStateArrayMaxCount info).1,
        live (placeRecord (used ++ free) mqttStateArrayMaxCount info).2) =
          appendRecord (live (used ++ free)) info := by
  have hscan : addScan (used ++ free) info.packetId mqttStateArrayMaxCount mqttStateArrayMaxCount
      false = if info.packetId ∈ liveIds (used ++ free) then none else some used.length := by
    rw [← hlength]
    exact addScan_eq hfree hlast
  rw [placeRecord, hscan, appendRecord, ← liveIds]
  by_cases hid : info.packetId ∈ liveIds (used ++ free)
  · rw [if_pos hid, if_pos hid]
    exact ⟨hlength, rfl⟩
  · rw [if_neg hid, if_neg hid]
    dsimp only
    by_cases hlt : used.length < mqttStateArrayMaxCount
    · rw [if_pos hlt, if_pos (hroom.1 hlt)]
      refine ⟨by rw [List.length_set, hlength], ?_⟩
      obtain ⟨place, free, rfl⟩ : ∃ place free', free = place :: free' := by
        cases free with
        | nil =>
          rw [List.append_nil] at hlength
          omega
        | cons place free => exact ⟨place, free, rfl⟩
      have hplace : ¬place.InUse := hfree place List.mem_cons_self
      have hrest : AllFree free := fun record h => hfree record (List.mem_cons_of_mem _ h)
      rw [List.set_append_right _ _ le_rfl, Nat.sub_self, List.set_cons_zero]
      simp [live_cons, hplace, hinfo, hrest.live_eq]
    · rw [if_neg hlt, if_neg (fun h => hlt (hroom.2 h))]
      exact ⟨hlength, rfl⟩

theorem addRecord_eq {records : List MqttPubAckInfo} {info : MqttPubAckInfo}
    (hlength : records.length = mqttStateArrayMaxCount) (hinfo : info.InUse) :
    (addRecord records mqttStateArrayMaxCount info).2.length = mqttStateArrayMaxCount ∧
      ((addRecord records mqttStateArrayMaxCount info).1,
        live (addRecord records mqttStateArrayMaxCount info).2) =
          appendRecord (live records) info := by
  rw [addRecord_eq_placeRecord]
  by_cases hend : (records.getD (mqttStateArrayMaxCount - 1) .zero).packetId ≠ packetIdInvalid
  · -- The last place is taken, so that the array is compacted.
    obtain ⟨free, hfree, hcount, hcompact⟩ := compactRecords_eq hlength.le
    have hlive : live (live records ++ free) = live records := by simp [hfree.live_eq]
    have hlast : ∀ record ∈ (live records).getLast?, record.InUse := fun record h =>
      (mem_live.1 (List.mem_of_mem_getLast? h)).2
    have hplace := placeRecord_eq (by rw [List.length_append, hcount, hlength]) hinfo hfree hlast
      (by rw [hlive])
    rw [hlength] at hcompact
    rw [if_pos hend, hcompact]
    rwa [hlive] at hplace
  · rw [if_neg hend]
    obtain ⟨used, free, rfl, hfree, hlast⟩ := exists_split_free records
    have hne : free ≠ [] := by
      rintro rfl
      rw [List.append_nil] at hlength hend
      have hlt : mqttStateArrayMaxCount - 1 < used.length := by
        rw [hlength]
        decide
      have hget : used.getLast? = some (used.getD (mqttStateArrayMaxCount - 1) .zero) := by
        rw [List.getLast?_eq_getElem?, hlength, List.getD_eq_getElem _ _ hlt,
          List.getElem?_eq_getElem hlt]
      exact hend (hlast _ hget)
    have hpos : 0 < free.length := List.length_pos_of_ne_nil hne
    refine placeRecord_eq hlength hinfo hfree hlast ?_
    rw [List.length_append] at hlength
    rw [live_append, hfree.live_eq, List.append_nil]
    have := length_live_le used
    constructor <;> intro <;> omega

/-! ### Finding, updating and freeing a record -/

def lookupRecord (records : List MqttPubAckInfo) (packetId : UInt16) : Option MqttPubAckInfo :=
  records.find? fun record => record.packetId = packetId

def setRecordState (records : List MqttPubAckInfo) (packetId : UInt16)
    (newState : MqttPublishState) : List MqttPubAckInfo :=
  records.map fun record =>
    if record.packetId = packetId then { record with publishState := newState } else record

def eraseRecord (records : List MqttPubAckInfo) (packetId : UInt16) : List MqttPubAckInfo :=
  records.filter fun record => record.packetId ≠ packetId

theorem findInRecord_split {records : List MqttPubAckInfo} {packetId : UInt16} {index : Nat}
    {record : MqttPubAckInfo} (h : findInRecord records packetId = some (index, record)) :
    ∃ front back, records = front ++ record :: back ∧ front.length = index ∧
      record.packetId = packetId ∧ ∀ r ∈ front, r.packetId ≠ packetId := by
  rw [findInRecord, Option.map_eq_some_iff] at h
  obtain ⟨i, hi, hpair⟩ := h
  obtain ⟨rfl, rfl⟩ := Prod.mk.inj hpair
  obtain ⟨hlt, hid, hbefore⟩ := List.findIdx?_eq_some_iff_getElem.1 hi
  refine ⟨records.take i, records.drop (i + 1), ?_, ?_, ?_, ?_⟩
  · rw [List.getD_eq_getElem _ _ hlt, ← List.drop_eq_getElem_cons hlt, List.take_append_drop]
  · rw [List.length_take]
    omega
  · rw [List.getD_eq_getElem _ _ hlt]
    simpa using hid
  · intro r hr
    obtain ⟨j, hj, rfl⟩ := List.mem_iff_getElem.1 hr
    rw [List.length_take] at hj
    have := hbefore j (by omega)
    simpa using this

theorem findInRecord_eq {records : List MqttPubAckInfo} {packetId : UInt16}
    (hid : packetId ≠ packetIdInvalid) :
    (findInRecord records packetId).map Prod.snd = lookupRecord (live records) packetId := by
  rw [lookupRecord, live, List.find?_filter]
  cases h : findInRecord records packetId with
  | none =>
    rw [findInRecord, Option.map_eq_none_iff, List.findIdx?_eq_none_iff] at h
    symm
    rw [Option.map_none, List.find?_eq_none]
    intro record hrecord
    have := h record hrecord
    simp only [decide_eq_false_iff_not] at this
    simp [this]
  | some found =>
    obtain ⟨index, record⟩ := found
    obtain ⟨front, back, rfl, -, hrecord, hfront⟩ := findInRecord_split h
    have huse : record.InUse := by rwa [MqttPubAckInfo.InUse, hrecord]
    have hnone : front.find? (fun r => decide (decide r.InUse = true ∧
        decide (r.packetId = packetId) = true)) = none := by
      rw [List.find?_eq_none]
      intro r hr
      simp [hfront r hr]
    rw [List.find?_append, hnone, Option.none_or, List.find?_cons_of_pos (by simp [huse, hrecord])]
    rfl

def UniqueIds (records : List MqttPubAckInfo) : Prop := (records.map (·.packetId)).Nodup

theorem setRecordState_of_forall {records : List MqttPubAckInfo} {packetId : UInt16}
    (h : ∀ record ∈ records, record.packetId ≠ packetId) (newState : MqttPublishState) :
    setRecordState records packetId newState = records := by
  rw [setRecordState]
  conv_rhs => rw [← List.map_id records]
  exact List.map_congr_left fun record hrecord => if_neg (h record hrecord)

theorem eraseRecord_of_forall {records : List MqttPubAckInfo} {packetId : UInt16}
    (h : ∀ record ∈ records, record.packetId ≠ packetId) :
    eraseRecord records packetId = records :=
  List.filter_eq_self.2 fun record hrecord => by simpa using h record hrecord

theorem UniqueIds.split {front back : List MqttPubAckInfo} {record : MqttPubAckInfo}
    (h : UniqueIds (front ++ record :: back)) :
    (∀ r ∈ front, r.packetId ≠ record.packetId) ∧ ∀ r ∈ back, r.packetId ≠ record.packetId := by
  rw [UniqueIds, List.map_append, List.map_cons, List.nodup_middle, List.nodup_cons] at h
  constructor <;> intro r hr heq <;> apply h.1 <;> rw [← heq, List.mem_append]
  · exact Or.inl (List.mem_map_of_mem hr)
  · exact Or.inr (List.mem_map_of_mem hr)

theorem modify_length_append {α : Type} (front back : List α) (a : α) (f : α → α) :
    (front ++ a :: back).modify front.length f = front ++ f a :: back := by
  induction front with
  | nil => rfl
  | cons b front ih => simp [ih]

section Found

variable {records : List MqttPubAckInfo} {packetId : UInt16} {index : Nat} {record : MqttPubAckInfo}

theorem live_split_found (hid : packetId ≠ packetIdInvalid) (hunique : UniqueIds (live records))
    (h : findInRecord records packetId = some (index, record)) :
    ∃ front back, records = front ++ record :: back ∧ front.length = index ∧
      record.packetId = packetId ∧ record.InUse ∧
      (∀ r ∈ live front, r.packetId ≠ packetId) ∧ ∀ r ∈ live back, r.packetId ≠ packetId := by
  obtain ⟨front, back, rfl, hlength, hrecord, -⟩ := findInRecord_split h
  have huse : record.InUse := by rwa [MqttPubAckInfo.InUse, hrecord]
  rw [live_append, live_cons, if_pos huse] at hunique
  obtain ⟨hfront, hback⟩ := hunique.split
  rw [hrecord] at hfront hback
  exact ⟨front, back, rfl, hlength, hrecord, huse, hfront, hback⟩

theorem live_updateRecord (hid : packetId ≠ packetIdInvalid) (hunique : UniqueIds (live records))
    (h : findInRecord records packetId = some (index, record)) (newState : MqttPublishState) :
    live (updateRecord records index newState false) =
      setRecordState (live records) packetId newState := by
  obtain ⟨front, back, rfl, rfl, hrecord, huse, hfront, hback⟩ := live_split_found hid hunique h
  have huse' : (⟨packetId, record.qos, newState⟩ : MqttPubAckInfo).InUse := hid
  have hfront' := setRecordState_of_forall hfront newState
  have hback' := setRecordState_of_forall hback newState
  rw [setRecordState] at hfront' hback'
  rw [updateRecord, setRecordState, modify_length_append]
  simp [live_cons, huse, huse', hrecord, hfront', hback']

theorem live_deleteRecord (hid : packetId ≠ packetIdInvalid) (hunique : UniqueIds (live records))
    (h : findInRecord records packetId = some (index, record)) (newState : MqttPublishState) :
    live (updateRecord records index newState true) = eraseRecord (live records) packetId := by
  obtain ⟨front, back, rfl, rfl, hrecord, huse, hfront, hback⟩ := live_split_found hid hunique h
  have hfree : ¬({ record with packetId := packetIdInvalid } : MqttPubAckInfo).InUse :=
    fun h => h rfl
  have hfront' := eraseRecord_of_forall hfront
  have hback' := eraseRecord_of_forall hback
  simp only [eraseRecord, ne_eq, decide_not] at hfront' hback'
  rw [updateRecord, eraseRecord, modify_length_append]
  simp [live_cons, huse, hfree, hrecord, hfront', hback']

@[simp] theorem length_updateRecord (records : List MqttPubAckInfo) (index : Nat)
    (newState : MqttPublishState) (shouldDelete : Bool) :
    (updateRecord records index newState shouldDelete).length = records.length := by
  simp [updateRecord]

end Found

end TuyaOpen.CoreMqtt
