import TuyaOpen.Mqtt.Publish

/-!
# A pass of the loop over the publishes

The loop of `tuya_mqtt_loop` with all that it does: the callbacks, the publishes that are tried,
and the list that it leaves. The handle of the loop points to the pointer to the entry at hand.
When that entry is removed, the pointer is to the entry after it, and the step of the loop then
moves the handle past this one, whether there is one or not: the entry after a removed one is never
looked at.
-/

namespace TuyaOpen.Mqtt

/-! ### The pass -/

/-- What a pass does with an entry: it calls its callback with `OPRT_TIMEOUT`, or it tries to
publish its message. -/
inductive PassAct
  | notify (entry : PublishHandle)
  | publish (entry : PublishHandle)

def attempt (entry : PublishHandle) : List PassAct :=
  if entry.msgid = 0 then [.publish entry] else []

/-- The loop of `tuya_mqtt_loop` over the list: its acts, and the list that is left. There is a
fault when the handle is moved past an entry that does not exist. -/
def passActs (posix : Nat) (send : Nat → UInt16) :
    List PublishHandle → Option (List PassAct × List PublishHandle)
  | [] => some ([], [])
  | [entry] =>
    if Expired posix entry then none else some (attempt entry, [resend send entry])
  | entry :: after :: rest =>
    if Expired posix entry then
      -- the handle points to the pointer to `after` and moves on
      (passActs posix send rest).map fun r => (.notify entry :: r.1, after :: r.2)
    else
      (passActs posix send (after :: rest)).map fun r =>
        (attempt entry ++ r.1, resend send entry :: r.2)

def PassAct.notifies : PassAct → Option PublishHandle
  | .notify entry => some entry
  | .publish _ => none

def PassAct.publishes : PassAct → Option PublishHandle
  | .notify _ => none
  | .publish entry => some entry

def notified (acts : List PassAct) : List PublishHandle := acts.filterMap PassAct.notifies

def attempted (acts : List PassAct) : List PublishHandle := acts.filterMap PassAct.publishes

/-- `tuya_mqtt_loop`, with its acts. -/
def mqttLoopActs (context : MqttContext) (boot now : Nat) (connects : Bool) (send : Nat → UInt16) :
    Option (List PassAct × MqttContext) :=
  if context.isInited = false ∨ context.manualDisconnect = true then some ([], context)
  else if context.isConnected = false then some ([], { context with isConnected := connects })
  else
    (passActs (posixAt boot now) send context.publishList).map fun r =>
      (r.1, { context with publishList := r.2 })

def connectedContext (l : List PublishHandle) (accepted : Nat) : MqttContext :=
  ⟨true, false, true, l, accepted⟩

/-- A pass over the list of a connected context leaves no list node behind, calls the callback of
each expired entry once, tries to publish every other entry without message id, and keeps the others
in order. -/
def ProcessesAll (boot now accepted : Nat) (connects : Bool) (send : Nat → UInt16)
    (l : List PublishHandle) : Prop :=
  let posix := posixAt boot now
  ∃ acts, mqttLoopActs (connectedContext l accepted) boot now connects send =
      some (acts, connectedContext
        ((l.filter fun entry => ¬Expired posix entry).map (resend send)) accepted) ∧
    notified acts = (l.filter fun entry => Expired posix entry) ∧
    attempted acts = l.filter fun entry => ¬Expired posix entry ∧ entry.msgid = 0

/-- After an expired entry comes one that is not expired and has a message id. -/
def PassSafe (posix : Nat) : List PublishHandle → Prop
  | [] => True
  | [entry] => ¬Expired posix entry
  | entry :: after :: rest =>
    (Expired posix entry → ¬Expired posix after ∧ after.msgid ≠ 0) ∧ PassSafe posix (after :: rest)

/-! ### The acts of a pass -/

variable {posix : Nat} {send : Nat → UInt16} {l l' : List PublishHandle}
  {acts : List PassAct} {entry after : PublishHandle}

@[simp]
theorem notified_notify_cons (entry : PublishHandle) (acts : List PassAct) :
    notified (.notify entry :: acts) = entry :: notified acts := rfl

@[simp]
theorem attempted_notify_cons (entry : PublishHandle) (acts : List PassAct) :
    attempted (.notify entry :: acts) = attempted acts := rfl

@[simp]
theorem notified_attempt_append (entry : PublishHandle) (acts : List PassAct) :
    notified (attempt entry ++ acts) = notified acts := by
  rw [attempt]
  split <;> rfl

@[simp]
theorem attempted_attempt_append (entry : PublishHandle) (acts : List PassAct) :
    attempted (attempt entry ++ acts) =
      if entry.msgid = 0 then entry :: attempted acts else attempted acts := by
  rw [attempt]
  split <;> rfl

@[simp]
theorem notified_attempt (entry : PublishHandle) : notified (attempt entry) = [] := by
  rw [attempt]
  split <;> rfl

@[simp]
theorem attempted_attempt (entry : PublishHandle) :
    attempted (attempt entry) = if entry.msgid = 0 then [entry] else [] := by
  rw [attempt]
  split <;> rfl

theorem resend_of_msgid_ne_zero (send : Nat → UInt16) (h : entry.msgid ≠ 0) :
    resend send entry = entry := if_neg h

theorem passList_eq (posix : Nat) (send : Nat → UInt16) (l : List PublishHandle) :
    passList posix send l = (passActs posix send l).map fun r =>
      ((notified r.1).map fun entry => (entry.no, oprtTimeout), r.2) := by
  induction l using PassCond.induct posix with
  | case1 => rfl
  | case2 entry =>
    rw [passList, passActs]
    by_cases hexpired : Expired posix entry
    · rw [if_pos hexpired, if_pos hexpired, Option.map_none]
    · rw [if_neg hexpired, if_neg hexpired, Option.map_some, notified_attempt, List.map_nil]
  | case3 entry after rest hexpired ih =>
    rw [passList, passActs, if_pos hexpired, if_pos hexpired, ih]
    cases passActs posix send rest with
    | none => rfl
    | some r => rfl
  | case4 entry after rest hexpired ih =>
    rw [passList, passActs, if_neg hexpired, if_neg hexpired, ih]
    cases passActs posix send (after :: rest) with
    | none => rfl
    | some r => simp

theorem mqttLoopActs_eq (context : MqttContext) (boot now : Nat) (connects : Bool)
    (send : Nat → UInt16) :
    tuyaMqttLoop context boot now connects send =
      (mqttLoopActs context boot now connects send).map fun r =>
        ((notified r.1).map fun entry => (entry.no, oprtTimeout), r.2) := by
  rw [tuyaMqttLoop, mqttLoopActs]
  split
  · rfl
  split
  · rfl
  rw [passList_eq]
  cases passActs (posixAt boot now) send context.publishList with
  | none => rfl
  | some r => rfl

/-! ### When the pass does what it should -/

theorem passSafe_cons_of_not_expired (h : ¬Expired posix entry) (l : List PublishHandle) :
    PassSafe posix (entry :: l) ↔ PassSafe posix l := by
  cases l with
  | nil => simp [PassSafe, h]
  | cons after rest => simp [PassSafe, h]

theorem passActs_of_passSafe (send : Nat → UInt16) (h : PassSafe posix l) :
    ∃ acts, passActs posix send l =
        some (acts, (l.filter fun entry => ¬Expired posix entry).map (resend send)) ∧
      notified acts = (l.filter fun entry => Expired posix entry) ∧
      attempted acts = l.filter fun entry => ¬Expired posix entry ∧ entry.msgid = 0 := by
  induction l using PassCond.induct posix with
  | case1 => exact ⟨[], rfl, rfl, rfl⟩
  | case2 entry =>
    have hexpired : ¬Expired posix entry := h
    refine ⟨attempt entry, ?_, ?_, ?_⟩
    · simp [passActs, hexpired]
    · simp [hexpired]
    · by_cases hid : entry.msgid = 0
      · simp [hexpired, hid]
      · simp [hid]
  | case3 entry after rest hexpired ih =>
    obtain ⟨hafter, hsafe⟩ := h
    obtain ⟨hkept, hid⟩ := hafter hexpired
    obtain ⟨acts, hacts, hnotified, hattempted⟩ :=
      ih ((passSafe_cons_of_not_expired hkept rest).1 hsafe)
    refine ⟨.notify entry :: acts, ?_, ?_, ?_⟩
    · simp [passActs, hexpired, hacts, hkept, resend_of_msgid_ne_zero send hid]
    · simp [hnotified, hexpired, hkept]
    · simp [hattempted, hexpired, hkept, hid]
  | case4 entry after rest hexpired ih =>
    obtain ⟨acts, hacts, hnotified, hattempted⟩ :=
      ih ((passSafe_cons_of_not_expired hexpired (after :: rest)).1 h)
    refine ⟨attempt entry ++ acts, ?_, ?_, ?_⟩
    · rw [passActs, if_neg hexpired, hacts, List.filter_cons_of_pos (a := entry) (by simpa)]
      rfl
    · rw [notified_attempt_append, hnotified, List.filter_cons_of_neg (a := entry) (by simpa)]
    · rw [attempted_attempt_append, hattempted, List.filter_cons (x := entry)]
      simp [hexpired]

theorem exists_passActs_of_expired {rest : List PublishHandle} (hexpired : Expired posix entry)
    (h : passActs posix send (entry :: after :: rest) = some (acts, l')) :
    ∃ acts' l₂, passActs posix send rest = some (acts', l₂) ∧ acts = .notify entry :: acts' := by
  rw [passActs, if_pos hexpired, Option.map_eq_some_iff] at h
  obtain ⟨⟨acts', l₂⟩, hrest, heq⟩ := h
  exact ⟨acts', l₂, hrest, (congrArg Prod.fst heq).symm⟩

theorem exists_passActs_of_not_expired {rest : List PublishHandle}
    (hexpired : ¬Expired posix entry)
    (h : passActs posix send (entry :: after :: rest) = some (acts, l')) :
    ∃ acts' l₂, passActs posix send (after :: rest) = some (acts', l₂) ∧
      acts = attempt entry ++ acts' := by
  rw [passActs, if_neg hexpired, Option.map_eq_some_iff] at h
  obtain ⟨⟨acts', l₂⟩, hrest, heq⟩ := h
  exact ⟨acts', l₂, hrest, (congrArg Prod.fst heq).symm⟩

theorem length_le_of_passActs (h : passActs posix send l = some (acts, l')) :
    (notified acts).length ≤ (l.filter fun entry => Expired posix entry).length ∧
      (attempted acts).length ≤
        (l.filter fun entry => ¬Expired posix entry ∧ entry.msgid = 0).length := by
  induction l using PassCond.induct posix generalizing acts l' with
  | case1 =>
    obtain ⟨rfl, -⟩ := Prod.mk.inj (Option.some.inj h)
    exact ⟨le_refl _, le_refl _⟩
  | case2 entry =>
    rw [passActs] at h
    split at h
    · cases h
    · rename_i hexpired
      obtain ⟨rfl, -⟩ := Prod.mk.inj (Option.some.inj h)
      rw [notified_attempt, attempted_attempt]
      by_cases hid : entry.msgid = 0
      · simp [hexpired, hid]
      · simp [hid]
  | case3 entry after rest hexpired ih =>
    obtain ⟨acts', l₂, hrest, rfl⟩ := exists_passActs_of_expired hexpired h
    obtain ⟨hnotified, hattempted⟩ := ih hrest
    have hsub : rest.Sublist (after :: rest) := List.sublist_cons_self after rest
    constructor
    · rw [notified_notify_cons, List.filter_cons_of_pos (by simpa using hexpired)]
      exact Nat.succ_le_succ (hnotified.trans (hsub.filter _).length_le)
    · rw [attempted_notify_cons, List.filter_cons_of_neg (by simp [hexpired])]
      exact hattempted.trans (hsub.filter _).length_le
  | case4 entry after rest hexpired ih =>
    obtain ⟨acts', l₂, hrest, rfl⟩ := exists_passActs_of_not_expired hexpired h
    obtain ⟨hnotified, hattempted⟩ := ih hrest
    constructor
    · rw [notified_attempt_append, List.filter_cons_of_neg (by simpa using hexpired)]
      exact hnotified
    · rw [attempted_attempt_append, List.filter_cons]
      by_cases hid : entry.msgid = 0
      · simpa [hexpired, hid] using hattempted
      · simpa [hexpired, hid] using hattempted

theorem passSafe_of_length (h : passActs posix send l = some (acts, l'))
    (hnotified : (notified acts).length = (l.filter fun entry => Expired posix entry).length)
    (hattempted : (attempted acts).length =
      (l.filter fun entry => ¬Expired posix entry ∧ entry.msgid = 0).length) :
    PassSafe posix l := by
  induction l using PassCond.induct posix generalizing acts l' with
  | case1 => exact trivial
  | case2 entry =>
    rw [passActs] at h
    split at h
    · cases h
    · rename_i hexpired
      exact hexpired
  | case3 entry after rest hexpired ih =>
    obtain ⟨acts', l₂, hrest, rfl⟩ := exists_passActs_of_expired hexpired h
    obtain ⟨hle, hle'⟩ := length_le_of_passActs hrest
    rw [notified_notify_cons, List.filter_cons_of_pos (by simpa using hexpired), List.length_cons,
      List.length_cons, Nat.succ_inj] at hnotified
    rw [attempted_notify_cons, List.filter_cons_of_neg (by simp [hexpired])] at hattempted
    -- the entry after the expired one counts for nothing
    have hkept : ¬Expired posix after := by
      intro hafter
      rw [List.filter_cons_of_pos (by simpa using hafter), List.length_cons] at hnotified
      omega
    have hid : after.msgid ≠ 0 := by
      intro hzero
      rw [List.filter_cons_of_pos (by simp [hkept, hzero]), List.length_cons] at hattempted
      omega
    rw [List.filter_cons_of_neg (by simpa using hkept)] at hnotified
    rw [List.filter_cons_of_neg (by simp [hid])] at hattempted
    exact ⟨fun _ => ⟨hkept, hid⟩,
      (passSafe_cons_of_not_expired hkept rest).2 (ih hrest hnotified hattempted)⟩
  | case4 entry after rest hexpired ih =>
    obtain ⟨acts', l₂, hrest, rfl⟩ := exists_passActs_of_not_expired hexpired h
    rw [notified_attempt_append, List.filter_cons_of_neg (by simpa using hexpired)] at hnotified
    rw [attempted_attempt_append, List.filter_cons] at hattempted
    refine (passSafe_cons_of_not_expired hexpired _).2 (ih hrest hnotified ?_)
    by_cases hid : entry.msgid = 0
    · simpa [hexpired, hid] using hattempted
    · simpa [hexpired, hid] using hattempted

theorem mqttLoopActs_connectedContext (boot now accepted : Nat) (connects : Bool)
    (send : Nat → UInt16) (l : List PublishHandle) :
    mqttLoopActs (connectedContext l accepted) boot now connects send =
      (passActs (posixAt boot now) send l).map fun r =>
        (r.1, connectedContext r.2 accepted) := rfl

/-- A pass of the loop does what it should if and only if after every expired entry comes one that
is not expired and has a message id. -/
theorem processesAll_iff (boot now accepted : Nat) (connects : Bool) (send : Nat → UInt16)
    (l : List PublishHandle) :
    ProcessesAll boot now accepted connects send l ↔ PassSafe (posixAt boot now) l := by
  rw [ProcessesAll, mqttLoopActs_connectedContext]
  constructor
  · rintro ⟨acts, hacts, hnotified, hattempted⟩
    obtain ⟨⟨acts', l'⟩, hpass, heq⟩ := Option.map_eq_some_iff.1 hacts
    obtain ⟨rfl, -⟩ := Prod.mk.inj heq
    exact passSafe_of_length hpass (congrArg List.length hnotified)
      (congrArg List.length hattempted)
  · intro hsafe
    obtain ⟨acts, hacts, hnotified, hattempted⟩ := passActs_of_passSafe send hsafe
    exact ⟨acts, by rw [hacts, Option.map_some], hnotified, hattempted⟩

/-- A list whose only entry is expired: the loop moves on from a pointer to nothing. -/
theorem not_processesAll_expired :
    ¬ProcessesAll 100 0 1 true (fun _ => 7) [⟨3, 60, [97], [98], 0, 60⟩] := by
  rintro ⟨acts, hacts, -⟩
  have hexpired : Expired (posixAt 100 0) ⟨3, 60, [97], [98], 0, 60⟩ := by
    rw [Expired, posixAt, u32]
    decide
  rw [mqttLoopActs_connectedContext, passActs, if_pos hexpired, Option.map_none] at hacts
  cases hacts

end TuyaOpen.Mqtt
