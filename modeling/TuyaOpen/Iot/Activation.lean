import TuyaOpen.Iot.Reset

/-!
# Activation

`STATE_DATA_LOAD` allocates the binding and subscribes to the token. The event copies the token to
the binding and posts the semaphore, `STATE_TOKEN_PENDING` waits for it and reads the token, and
`STATE_ACTIVATING` passes the token on and frees the binding. A reset makes the wait fail, which
frees the binding as well.

The binding is abandoned if the request for the activation fails, or if a reset comes between the
wait and the end of the activation. After a wait that has failed the subscription is still there.
A second reset leaves a count of the semaphore behind, which ends the next wait.
-/

namespace TuyaOpen.Iot

/-- `binding` is the block that the last `STATE_DATA_LOAD` has allocated, and it has not been
freed. -/
def Client.Live (s : Client) : Prop := s.binding = some s.allocated ∧ s.allocated ∉ s.freed

instance (s : Client) : Decidable s.Live :=
  inferInstanceAs (Decidable (s.binding = some s.allocated ∧ s.allocated ∉ s.freed))

/-- The states of an activated device, from `STATE_STARTUP_UPDATE` to `STATE_MQTT_YIELD`. -/
def RunState.inService : RunState → Bool
  | .startupUpdate => true
  | .mqttConnectStart => true
  | .mqttConnecting => true
  | .mqttReconnect => true
  | .mqttYield => true
  | _ => false

/-- `binding` points to a block that has not been freed. -/
def Client.holdsBlock (s : Client) : Bool := s.binding.any fun b => b ∉ s.freed

/-- The steps of the activation: of `tuya_iot_yield`, of the event with the token and of
`tuya_iot_reset`. -/
def ClientEvent.ofActivation : ClientEvent → Bool
  | .yield _ => true
  | .reset => true
  | .resetCheck => true
  | .resetResult => true
  | .resetPost => true
  | .token => true
  | .tokenResult => true
  | .tokenPost => true
  | .tokenRemove => true
  | _ => false

def Client.usesBinding (s : Client) : ClientEvent → Bool
  | .token => s.copies
  | .yield _ => s.pc = .tokenRead || (s.pc = .handler && s.state = .activating)
  | _ => false

def Client.allocates (s : Client) : ClientEvent → Bool
  | .yield _ => s.pc = .handler && s.state = .dataLoad && !s.isActivated
  | _ => false

def Sound (s : Client) (ev : ClientEvent) : Prop :=
  (s.usesBinding ev = true → s.Live) ∧ (s.allocates ev = true → s.holdsBlock = false) ∧
    (s.pc ≠ .outside → s.state.inService = true → s.isActivated = true ∧ s.schema = .created)

def Requested (s : Client) (r : Results) : Prop :=
  s.pc = .handler → s.state = .activating → r.request = true

def Unbound (s : Client) : Prop := s.pc = .outside → s.nextstate = .reset → s.binding = none

/-- A wait fails for a reset that has been requested, and succeeds for a token that has been
delivered since the subscription: not through a count that was left. -/
def Current (s : Client) : Prop :=
  s.pc = .tokenResult → if s.result then s.delivered = true else s.nextstate = .reset

/-- The steps after which the binding and the schema are sound. No token comes between a wait that
has failed and the next allocation. -/
def Orderly (s : Client) : ClientEvent → Prop
  | .yield r => Requested s r ∧ Unbound s ∧ Current s
  | .token => s.copies = true → s.waitFailed = false
  | _ => True

instance (s : Client) (ev : ClientEvent) : Decidable (Sound s ev) :=
  inferInstanceAs (Decidable ((s.usesBinding ev = true → s.Live) ∧
    (s.allocates ev = true → s.holdsBlock = false) ∧
      (s.pc ≠ .outside → s.state.inService = true → s.isActivated = true ∧ s.schema = .created)))

instance (s : Client) (r : Results) : Decidable (Requested s r) :=
  inferInstanceAs (Decidable (s.pc = .handler → s.state = .activating → r.request = true))

instance (s : Client) : Decidable (Unbound s) :=
  inferInstanceAs (Decidable (s.pc = .outside → s.nextstate = .reset → s.binding = none))

instance (s : Client) : Decidable (Current s) :=
  inferInstanceAs (Decidable (s.pc = .tokenResult →
    if s.result then s.delivered = true else s.nextstate = .reset))

instance (s : Client) : (ev : ClientEvent) → Decidable (Orderly s ev)
  | .yield r => inferInstanceAs (Decidable (Requested s r ∧ Unbound s ∧ Current s))
  | .token => inferInstanceAs (Decidable (s.copies = true → s.waitFailed = false))
  | .reset | .resetCheck | .resetResult | .resetPost | .resetCmd | .unbind | .reconnect
  | .linkTypeChange | .reconnectWrite | .tokenResult | .tokenPost | .tokenRemove | .start
  | .stop => isTrue trivial

/-! ### The invariant -/

namespace Client

def Bound (s : Client) : Prop := s.Live ∧ s.isActivated = false

def Active (s : Client) : Prop := s.isActivated = true ∧ s.binding = none

def Fits (s : Client) : RunState → Prop
  | .reset => True
  | .tokenPending => s.Bound
  | .networkCheck => s.Active ∨ (s.Bound ∧ s.copies = false)
  | .endpointUpdate => s.Active ∨ (s.Bound ∧ s.copies = false)
  | .activating => s.Bound ∧ s.copies = false
  | .endpointGet => s.Active
  | .networkReconnect => s.Active
  | .startupUpdate => s.Active
  | .mqttConnectStart => s.Active
  | .mqttConnecting => s.Active
  | .mqttReconnect => s.Active
  | .mqttYield => s.Active
  | _ => s.binding = none

/-- Until its write, a handler sees its own state or a request in `nextstate`. -/
def Unwritten (s : Client) (state : RunState) : Prop :=
  s.nextstate = state ∨ s.nextstate = .reset

/-- What holds at a point of `tuya_iot_yield`. -/
def At (s : Client) : Pc → Prop
  | .outside => s.Fits s.nextstate
  | .startSubscribe => s.Fits s.nextstate
  | .handler => s.Fits s.state ∧ s.Unwritten s.state ∧ (s.state = .reset → s.binding = none)
  | .assign next => s.Fits next
  | .dataLoadSubscribe => s.Bound
  | .tokenWait => s.Bound ∧ s.Unwritten .tokenPending
  | .tokenResult => s.Bound ∧ s.Unwritten .tokenPending
  | .tokenFree => s.Bound ∧ s.waitFailed = true ∧ s.nextstate = .reset
  | .tokenNull => s.isActivated = false ∧ s.waitFailed = true ∧ s.nextstate = .reset
  | .tokenRead => s.Bound ∧ s.copies = false
  | .activatingParse => s.Bound ∧ s.copies = false ∧ s.Unwritten .activating
  | .activatingFree => s.Bound ∧ s.copies = false
  | .activatingNull => s.isActivated = false ∧ s.copies = false
  | .activatingRead => s.isActivated = false ∧ s.binding = none
  | .activatingActivate => s.schema = .created ∧ s.binding = none
  | .resetDelete => s.state = .reset ∧ s.binding = none
  | .resetDeactivate => s.state = .reset ∧ s.binding = none

/-- What holds in every state of an orderly run. -/
structure Inv (s : Client) : Prop where
  freed_le : ∀ b ∈ s.freed, b ≤ s.allocated
  live : s.copies = true → s.waitFailed = false → s.Live
  delivered : s.delivered = true → s.copies = false
  schema : s.isActivated = true → s.pc ≠ .resetDeactivate → s.schema = .created
  service : s.state.inService = true → s.isActivated = true
  at_pc : s.At s.pc

end Client

/-! ### The other parties -/

section Others

variable {s s' : Client}

/-- What the steps that do not change the binding leave alone. -/
structure Client.SameBinding (s s' : Client) : Prop where
  isActivated : s'.isActivated = s.isActivated
  schema : s'.schema = s.schema
  binding : s'.binding = s.binding
  allocated : s'.allocated = s.allocated
  freed : s'.freed = s.freed
  waitFailed : s'.waitFailed = s.waitFailed
  copies : s.copies = false → s'.copies = false

/-- The binding is left alone and no handler is started. -/
structure Client.SameHandler (s s' : Client) : Prop extends s.SameBinding s' where
  state : s'.state = s.state
  nextstate : s'.nextstate = s.nextstate ∨ s'.nextstate = .reset

theorem Client.SameBinding.live (h : s.SameBinding s') : s'.Live ↔ s.Live := by
  rw [Client.Live, Client.Live, h.binding, h.allocated, h.freed]

theorem Client.SameBinding.bound (h : s.SameBinding s') : s'.Bound ↔ s.Bound := by
  rw [Client.Bound, Client.Bound, h.live, h.isActivated]

theorem Client.SameBinding.active (h : s.SameBinding s') : s'.Active ↔ s.Active := by
  rw [Client.Active, Client.Active, h.binding, h.isActivated]

theorem Client.SameBinding.fits (h : s.SameBinding s') {state : RunState} (hfits : s.Fits state) :
    s'.Fits state := by
  have hcopies (hs : s.Bound ∧ s.copies = false) : s'.Bound ∧ s'.copies = false :=
    ⟨h.bound.2 hs.1, h.copies hs.2⟩
  cases state with
  | networkCheck => exact hfits.imp h.active.2 hcopies
  | endpointUpdate => exact hfits.imp h.active.2 hcopies
  | activating => exact hcopies hfits
  | reset => trivial
  | _ => simpa only [Client.Fits, h.bound, h.active, h.binding] using hfits

theorem Client.SameHandler.unwritten (h : s.SameHandler s') {state : RunState}
    (hs : s.Unwritten state) : s'.Unwritten state := by
  rcases h.nextstate with hsame | hreset
  · rwa [Client.Unwritten, hsame]
  · exact .inr hreset

theorem Client.SameHandler.fits_nextstate (h : s.SameHandler s') (hfits : s.Fits s.nextstate) :
    s'.Fits s'.nextstate := by
  rcases h.nextstate with hsame | hreset
  · rw [hsame]
    exact h.fits hfits
  · rw [hreset]
    trivial

theorem Client.SameHandler.nextstate_eq (h : s.SameHandler s') (hs : s.nextstate = .reset) :
    s'.nextstate = .reset :=
  h.nextstate.elim (fun hsame => hsame.trans hs) id

theorem Client.SameHandler.at_pc (h : s.SameHandler s') {pc : Pc} (hat : s.At pc) : s'.At pc := by
  cases pc with
  | outside => exact h.fits_nextstate hat
  | startSubscribe => exact h.fits_nextstate hat
  | handler =>
    refine ⟨?_, ?_, ?_⟩
    · rw [h.state]
      exact h.fits hat.1
    · rw [h.state]
      exact h.unwritten hat.2.1
    · rw [h.state, h.binding]
      exact hat.2.2
  | assign next => exact h.fits hat
  | dataLoadSubscribe => exact h.bound.2 hat
  | tokenWait => exact ⟨h.bound.2 hat.1, h.unwritten hat.2⟩
  | tokenResult => exact ⟨h.bound.2 hat.1, h.unwritten hat.2⟩
  | tokenFree => exact ⟨h.bound.2 hat.1, h.waitFailed.trans hat.2.1, h.nextstate_eq hat.2.2⟩
  | tokenNull =>
    exact ⟨h.isActivated.trans hat.1, h.waitFailed.trans hat.2.1, h.nextstate_eq hat.2.2⟩
  | tokenRead => exact ⟨h.bound.2 hat.1, h.copies hat.2⟩
  | activatingParse => exact ⟨h.bound.2 hat.1, h.copies hat.2.1, h.unwritten hat.2.2⟩
  | activatingFree => exact ⟨h.bound.2 hat.1, h.copies hat.2⟩
  | activatingNull => exact ⟨h.isActivated.trans hat.1, h.copies hat.2⟩
  | activatingRead => exact ⟨h.isActivated.trans hat.1, h.binding.trans hat.2⟩
  | activatingActivate => exact ⟨h.schema.trans hat.1, h.binding.trans hat.2⟩
  | resetDelete => exact ⟨h.state.trans hat.1, h.binding.trans hat.2⟩
  | resetDeactivate => exact ⟨h.state.trans hat.1, h.binding.trans hat.2⟩

theorem Client.Inv.of_sameBinding (h : s.Inv) (hsame : s.SameBinding s')
    (hdelivered : s'.delivered = true → s'.copies = false)
    (hpc : s.pc = .resetDeactivate → s'.pc = .resetDeactivate)
    (hservice : s'.state.inService = true → s.isActivated = true) (hat : s'.At s'.pc) : s'.Inv where
  freed_le := by
    rw [hsame.freed, hsame.allocated]
    exact h.freed_le
  live hcopies hwait := by
    have hcopies' : s.copies = true := by
      by_contra hnot
      rw [hsame.copies (Bool.eq_false_of_not_eq_true hnot)] at hcopies
      exact Bool.false_ne_true hcopies
    rw [hsame.waitFailed] at hwait
    exact hsame.live.2 (h.live hcopies' hwait)
  delivered := hdelivered
  schema hactivated hne := by
    rw [hsame.isActivated] at hactivated
    rw [hsame.schema]
    exact h.schema hactivated fun h => hne (hpc h)
  service := by
    rw [hsame.isActivated]
    exact hservice
  at_pc := hat

theorem Client.Inv.of_sameHandler (h : s.Inv) (hsame : s.SameHandler s')
    (hdelivered : s'.delivered = true → s'.copies = false)
    (hpc : s.pc = .resetDeactivate → s'.pc = .resetDeactivate) (hat : s.At s'.pc) : s'.Inv := by
  refine h.of_sameBinding hsame.toSameBinding hdelivered hpc ?_ (hsame.at_pc hat)
  rw [hsame.state]
  exact h.service

theorem Client.Inv.of_frame (h : s.Inv) (hsame : s.SameHandler s') (hpc : s'.pc = s.pc)
    (hcopies : s'.copies = s.copies) (hdelivered : s'.delivered = s.delivered) : s'.Inv := by
  refine h.of_sameHandler hsame ?_ hpc.trans ?_
  · rw [hcopies, hdelivered]
    exact h.delivered
  · rw [hpc]
    exact h.at_pc

/-- **Step lemma.** The steps of the event with the token. -/
theorem Client.Inv.token (h : s.Inv) : (clientStep s .token).Inv := by
  rw [clientStep]
  split_ifs with hcopies
  · have hnone : ({ s with dispatch := .result, delivered := true } : Client).copies = false :=
      Bool.and_false _
    have hsame : s.SameHandler { s with dispatch := .result, delivered := true } :=
      ⟨⟨rfl, rfl, rfl, rfl, rfl, rfl, fun _ => hnone⟩, rfl, .inl rfl⟩
    exact h.of_sameHandler hsame (fun _ => hnone) id h.at_pc
  · exact h

theorem Client.Inv.tokenResult (h : s.Inv) : (clientStep s .tokenResult).Inv := by
  rw [clientStep]
  split_ifs with hdispatch
  · have hcopies : ({ s with result := true, dispatch := .post } : Client).copies = s.copies := by
      rw [Client.copies, Client.copies, hdispatch]
      rfl
    exact h.of_frame ⟨⟨rfl, rfl, rfl, rfl, rfl, rfl, hcopies.trans⟩, rfl, .inl rfl⟩ rfl hcopies rfl
  · exact h

theorem Client.Inv.tokenPost (h : s.Inv) : (clientStep s .tokenPost).Inv := by
  rw [clientStep]
  split_ifs with hdispatch
  · have hcopies : ({ s with sem := true, dispatch := .remove } : Client).copies = s.copies := by
      rw [Client.copies, Client.copies, hdispatch]
      rfl
    exact h.of_frame ⟨⟨rfl, rfl, rfl, rfl, rfl, rfl, hcopies.trans⟩, rfl, .inl rfl⟩ rfl hcopies rfl
  · exact h

theorem Client.Inv.tokenRemove (h : s.Inv) : (clientStep s .tokenRemove).Inv := by
  rw [clientStep]
  split_ifs with hdispatch
  · have hcopies : ({ s with subscribed := false, dispatch := .none } : Client).copies =
        s.copies := by
      rw [Client.copies, Client.copies, hdispatch]
      exact (Bool.and_false _).symm
    exact h.of_frame ⟨⟨rfl, rfl, rfl, rfl, rfl, rfl, hcopies.trans⟩, rfl, .inl rfl⟩ rfl hcopies rfl
  · exact h

/-- **Step lemma.** The steps of `tuya_iot_reset`. -/
theorem Client.Inv.reset (h : s.Inv) :
    (clientStep s .reset).Inv ∧ (clientStep s .resetCheck).Inv ∧
      (clientStep s .resetResult).Inv ∧ (clientStep s .resetPost).Inv := by
  refine ⟨?_, ?_, ?_, ?_⟩
  · exact h.of_frame ⟨⟨rfl, rfl, rfl, rfl, rfl, rfl, id⟩, rfl, .inr rfl⟩ rfl rfl rfl
  all_goals
    rw [clientStep]
    split_ifs
  all_goals first
    | exact h
    | exact h.of_frame ⟨⟨rfl, rfl, rfl, rfl, rfl, rfl, id⟩, rfl, .inl rfl⟩ rfl rfl rfl

end Others

/-! ### The handlers -/

section Handlers

variable {s s' : Client} {r : Results}

theorem Client.Inv.of_pc (h : s.Inv) (pc : Pc) (hpc : s.pc ≠ .resetDeactivate) (hat : s.At pc) :
    ({ s with pc := pc } : Client).Inv :=
  h.of_sameHandler ⟨⟨rfl, rfl, rfl, rfl, rfl, rfl, id⟩, rfl, .inl rfl⟩ h.delivered
    (fun h => absurd h hpc) hat

theorem Client.fits_nextstate_of_unwritten {state : RunState} (hfits : s.Fits state)
    (h : s.Unwritten state) : s.Fits s.nextstate := by
  rcases h with hsame | hreset
  · rwa [hsame]
  · rw [hreset]
    trivial

theorem Client.Inv.alloc (h : s.Inv) (hactivated : s.isActivated = false) :
    ({ s.alloc with pc := .dataLoadSubscribe } : Client).Inv := by
  have hlive : s.alloc.Live := by
    refine ⟨rfl, fun hmem => ?_⟩
    have hle := h.freed_le _ hmem
    exact absurd hle (Nat.not_succ_le_self _)
  exact {
    freed_le := fun b hb => (h.freed_le b hb).trans (Nat.le_succ _)
    live := fun _ _ => hlive
    delivered := h.delivered
    schema := fun hact => absurd (hactivated.symm.trans hact) Bool.false_ne_true
    service := h.service
    at_pc := ⟨hlive, hactivated⟩ }

/-- **Step lemma.** The start of a handler. -/
theorem Client.Inv.runHandler (h : s.Inv) (hpc : s.pc = .handler) (hrequest : Requested s r)
    {state : RunState} (hstate : s.state = state) : (Iot.runHandler r s state).Inv := by
  have hne : s.pc ≠ .resetDeactivate := by
    rw [hpc]
    exact Pc.noConfusion
  have hat : s.At .handler := hpc ▸ h.at_pc
  obtain ⟨hfits, hunwritten, hreset⟩ := hat
  have hdone : s.At .outside := Client.fits_nextstate_of_unwritten hfits hunwritten
  rw [hstate] at hfits hunwritten hreset
  cases state with
  | idle => exact h.of_pc .outside hne hdone
  | start =>
    rw [Iot.runHandler]
    refine h.of_pc _ hne ?_
    split_ifs with hactivated
    · exact .inl ⟨hactivated, hfits⟩
    · exact hfits
  | dataLoad =>
    rw [Iot.runHandler]
    split_ifs with hactivated hcalloc
    · exact h.of_pc (.assign .networkCheck) hne (.inl ⟨hactivated, hfits⟩)
    · exact h.alloc (Bool.eq_false_of_not_eq_true hactivated)
    · have hsame : ({ s with binding := none, pc := .outside } : Client) =
          { s with pc := .outside } := by
        congr 1
        exact hfits.symm
      rw [hsame]
      exact h.of_pc .outside hne hdone
  | endpointGet =>
    rw [Iot.runHandler]
    refine h.of_pc _ hne ?_
    split_ifs
    · exact hfits
    · exact .inl hfits
  | endpointUpdate =>
    rw [Iot.runHandler]
    split_ifs with hupdate hactivated
    · refine h.of_pc (.assign .startupUpdate) hne (hfits.resolve_right fun hbound => ?_)
      exact Bool.false_ne_true (hbound.1.2.symm.trans hactivated)
    · exact h.of_pc (.assign .activating) hne
        (hfits.resolve_left fun hactive => hactivated hactive.1)
    · exact h.of_pc .outside hne hdone
  | tokenPending => exact h.of_pc .tokenWait hne ⟨hfits, hunwritten⟩
  | activating =>
    rw [Iot.runHandler]
    rw [if_pos (hrequest hpc hstate)]
    exact h.of_pc .activatingParse hne ⟨hfits.1, hfits.2, hunwritten⟩
  | networkCheck =>
    rw [Iot.runHandler]
    split_ifs with hnetwork hactivated
    · refine h.of_pc (.assign .endpointGet) hne (hfits.resolve_right fun hbound => ?_)
      exact Bool.false_ne_true (hbound.1.2.symm.trans hactivated)
    · exact h.of_pc (.assign .endpointUpdate) hne hfits
    · exact h.of_pc .outside hne hdone
  | networkReconnect =>
    rw [Iot.runHandler]
    split_ifs
    · exact h.of_pc (.assign .mqttConnectStart) hne hfits
    · exact h.of_pc .outside hne hdone
  | startupUpdate => exact h.of_pc (.assign .mqttConnectStart) hne hfits
  | mqttConnectStart =>
    rw [Iot.runHandler]
    split_ifs
    · exact h.of_pc (.assign .mqttConnecting) hne hfits
    · exact h.of_pc .outside hne hdone
  | mqttConnecting =>
    rw [Iot.runHandler]
    split_ifs
    · exact h.of_pc (.assign .mqttYield) hne hfits
    · exact h.of_pc .outside hne hdone
  | mqttReconnect =>
    rw [Iot.runHandler]
    refine h.of_pc _ hne ?_
    split_ifs <;> exact hfits
  | mqttYield => exact h.of_pc .outside hne hdone
  | restart => exact h.of_pc (.assign .start) hne hfits
  | reset =>
    rw [Iot.runHandler]
    split_ifs
    · exact h.of_pc .resetDelete hne ⟨hstate, hreset rfl⟩
    · exact h.of_pc (.assign .restart) hne (hreset rfl)
  | stop => exact h.of_pc (.assign .idle) hne hfits
  | exit => exact h.of_pc .outside hne hdone

/-- **Step lemma.** `nextstate` becomes the state. -/
theorem Client.Inv.begin (h : s.Inv) (hpc : s.pc = .outside) (hunbound : Unbound s) :
    (tuyaIotYield r s).Inv := by
  have hat : s.Fits s.nextstate := by
    have := h.at_pc
    rwa [hpc] at this
  have hservice : s.nextstate.inService = true → s.isActivated = true := by
    intro hin
    cases hnext : s.nextstate
    all_goals rw [hnext] at hat hin
    all_goals first
      | exact hat.1
      | exact absurd hin Bool.false_ne_true
  have hne : s.pc ≠ .resetDeactivate := by
    rw [hpc]
    exact Pc.noConfusion
  have hsame : s.SameBinding { s with
      state := s.nextstate, pc := .handler, requested := false, serving := s.requested } :=
    ⟨rfl, rfl, rfl, rfl, rfl, rfl, id⟩
  rw [tuyaIotYield, hpc]
  exact h.of_sameBinding hsame h.delivered (fun h => absurd h hne) hservice
    ⟨hsame.fits hat, .inl rfl, hunbound hpc⟩

theorem Client.Inv.assign (h : s.Inv) {next : RunState} (hpc : s.pc = .assign next) :
    (tuyaIotYield r s).Inv := by
  have hat : s.Fits next := by
    have := h.at_pc
    rwa [hpc] at this
  have hsame (pc : Pc) : s.SameBinding { s with nextstate := next, pc := pc } :=
    ⟨rfl, rfl, rfl, rfl, rfl, rfl, id⟩
  rw [tuyaIotYield, hpc]
  dsimp only
  refine h.of_sameBinding (hsame _) h.delivered (fun h => ?_) h.service ?_
  · rw [hpc] at h
    exact Pc.noConfusion h
  · split_ifs
    · exact (hsame _).fits hat
    · exact (hsame _).fits hat

theorem Client.Inv.dataLoadSubscribe (h : s.Inv) (hpc : s.pc = .dataLoadSubscribe) :
    (tuyaIotYield r s).Inv := by
  have hat : s.Bound := by
    have := h.at_pc
    rwa [hpc] at this
  rw [tuyaIotYield, hpc]
  dsimp only
  split_ifs
  · exact {
      freed_le := h.freed_le
      live := fun _ _ => hat.1
      delivered := fun h => absurd h Bool.false_ne_true
      schema := fun hactivated => absurd (hat.2.symm.trans hactivated) Bool.false_ne_true
      service := h.service
      at_pc := hat }
  · exact h

theorem Client.Inv.tokenGetPending (h : s.Inv) (hpc : s.pc = .tokenResult) (hcurrent : Current s) :
    (tuyaIotYield r s).Inv := by
  have hat : s.Bound ∧ s.Unwritten .tokenPending := by
    have := h.at_pc
    rwa [hpc] at this
  have hcurrent := hcurrent hpc
  rw [tuyaIotYield, hpc]
  dsimp only
  split_ifs with hresult
  · rw [if_pos hresult] at hcurrent
    exact h.of_pc .tokenRead (by rw [hpc]; exact Pc.noConfusion) ⟨hat.1, h.delivered hcurrent⟩
  · rw [if_neg hresult] at hcurrent
    exact {
      freed_le := h.freed_le
      live := fun _ h => absurd h.symm Bool.false_ne_true
      delivered := h.delivered
      schema := fun hactivated => absurd (hat.1.2.symm.trans hactivated) Bool.false_ne_true
      service := h.service
      at_pc := ⟨hat.1, rfl, hcurrent⟩ }

theorem Client.freed_le_free (h : s.Inv) (hlive : s.Live) :
    ∀ b ∈ s.free.freed, b ≤ s.allocated := by
  intro b hb
  rw [Client.free, hlive.1] at hb
  rcases List.mem_cons.1 hb with rfl | hb
  · exact le_rfl
  · exact h.freed_le b hb

theorem Client.Inv.of_released (h : s.Inv) (hquiet : s.copies = true → s.waitFailed = true)
    (hfreed : ∀ b ∈ s'.freed, b ≤ s'.allocated) (hactivated : s'.isActivated = false)
    (hstate : s'.state.inService = true → s.state.inService = true)
    (hsame : s'.isActivated = s.isActivated) (hcopies : s'.copies = s.copies)
    (hwait : s'.waitFailed = s.waitFailed) (hdelivered : s'.delivered = s.delivered)
    (hat : s'.At s'.pc) : s'.Inv where
  freed_le := hfreed
  live hs hs' := by
    rw [hcopies] at hs
    rw [hwait, hquiet hs] at hs'
    exact absurd hs'.symm Bool.false_ne_true
  delivered := by
    rw [hdelivered, hcopies]
    exact h.delivered
  schema hs := absurd (hactivated.symm.trans hs) Bool.false_ne_true
  service hs := hsame.trans (h.service (hstate hs))
  at_pc := hat

theorem Client.Inv.tokenFree (h : s.Inv) (hpc : s.pc = .tokenFree) : (tuyaIotYield r s).Inv := by
  have hat := h.at_pc
  rw [hpc] at hat
  rw [tuyaIotYield, hpc]
  exact h.of_released (fun _ => hat.2.1) (Client.freed_le_free h hat.1.1) hat.1.2 id rfl rfl rfl rfl
    ⟨hat.1.2, hat.2⟩

theorem Client.Inv.tokenNull (h : s.Inv) (hpc : s.pc = .tokenNull) : (tuyaIotYield r s).Inv := by
  have hat := h.at_pc
  rw [hpc] at hat
  rw [tuyaIotYield, hpc]
  refine h.of_released (fun _ => hat.2.1) h.freed_le hat.1 id rfl rfl rfl rfl ?_
  dsimp only
  rw [Client.At, hat.2.2]
  trivial

theorem Client.Inv.activatingParse (h : s.Inv) (hpc : s.pc = .activatingParse) :
    (tuyaIotYield r s).Inv := by
  have hat := h.at_pc
  rw [hpc] at hat
  rw [tuyaIotYield, hpc]
  dsimp only
  split_ifs
  · exact h.of_sameHandler ⟨⟨rfl, rfl, rfl, rfl, rfl, rfl, id⟩, rfl, .inl rfl⟩ h.delivered
      (fun h => absurd (hpc.symm.trans h) Pc.noConfusion) ⟨hat.1, hat.2.1⟩
  · exact h.of_pc .outside (by rw [hpc]; exact Pc.noConfusion)
      (@Client.fits_nextstate_of_unwritten s .activating ⟨hat.1, hat.2.1⟩ hat.2.2)

theorem Client.Inv.activatingFree (h : s.Inv) (hpc : s.pc = .activatingFree) :
    (tuyaIotYield r s).Inv := by
  have hat := h.at_pc
  rw [hpc] at hat
  rw [tuyaIotYield, hpc]
  exact h.of_released (fun hs => absurd (hat.2.symm.trans hs) Bool.false_ne_true)
    (Client.freed_le_free h hat.1.1) hat.1.2 id rfl rfl rfl rfl ⟨hat.1.2, hat.2⟩

theorem Client.Inv.activatingNull (h : s.Inv) (hpc : s.pc = .activatingNull) :
    (tuyaIotYield r s).Inv := by
  have hat := h.at_pc
  rw [hpc] at hat
  rw [tuyaIotYield, hpc]
  exact h.of_released (fun hs => absurd (hat.2.symm.trans hs) Bool.false_ne_true) h.freed_le hat.1
    id rfl rfl rfl rfl ⟨hat.1, rfl⟩

theorem Client.Inv.of_schema (h : s.Inv) {isActivated stored : Bool} {schema : Schema} {pc : Pc}
    (hschema : isActivated = true → pc ≠ .resetDeactivate → schema = .created)
    (hservice : s.state.inService = true → isActivated = true)
    (hat : Client.At
      { s with isActivated := isActivated, stored := stored, schema := schema } pc) :
    Client.Inv
      { s with isActivated := isActivated, stored := stored, schema := schema, pc := pc } where
  freed_le := h.freed_le
  live := h.live
  delivered := h.delivered
  schema := hschema
  service := hservice
  at_pc := by
    have hsame : Client.SameHandler
        { s with isActivated := isActivated, stored := stored, schema := schema }
        { s with isActivated := isActivated, stored := stored, schema := schema, pc := pc } :=
      ⟨⟨rfl, rfl, rfl, rfl, rfl, rfl, id⟩, rfl, .inl rfl⟩
    exact hsame.at_pc hat

theorem Client.Inv.activatingRead (h : s.Inv) (hpc : s.pc = .activatingRead) :
    (tuyaIotYield r s).Inv := by
  have hat := h.at_pc
  rw [hpc] at hat
  rw [tuyaIotYield, hpc]
  dsimp only
  split_ifs
  · exact h.of_schema (fun _ _ => rfl) h.service ⟨rfl, hat.2⟩
  · exact h.of_schema (fun hs => absurd (hat.1.symm.trans hs) Bool.false_ne_true) h.service trivial
  · exact h.of_pc (.assign .reset) (by rw [hpc]; exact Pc.noConfusion) trivial

theorem Client.Inv.activatingActivate (h : s.Inv) (hpc : s.pc = .activatingActivate) :
    (tuyaIotYield r s).Inv := by
  have hat := h.at_pc
  rw [hpc] at hat
  rw [tuyaIotYield, hpc]
  exact h.of_schema (fun _ _ => hat.1) (fun _ => rfl) ⟨rfl, hat.2⟩

theorem Client.Inv.resetDelete (h : s.Inv) (hpc : s.pc = .resetDelete) :
    (tuyaIotYield r s).Inv := by
  have hat := h.at_pc
  rw [hpc] at hat
  rw [tuyaIotYield, hpc]
  exact h.of_schema (fun _ hne => absurd rfl hne) h.service hat

theorem Client.Inv.resetDeactivate (h : s.Inv) (hpc : s.pc = .resetDeactivate) :
    (tuyaIotYield r s).Inv := by
  have hat := h.at_pc
  rw [hpc] at hat
  rw [tuyaIotYield, hpc]
  refine h.of_schema (fun hs => absurd hs Bool.false_ne_true) (fun hin => ?_) hat.2
  rwa [hat.1] at hin

/-- **Step lemma.** The steps of `tuya_iot_yield`. -/
theorem Client.Inv.yield (h : s.Inv) (hcond : Orderly s (.yield r)) : (tuyaIotYield r s).Inv := by
  obtain ⟨hrequest, hunbound, hcurrent⟩ := hcond
  have hat := h.at_pc
  cases hpc : s.pc with
  | outside => exact h.begin hpc hunbound
  | handler =>
    rw [tuyaIotYield, hpc]
    exact h.runHandler hpc hrequest rfl
  | assign next => exact h.assign hpc
  | startSubscribe =>
    rw [hpc] at hat
    rw [tuyaIotYield, hpc]
    exact h.of_sameHandler ⟨⟨rfl, rfl, rfl, rfl, rfl, rfl, id⟩, rfl, .inl rfl⟩ h.delivered
      (fun h => absurd (hpc.symm.trans h) Pc.noConfusion) hat
  | dataLoadSubscribe => exact h.dataLoadSubscribe hpc
  | tokenWait =>
    rw [hpc] at hat
    rw [tuyaIotYield, hpc]
    dsimp only
    split_ifs
    · exact h.of_sameHandler ⟨⟨rfl, rfl, rfl, rfl, rfl, rfl, id⟩, rfl, .inl rfl⟩ h.delivered
        (fun h => absurd (hpc.symm.trans h) Pc.noConfusion) hat
    · exact h
  | tokenResult => exact h.tokenGetPending hpc hcurrent
  | tokenFree => exact h.tokenFree hpc
  | tokenNull => exact h.tokenNull hpc
  | tokenRead =>
    rw [hpc] at hat
    rw [tuyaIotYield, hpc]
    exact h.of_pc (.assign .networkCheck) (by rw [hpc]; exact Pc.noConfusion) (.inr hat)
  | activatingParse => exact h.activatingParse hpc
  | activatingFree => exact h.activatingFree hpc
  | activatingNull => exact h.activatingNull hpc
  | activatingRead => exact h.activatingRead hpc
  | activatingActivate => exact h.activatingActivate hpc
  | resetDelete => exact h.resetDelete hpc
  | resetDeactivate => exact h.resetDeactivate hpc

end Handlers

/-! ### Runs -/

section Runs

variable {s : Client} {ev : ClientEvent}

/-- **Step lemma.** -/
theorem Client.Inv.step (h : s.Inv) (hev : ev.ofActivation = true) (hcond : Orderly s ev) :
    (clientStep s ev).Inv := by
  cases ev with
  | yield r => exact h.yield hcond
  | reset => exact h.reset.1
  | resetCheck => exact h.reset.2.1
  | resetResult => exact h.reset.2.2.1
  | resetPost => exact h.reset.2.2.2
  | token => exact h.token
  | tokenResult => exact h.tokenResult
  | tokenPost => exact h.tokenPost
  | tokenRemove => exact h.tokenRemove
  | _ => exact absurd hev Bool.false_ne_true

theorem Client.Inv.live_of_usesBinding (h : s.Inv) (hcond : Orderly s ev)
    (huses : s.usesBinding ev = true) : s.Live := by
  have hat := h.at_pc
  cases ev with
  | token => exact h.live huses (hcond huses)
  | yield r =>
    rcases Bool.or_eq_true_iff.1 huses with hread | hpass
    · rw [of_decide_eq_true hread] at hat
      exact hat.1.1
    · obtain ⟨hpc, hstate⟩ := Bool.and_eq_true_iff.1 hpass
      rw [of_decide_eq_true hpc] at hat
      have hfits := hat.1
      rw [of_decide_eq_true hstate] at hfits
      exact hfits.1.1
  | _ => exact absurd huses Bool.false_ne_true

theorem Client.Inv.binding_of_allocates (h : s.Inv) (hallocates : s.allocates ev = true) :
    s.binding = none := by
  have hat := h.at_pc
  cases ev with
  | yield r =>
    obtain ⟨hfirst, -⟩ := Bool.and_eq_true_iff.1 hallocates
    obtain ⟨hpc, hstate⟩ := Bool.and_eq_true_iff.1 hfirst
    rw [of_decide_eq_true hpc] at hat
    have hfits := hat.1
    rwa [of_decide_eq_true hstate] at hfits
  | _ => exact absurd hallocates Bool.false_ne_true

theorem Client.Inv.sound (h : s.Inv) (hcond : Orderly s ev) : Sound s ev := by
  refine ⟨h.live_of_usesBinding hcond, fun hallocates => ?_, fun _ hin => ?_⟩
  · rw [Client.holdsBlock, h.binding_of_allocates hallocates]
    rfl
  · refine ⟨h.service hin, h.schema (h.service hin) fun hpc => ?_⟩
    have hat := h.at_pc
    rw [hpc] at hat
    rw [hat.1] at hin
    exact Bool.false_ne_true hin

theorem Client.inv_started (isActivated stored : Bool) :
    (Client.started isActivated stored).Inv where
  freed_le _ hb := absurd hb List.not_mem_nil
  live h := absurd h Bool.false_ne_true
  delivered h := absurd h Bool.false_ne_true
  schema h _ := if_pos h
  service h := absurd h Bool.false_ne_true
  at_pc := rfl

end Runs

/-- **The binding and the schema are sound** along runs of orderly steps. -/
theorem sound_of_orderly (isActivated stored : Bool) {evs : List ClientEvent}
    (hevs : ∀ ev ∈ evs, ev.ofActivation = true)
    (h : Guarded clientStep Orderly (Client.started isActivated stored) evs) :
    Guarded clientStep Sound (Client.started isActivated stored) evs :=
  (h.and_of_forall_mem hevs).of_invariant (fun _ _ hs hcond => hs.sound hcond.2)
    (fun _ _ hs hcond => hs.step hcond.1 hcond.2) (Client.inv_started isActivated stored)

def tokenEvents : List ClientEvent := [.token, .tokenResult, .tokenPost, .tokenRemove]

/-- A call of `tuya_iot_reset`. -/
def resetEvents : List ClientEvent := [.reset, .resetCheck, .resetResult, .resetPost]

/-- A device whose first wait is ended by a reset is activated after the second one, reset, and
waits again. -/
def resetAndActivated : List ClientEvent :=
  yields 10 ++ resetEvents ++ yields 20 ++ tokenEvents ++ yields 28 ++ resetEvents ++ yields 19

theorem sound_of_orderly_resetAndActivated :
    Guarded clientStep Sound (Client.started false false) resetAndActivated :=
  sound_of_orderly false false (by decide +kernel) (by decide +kernel)

/-- After a failed request for the activation `STATE_DATA_LOAD` overwrites the binding. After two
calls of `tuya_iot_reset` in one wait, the next wait ends at once, and a token that comes then is
copied to `NULL`. -/
theorem not_sound_activation :
    ¬Guarded clientStep Sound (Client.started false false)
        (yields 10 ++ tokenEvents ++ yields 11 ++ .yield { Results.ok with request := false } ::
          yields 10) ∧
      ¬Guarded clientStep Sound (Client.started false false)
        (yields 10 ++ resetEvents ++ yields 1 ++ resetEvents ++ yields 25 ++ [.token]) := by
  decide +kernel

end TuyaOpen.Iot
