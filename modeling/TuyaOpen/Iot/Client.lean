import TuyaOpen.Basic.Bytes
import TuyaOpen.Basic.Transition

/-!
# The client

`tuya_iot_yield` of `tuya_iot.c` runs the state machine of the client. Each call copies `nextstate`
to `state` and runs the handler of that state, which may write `nextstate`. Other threads and the
callbacks that handlers call write `nextstate` as well, through `tuya_iot_reset`,
`tuya_iot_reconnect` and the callbacks of the MQTT client. A wait for a token is ended by a
semaphore, which an event and `tuya_iot_reset` post.

All of these are cut into steps at their accesses to what they share, and the steps may come in any
order. A callback that a handler calls is a sequence of steps of another party while the handler
stands still.
-/

namespace TuyaOpen.Iot

/-- `tuya_run_state_t`. -/
inductive RunState
  | idle
  | start
  | dataLoad
  | endpointGet
  | endpointUpdate
  | tokenPending
  | activating
  | networkCheck
  | networkReconnect
  | startupUpdate
  | mqttConnectStart
  | mqttConnecting
  | mqttReconnect
  | mqttYield
  | restart
  | reset
  | stop
  | exit
  deriving DecidableEq

/-- The points of `tuya_iot_yield` between its accesses to what is shared. -/
inductive Pc
  /-- Outside of `tuya_iot_yield`, or before a return. -/
  | outside
  /-- At the start of the handler of `state`. -/
  | handler
  /-- Before the write of `nextstate`. -/
  | assign (next : RunState)
  /-- In `STATE_START`, before the subscription to changes of the link. -/
  | startSubscribe
  /-- In `STATE_DATA_LOAD`, before the subscription to the token. -/
  | dataLoadSubscribe
  /-- In `STATE_TOKEN_PENDING`. -/
  | tokenWait
  | tokenResult
  | tokenFree
  | tokenNull
  | tokenRead
  /-- In `STATE_ACTIVATING`. -/
  | activatingParse
  | activatingFree
  | activatingNull
  | activatingRead
  | activatingActivate
  /-- In `tuya_iot_activated_data_remove`. -/
  | resetDelete
  | resetDeactivate
  deriving DecidableEq

/-- The results of the calls that a handler makes. -/
structure Results where
  /-- `network_check`. -/
  network : Bool
  /-- `tuya_endpoint_cert_get` and `tuya_endpoint_domain_get`. -/
  endpointGet : Bool
  /-- `tuya_endpoint_update`. -/
  endpointUpdate : Bool
  /-- `tal_calloc`. -/
  calloc : Bool
  /-- `tal_event_subscribe`. -/
  subscribe : Bool
  /-- `atop_service_activate_request`. -/
  request : Bool
  /-- `activate_response_parse`, which stores the activation data. -/
  response : Bool
  /-- `activated_data_read`. -/
  dataRead : Bool
  /-- `schema_instance_create`. -/
  schemaCreate : Bool
  /-- `run_state_mqtt_connect_start`. -/
  mqttStart : Bool
  /-- `tuya_mqtt_connected`. -/
  connected : Bool

/-- What `client->schema` points to. -/
inductive Schema
  | null
  | created
  | deleted
  deriving DecidableEq

/-- The points of the dispatch of a token, which runs under the mutex of the event. -/
inductive Dispatch
  | none
  | result
  | post
  | remove
  deriving DecidableEq

/-- `tuya_iot_client_t`, as far as the state machine uses it, with the points that the parties have
reached. -/
structure Client where
  state : RunState
  nextstate : RunState
  isActivated : Bool
  schema : Schema
  /-- The block that `binding` points to. -/
  binding : Option Nat
  /-- `token_get.result` is `OPRT_OK`. -/
  result : Bool
  /-- The count of `token_get.sem`, which is at most 1. -/
  sem : Bool
  /-- The store has activation data. -/
  stored : Bool
  pc : Pc
  /-- The number of blocks that `STATE_DATA_LOAD` has allocated. The last one has this number. -/
  allocated : Nat
  freed : List Nat
  /-- `tuya_iot_token_activate_evt` is subscribed. -/
  subscribed : Bool
  dispatch : Dispatch
  /-- `__tuya_iot_link_type_change_cb` is subscribed. -/
  linkSubscribed : Bool
  /-- The calls of `tuya_iot_reset` before the comparison of `state` with `STATE_TOKEN_PENDING`,
  before the write of the result, and before the post. -/
  checking : Nat
  failing : Nat
  posting : Nat
  /-- The calls of `tuya_iot_reconnect` before the write of `nextstate`. -/
  reconnecting : Nat
  /-- A reset has been requested since the last handler was started. -/
  requested : Bool
  /-- A reset had been requested when the last handler was started. -/
  serving : Bool
  /-- The last wait for a token has failed, and nothing has been allocated since. -/
  waitFailed : Bool
  /-- A token has been delivered since the last subscription to it. -/
  delivered : Bool

namespace Client

/-- The client after `tuya_iot_init` and `tuya_iot_start`. -/
def started (isActivated stored : Bool) : Client where
  state := .idle
  nextstate := .start
  isActivated := isActivated
  schema := if isActivated then .created else .null
  binding := none
  result := true
  sem := false
  stored := stored
  pc := .outside
  allocated := 0
  freed := []
  subscribed := false
  dispatch := .none
  linkSubscribed := false
  checking := 0
  failing := 0
  posting := 0
  reconnecting := 0
  requested := false
  serving := false
  waitFailed := false
  delivered := false

/-- `tal_free`, which does nothing to `NULL`. -/
def free (s : Client) : Client := { s with freed := s.binding.toList ++ s.freed }

/-- `tal_calloc` of the binding. -/
def alloc (s : Client) : Client :=
  { s with
    binding := some (s.allocated + 1)
    allocated := s.allocated + 1
    waitFailed := false }

end Client

/-! ### The handlers -/

/-- The handler of a state, up to the first access to what is shared that another step may
precede. -/
def runHandler (r : Results) (s : Client) : RunState → Client
  | .idle => { s with pc := .outside }
  | .start => { s with pc := .assign (if s.isActivated then .networkCheck else .dataLoad) }
  | .dataLoad =>
    if s.isActivated then { s with pc := .assign .networkCheck }
    else if r.calloc then { s.alloc with pc := .dataLoadSubscribe }
    else { s with binding := none, pc := .outside }
  | .endpointGet =>
    { s with pc := .assign (if r.endpointGet then .startupUpdate else .endpointUpdate) }
  | .endpointUpdate =>
    if r.endpointUpdate then
      { s with pc := .assign (if s.isActivated then .startupUpdate else .activating) }
    else { s with pc := .outside }
  | .tokenPending => { s with pc := .tokenWait }
  | .activating =>
    -- The token is passed on here. Only a failed request changes the state.
    if r.request then { s with pc := .activatingParse } else { s with pc := .assign .restart }
  | .networkCheck =>
    if r.network then
      { s with pc := .assign (if s.isActivated then .endpointGet else .endpointUpdate) }
    else { s with pc := .outside }
  | .networkReconnect =>
    if r.network then { s with pc := .assign .mqttConnectStart } else { s with pc := .outside }
  | .startupUpdate => { s with pc := .assign .mqttConnectStart }
  | .mqttConnectStart =>
    if r.mqttStart then { s with pc := .assign .mqttConnecting } else { s with pc := .outside }
  | .mqttConnecting =>
    if r.connected then { s with pc := .assign .mqttYield } else { s with pc := .outside }
  | .mqttReconnect =>
    { s with pc := .assign (if r.network then .mqttConnectStart else .networkReconnect) }
  | .mqttYield => { s with pc := .outside }
  | .restart => { s with pc := .assign .start }
  | .reset =>
    if s.isActivated then { s with pc := .resetDelete } else { s with pc := .assign .restart }
  | .stop => { s with pc := .assign .idle }
  | .exit => { s with pc := .outside }

/-- A step of `tuya_iot_yield`. Where it has to wait nothing changes. -/
def tuyaIotYield (r : Results) (s : Client) : Client :=
  match s.pc with
  | .outside =>
    { s with state := s.nextstate, pc := .handler, requested := false, serving := s.requested }
  | .handler => runHandler r s s.state
  | .assign next =>
    { s with
      nextstate := next
      pc := if s.state = .start then .startSubscribe else .outside }
  | .startSubscribe =>
    { s with linkSubscribed := s.linkSubscribed || r.subscribe, pc := .outside }
  | .dataLoadSubscribe =>
    -- The subscription needs the mutex that a dispatch holds.
    if s.dispatch = .none then
      { s with
        subscribed := s.subscribed || r.subscribe
        delivered := false
        pc := .assign .tokenPending }
    else s
  | .tokenWait => if s.sem then { s with sem := false, pc := .tokenResult } else s
  | .tokenResult =>
    if s.result then { s with pc := .tokenRead }
    else { s with pc := .tokenFree, waitFailed := true }
  | .tokenFree => { s.free with pc := .tokenNull }
  | .tokenNull => { s with binding := none, pc := .outside }
  | .tokenRead => { s with pc := .assign .networkCheck }
  | .activatingParse =>
    if r.response then { s with stored := true, pc := .activatingFree }
    else { s with pc := .outside }
  | .activatingFree => { s.free with pc := .activatingNull }
  | .activatingNull => { s with binding := none, pc := .activatingRead }
  | .activatingRead =>
    if r.dataRead then
      if r.schemaCreate then { s with schema := .created, pc := .activatingActivate }
      else { s with schema := .null, pc := .assign .reset }
    else { s with pc := .assign .reset }
  | .activatingActivate => { s with isActivated := true, pc := .assign .startupUpdate }
  | .resetDelete => { s with schema := .deleted, stored := false, pc := .resetDeactivate }
  | .resetDeactivate => { s with isActivated := false, pc := .assign .restart }

/-! ### The other parties -/

/-- `nextstate` is set to `STATE_RESET`. -/
def requestReset (s : Client) : Client := { s with nextstate := .reset, requested := true }

/-- `tuya_iot_reconnect` and the callback for changes of the link, up to the write. -/
def tuyaIotReconnect (s : Client) : Client :=
  if s.state = .mqttYield then { s with reconnecting := s.reconnecting + 1 } else s

/-- The steps of all parties. A step of a call that nobody has made changes nothing. -/
inductive ClientEvent
  | yield (r : Results)
  /-- `tuya_iot_reset`, up to the write of `nextstate`. -/
  | reset
  | resetCheck
  | resetResult
  | resetPost
  /-- `mqtt_service_reset_cmd_on`. -/
  | resetCmd
  /-- `mqtt_client_unbind_on`. -/
  | unbind
  /-- `tuya_iot_reconnect`, up to the comparison of `state`. -/
  | reconnect
  /-- `__tuya_iot_link_type_change_cb`, up to the comparison of `state`. -/
  | linkTypeChange
  | reconnectWrite
  /-- The event with a token is published: `tuya_iot_token_activate_evt` copies the token. -/
  | token
  | tokenResult
  | tokenPost
  | tokenRemove
  /-- `tuya_iot_start`. -/
  | start
  /-- `tuya_iot_stop`. -/
  | stop

def Client.copies (s : Client) : Bool := s.subscribed && s.dispatch = .none

def clientStep (s : Client) : ClientEvent → Client
  | .yield r => tuyaIotYield r s
  | .reset => { requestReset s with checking := s.checking + 1 }
  | .resetCheck =>
    if 0 < s.checking then
      { s with
        checking := s.checking - 1
        failing := if s.state = .tokenPending then s.failing + 1 else s.failing }
    else s
  | .resetResult =>
    if 0 < s.failing then
      { s with failing := s.failing - 1, result := false, posting := s.posting + 1 }
    else s
  | .resetPost => if 0 < s.posting then { s with posting := s.posting - 1, sem := true } else s
  | .resetCmd => requestReset s
  | .unbind => requestReset s
  | .reconnect => tuyaIotReconnect s
  | .linkTypeChange => if s.linkSubscribed then tuyaIotReconnect s else s
  | .reconnectWrite =>
    if 0 < s.reconnecting then
      { s with nextstate := .mqttReconnect, reconnecting := s.reconnecting - 1 }
    else s
  | .token => if s.copies then { s with dispatch := .result, delivered := true } else s
  | .tokenResult =>
    if s.dispatch = .result then { s with result := true, dispatch := .post } else s
  | .tokenPost => if s.dispatch = .post then { s with sem := true, dispatch := .remove } else s
  | .tokenRemove =>
    if s.dispatch = .remove then { s with subscribed := false, dispatch := .none } else s
  | .start => if s.state = .idle then { s with nextstate := .start } else s
  | .stop => { s with nextstate := .stop }

/-! ### What steps leave alone -/

/-- The same handler is running, for the same request. -/
structure Client.SameTurn (s s' : Client) : Prop where
  state : s'.state = s.state
  requested : s'.requested = s.requested
  serving : s'.serving = s.serving

theorem sameTurn_runHandler (r : Results) (s : Client) (state : RunState) :
    s.SameTurn (runHandler r s state) ∧ (runHandler r s state).nextstate = s.nextstate := by
  cases state
  all_goals
    rw [runHandler]
    try split_ifs
  all_goals exact ⟨⟨rfl, rfl, rfl⟩, rfl⟩

theorem sameTurn_tuyaIotYield (r : Results) {s : Client} (h : s.pc ≠ .outside) :
    s.SameTurn (tuyaIotYield r s) := by
  rw [tuyaIotYield]
  split
  case h_1 hpc => exact absurd hpc h
  case h_2 => exact (sameTurn_runHandler r s s.state).1
  all_goals try split_ifs
  all_goals exact ⟨rfl, rfl, rfl⟩

theorem nextstate_tuyaIotYield (r : Results) {s : Client} (h : ∀ next, s.pc ≠ .assign next) :
    (tuyaIotYield r s).nextstate = s.nextstate := by
  rw [tuyaIotYield]
  split
  case h_2 => exact (sameTurn_runHandler r s s.state).2
  case h_3 next hpc => exact absurd hpc (h next)
  all_goals try split_ifs
  all_goals rfl

end TuyaOpen.Iot
