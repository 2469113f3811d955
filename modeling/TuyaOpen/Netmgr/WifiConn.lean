import TuyaOpen.Basic.Bytes
import TuyaOpen.Basic.Transition
import TuyaOpen.Common.OperateRet
import TuyaOpen.Netmgr.Manager

/-!
# The reconnection of Wi-Fi

`netconn_wifi.c` connects to the access point and reconnects when the link is lost. Its state is
written by the callback of the driver, by a timer, by the messages of the work queue and by the
commands of the user. A connection is made when a connect message is taken out of the queue;
whoever wants one calls `__netconn_wifi_connect`, which may fail to queue the message. A stop only
writes `NETCONN_WIFI_CONN_STOP` into the state: the messages that are queued stay in the queue.

The callbacks, messages and commands come in any order, each as a whole.
-/

namespace TuyaOpen.Netmgr

/-! ### The connection -/

/-- `netconn_wifi_conn_status_e`. -/
inductive WifiConnStat
  | reday
  | check
  | linkup
  | wait
  | stop
  deriving DecidableEq

/-- `WF_EVENT_E`. -/
inductive WfEvent
  | connected
  | connectFailed
  | disconnected
  deriving DecidableEq

/-- The types of `netmgr_wifi_msg_t`. -/
inductive WifiMsg
  | connect
  | disconnect
  deriving DecidableEq

inductive WifiCall
  | stationConnect
  | stationDisconnect
  | eventCb (status : NetmgrStatus)
  deriving DecidableEq

/-- `netconn_wifi_conn_t` and `base.status`, with the milliseconds the timer was started with when
it runs, and the messages in the queue. -/
structure WifiConn where
  stat : WifiConnStat
  count : Nat
  timer : Option Nat
  queue : List WifiMsg
  status : NetmgrStatus
  deriving DecidableEq

/-- `NETCONN_WIFI_CONN_TABLE`. -/
def netconnWifiConnTable : Nat := 6

/-- The field `table`: seconds to wait before a new attempt. -/
def connTable : List Nat := [1, 3, 5, 10, 15, 20]

/-- `WIFI_CONN_TIMEOUT_MAX`. -/
def wifiConnTimeoutMax : Nat := 20

/-- `s_netmgr_wifi` after `tal_sw_timer_create`. -/
def WifiConn.init : WifiConn where
  stat := .reday
  count := 0
  timer := none
  queue := []
  status := .linkDown

/-- The results of `tal_malloc` and `tal_workq_schedule` when a message is queued. -/
structure Post where
  malloc : Bool
  schedule : OperateRet
  deriving DecidableEq

def posted : Post := ⟨true, oprtOk⟩

def Post.Ok (post : Post) : Prop := post.malloc = true ∧ post.schedule = oprtOk

instance instDecidablePostOk (post : Post) : Decidable post.Ok :=
  inferInstanceAs (Decidable (post.malloc = true ∧ post.schedule = oprtOk))

/-- The end of `__netconn_wifi_connect` and of `__netconn_wifi_disconnect`. -/
def WifiConn.schedule (s : WifiConn) (msg : WifiMsg) (post : Post) : OperateRet × WifiConn :=
  if post.malloc = false then (oprtMallocFailed, s)
  else (post.schedule, if post.schedule = oprtOk then { s with queue := s.queue ++ [msg] } else s)

/-- `__netconn_wifi_connect`. -/
def netconnWifiConnect (s : WifiConn) (post : Post) : OperateRet × WifiConn :=
  if s.stat = .linkup then (oprtOk, s) else s.schedule .connect post

/-- `__netconn_wifi_disconnect`. -/
def netconnWifiDisconnect (s : WifiConn) (post : Post) : OperateRet × WifiConn :=
  if s.stat = .stop ∨ s.stat = .reday then (oprtOk, s) else s.schedule .disconnect post

/-- `__netconn_wifi_connect_process`: what it does for a message. -/
def netconnWifiConnectProcess (s : WifiConn) : WifiMsg → List WifiCall × WifiConn
  | .connect =>
    ([.stationDisconnect, .stationConnect],
      { s with timer := some (wifiConnTimeoutMax * 1000), stat := .check })
  | .disconnect =>
    ([.stationDisconnect], { s with timer := some 1500, count := 0, stat := .stop })

def WifiConn.backOff (s : WifiConn) : WifiConn where
  stat := .wait
  count := if s.count < netconnWifiConnTable - 1 then s.count + 1 else s.count
  timer := some (connTable.getD s.count 0 * 1000)
  queue := s.queue
  status := s.status

/-- `__netconn_wifi_event`. -/
def netconnWifiEvent (s : WifiConn) (event : WfEvent) (post : Post) : List WifiCall × WifiConn :=
  let s := { s with timer := none }
  let s :=
    if event = .connected then { s with count := 0, stat := .linkup, status := .linkUp }
    else
      let s :=
        if s.stat = .check ∨ s.stat = .wait then s.backOff
        else if s.stat = .linkup then (netconnWifiConnect { s with stat := .reday } post).2
        else s
      { s with status := .linkDown }
  ([.eventCb s.status], s)

/-- `__netconn_wifi_conn_timer`, called by the timer thread when the timer has expired. -/
def netconnWifiConnTimer (s : WifiConn) (post : Post) : WifiConn :=
  if s.timer = none then s
  else
    let s := { s with timer := none }
    match s.stat with
    | .wait => { (netconnWifiConnect s post).2 with stat := .check }
    | .stop => { s with stat := .reday }
    | .check => s.backOff
    | .reday | .linkup => s

/-! ### Steps -/

inductive WifiEvent
  /-- The driver reports an event. -/
  | driver (event : WfEvent) (post : Post)
  /-- The timer expires. -/
  | timer (post : Post)
  /-- The work queue executes its first message. -/
  | process
  /-- A connect request: `NETCONN_CMD_SSID_PSWD`, the end of provisioning, or `open` of an
  activated device. -/
  | request (post : Post)
  /-- `NETCONN_CMD_CLOSE`. -/
  | close (post : Post)
  /-- `NETCONN_CMD_RESET`. -/
  | reset
  /-- `EVENT_RESET`. -/
  | resetEvent
  deriving DecidableEq

/-- One step of the system: the calls that leave the module, and the connection after it. -/
def wifiStep (s : WifiConn) : WifiEvent → List WifiCall × WifiConn
  | .driver event post => netconnWifiEvent s event post
  | .timer post => ([], netconnWifiConnTimer s post)
  | .process =>
    match s.queue with
    | [] => ([], s)
    | msg :: queue => netconnWifiConnectProcess { s with queue := queue } msg
  | .request post => ([], (netconnWifiConnect s post).2)
  | .close post => ([], (netconnWifiDisconnect s post).2)
  | .reset => ([.stationDisconnect], { s with stat := .stop })
  -- `__wifi_reset_event_cb`
  | .resetEvent => ([.stationDisconnect], { s with timer := none, stat := .stop })

def Stops (s : WifiConn) : WifiEvent → Prop
  | .process => s.queue.head? = some .disconnect
  | .reset => True
  | .resetEvent => True
  | _ => False

instance instDecidableStops (s : WifiConn) : ∀ ev, Decidable (Stops s ev)
  | .process => inferInstanceAs (Decidable (s.queue.head? = some .disconnect))
  | .reset => isTrue trivial
  | .resetEvent => isTrue trivial
  | .driver _ _ => isFalse id
  | .timer _ => isFalse id
  | .request _ => isFalse id
  | .close _ => isFalse id

/-- The connection with what a run has seen. -/
structure WifiRun where
  conn : WifiConn
  /-- A stop has taken effect, and no connect request has been made since. -/
  stopped : Bool
  /-- The link has been lost, and the connection is idle since. -/
  lost : Bool
  deriving DecidableEq

def WifiRun.init : WifiRun where
  conn := WifiConn.init
  stopped := false
  lost := false

def wifiNext (r : WifiRun) (ev : WifiEvent) : WifiRun where
  conn := (wifiStep r.conn ev).2
  stopped :=
    match ev with
    | .request _ => false
    | _ => r.stopped || decide (Stops r.conn ev)
  -- only a lost link leads from `linkup` to `reday`
  lost :=
    decide ((wifiStep r.conn ev).2.stat = .reday) && (r.lost || decide (r.conn.stat = .linkup))

/-! ### What a step does -/

variable {s : WifiConn} {r : WifiRun} {ev : WifiEvent} {post : Post}

theorem wifiNext_conn : (wifiNext r ev).conn = (wifiStep r.conn ev).2 := rfl

theorem wifiNext_lost_iff :
    (wifiNext r ev).lost = true ↔
      (wifiStep r.conn ev).2.stat = .reday ∧ (r.lost = true ∨ r.conn.stat = .linkup) := by
  simp [wifiNext]

theorem schedule_snd (s : WifiConn) (msg : WifiMsg) (post : Post) :
    (s.schedule msg post).2 = if post.Ok then { s with queue := s.queue ++ [msg] } else s := by
  cases hmalloc : post.malloc with
  | false => simp [WifiConn.schedule, Post.Ok, hmalloc]
  | true => simp [WifiConn.schedule, Post.Ok, hmalloc]

theorem netconnWifiConnect_snd (post : Post) (h : s.stat ≠ .linkup) :
    (netconnWifiConnect s post).2 =
      if post.Ok then { s with queue := s.queue ++ [.connect] } else s := by
  rw [netconnWifiConnect, if_neg h, schedule_snd]

theorem netconnWifiConnect_eq (s : WifiConn) (post : Post) :
    (netconnWifiConnect s post).2 = s ∨
      (netconnWifiConnect s post).2 = (s.schedule .connect post).2 := by
  rw [netconnWifiConnect]
  split_ifs
  · exact Or.inl rfl
  · exact Or.inr rfl

theorem netconnWifiDisconnect_eq (s : WifiConn) (post : Post) :
    (netconnWifiDisconnect s post).2 = s ∨
      (netconnWifiDisconnect s post).2 = (s.schedule .disconnect post).2 := by
  rw [netconnWifiDisconnect]
  split_ifs
  · exact Or.inl rfl
  · exact Or.inr rfl

def WifiConn.afterLoss (s : WifiConn) (post : Post) : WifiConn :=
  match s.stat with
  | .check | .wait => { s.backOff with status := .linkDown }
  | .linkup =>
    { s with
      stat := .reday
      timer := none
      queue := if post.Ok then s.queue ++ [.connect] else s.queue
      status := .linkDown }
  | .reday | .stop => { s with timer := none, status := .linkDown }

theorem netconnWifiEvent_of_ne {event : WfEvent} (h : event ≠ .connected) :
    (netconnWifiEvent s event post).2 = s.afterLoss post := by
  rw [netconnWifiEvent, WifiConn.afterLoss]
  cases hstat : s.stat with
  | reday => simp [h]
  | check => simp [h, WifiConn.backOff]
  | linkup =>
    by_cases hok : post.Ok
    · simp [h, netconnWifiConnect_snd, hok]
    · simp [h, netconnWifiConnect_snd, hok]
  | wait => simp [h, WifiConn.backOff]
  | stop => simp [h]

theorem netconnWifiEvent_fst (event : WfEvent) :
    (netconnWifiEvent s event post).1 =
      [.eventCb (if event = .connected then .linkUp else .linkDown)] := by
  by_cases h : event = .connected
  · simp [netconnWifiEvent, h]
  · simp [netconnWifiEvent, h]

theorem netconnWifiEvent_connected :
    (netconnWifiEvent s .connected post).2 =
      { s with timer := none, count := 0, stat := .linkup, status := .linkUp } := rfl

theorem netconnWifiConnTimer_wait (ht : s.timer ≠ none) (hs : s.stat = .wait) :
    netconnWifiConnTimer s post =
      { s with
        stat := .check
        timer := none
        queue := if post.Ok then s.queue ++ [.connect] else s.queue } := by
  rw [netconnWifiConnTimer, if_neg ht]
  simp only [hs]
  rw [netconnWifiConnect_snd post (by simp)]
  by_cases hok : post.Ok
  · simp [hok]
  · simp [hok]

/-! ### A stopped connection -/

def StaysStopped (r : WifiRun) (ev : WifiEvent) : Prop :=
  r.stopped = true → .stationConnect ∉ (wifiStep r.conn ev).1

/-- A link that has come up after a stop is lost, and asks for a connection. -/
def Revives (r : WifiRun) : WifiEvent → Prop
  | .driver event post =>
    event ≠ .connected ∧ r.conn.stat = .linkup ∧ r.stopped = true ∧ post.Ok
  | _ => False

/-- No connect message outlives a stop, and none is queued for a link that has come up after it. -/
def StopsAll (r : WifiRun) (ev : WifiEvent) : Prop :=
  (Stops r.conn ev → .connect ∉ r.conn.queue) ∧ ¬Revives r ev

instance instDecidableStaysStopped (r : WifiRun) (ev : WifiEvent) :
    Decidable (StaysStopped r ev) :=
  inferInstanceAs (Decidable (r.stopped = true → .stationConnect ∉ (wifiStep r.conn ev).1))

instance instDecidableRevives (r : WifiRun) : ∀ ev, Decidable (Revives r ev)
  | .driver event post =>
    inferInstanceAs (Decidable
      (event ≠ .connected ∧ r.conn.stat = .linkup ∧ r.stopped = true ∧ post.Ok))
  | .timer _ => isFalse id
  | .process => isFalse id
  | .request _ => isFalse id
  | .close _ => isFalse id
  | .reset => isFalse id
  | .resetEvent => isFalse id

instance instDecidableStopsAll (r : WifiRun) (ev : WifiEvent) : Decidable (StopsAll r ev) :=
  inferInstanceAs (Decidable ((Stops r.conn ev → .connect ∉ r.conn.queue) ∧ ¬Revives r ev))

/-- The invariant of a stopped connection: nothing in it asks for a connection. -/
def Quiet (r : WifiRun) : Prop :=
  r.stopped = true →
    .connect ∉ r.conn.queue ∧ r.conn.stat ≠ .check ∧ r.conn.stat ≠ .wait

theorem wifiNext_stopped_iff (h : ∀ post, ev ≠ .request post) :
    (wifiNext r ev).stopped = true ↔ r.stopped = true ∨ Stops r.conn ev := by
  cases ev with
  | request post => exact absurd rfl (h post)
  | _ => simp [wifiNext]

theorem Quiet.staysStopped (h : Quiet r) : StaysStopped r ev := by
  intro hstopped
  obtain ⟨hqueue, -⟩ := h hstopped
  cases ev with
  | process =>
    rw [wifiStep]
    split
    next => simp
    next msg queue heq =>
      cases msg with
      | connect => simp [heq] at hqueue
      | disconnect => simp [netconnWifiConnectProcess]
  | _ => simp [wifiStep, netconnWifiEvent_fst]

/-- A step that is no stop and no request keeps a connection quiet when it puts no connect message
in the queue and begins no attempt. -/
theorem Quiet.of_step (h : Quiet r) (hrequest : ∀ post, ev ≠ .request post)
    (hstops : ¬Stops r.conn ev)
    (hstep : r.stopped = true → .connect ∉ r.conn.queue → r.conn.stat ≠ .check →
      r.conn.stat ≠ .wait →
      .connect ∉ (wifiStep r.conn ev).2.queue ∧ (wifiStep r.conn ev).2.stat ≠ .check ∧
        (wifiStep r.conn ev).2.stat ≠ .wait) : Quiet (wifiNext r ev) := by
  intro hstopped
  have hr := ((wifiNext_stopped_iff hrequest).1 hstopped).resolve_right hstops
  obtain ⟨hqueue, hcheck, hwait⟩ := h hr
  exact hstep hr hqueue hcheck hwait

theorem Quiet.of_stops (hstops : Stops r.conn ev) (hc : StopsAll r ev) :
    Quiet (wifiNext r ev) := by
  intro _
  have hqueue := hc.1 hstops
  cases ev with
  | process =>
    cases hq : r.conn.queue with
    | nil => simp [Stops, hq] at hstops
    | cons msg queue =>
      have hmsg : msg = .disconnect := by simpa [Stops, hq] using hstops
      rw [hq] at hqueue
      have htail : .connect ∉ queue := fun hmem => hqueue (List.mem_cons_of_mem _ hmem)
      simp [wifiNext_conn, wifiStep, hq, hmsg, netconnWifiConnectProcess, htail]
  | reset => simp [wifiNext_conn, wifiStep, hqueue]
  | resetEvent => simp [wifiNext_conn, wifiStep, hqueue]
  | driver | timer | request | close => exact absurd hstops id

theorem Quiet.driver {event : WfEvent} (h : Quiet r) (hc : StopsAll r (.driver event post)) :
    Quiet (wifiNext r (.driver event post)) := by
  refine h.of_step (by simp) id fun hstopped hqueue hcheck hwait => ?_
  by_cases hevent : event = .connected
  · subst hevent
    simp [wifiStep, netconnWifiEvent_connected, hqueue]
  · have hstep : (wifiStep r.conn (.driver event post)).2 = r.conn.afterLoss post :=
      netconnWifiEvent_of_ne hevent
    rw [hstep, WifiConn.afterLoss]
    cases hstat : r.conn.stat with
    | linkup =>
      have hok : ¬post.Ok := fun hok => hc.2 ⟨hevent, hstat, hstopped, hok⟩
      simp [hok, hqueue]
    | check => exact absurd hstat hcheck
    | wait => exact absurd hstat hwait
    | reday | stop => simp [hqueue]

theorem Quiet.timer (h : Quiet r) : Quiet (wifiNext r (.timer post)) := by
  refine h.of_step (by simp) id fun _ hqueue hcheck hwait => ?_
  rw [wifiStep, netconnWifiConnTimer]
  split_ifs
  · exact ⟨hqueue, hcheck, hwait⟩
  · cases hstat : r.conn.stat with
    | check => exact absurd hstat hcheck
    | wait => exact absurd hstat hwait
    | reday | linkup | stop => simp [hqueue]

theorem Quiet.close (h : Quiet r) : Quiet (wifiNext r (.close post)) := by
  refine h.of_step (by simp) id fun _ hqueue hcheck hwait => ?_
  rw [wifiStep]
  rcases netconnWifiDisconnect_eq r.conn post with heq | heq
  · rw [heq]
    exact ⟨hqueue, hcheck, hwait⟩
  · rw [heq, schedule_snd]
    split_ifs
    · simp [hqueue, hcheck, hwait]
    · exact ⟨hqueue, hcheck, hwait⟩

theorem Quiet.next (h : Quiet r) (hc : StopsAll r ev) : Quiet (wifiNext r ev) := by
  by_cases hstops : Stops r.conn ev
  · exact Quiet.of_stops hstops hc
  cases ev with
  | driver event post => exact h.driver hc
  | timer post => exact h.timer
  | process =>
    refine h.of_step (by simp) hstops fun _ hqueue hcheck hwait => ?_
    cases hq : r.conn.queue with
    | nil => simp [wifiStep, hq, hcheck, hwait]
    | cons msg queue =>
      cases msg with
      | connect => simp [hq] at hqueue
      | disconnect => simp [Stops, hq] at hstops
  | request post => exact fun hstopped => absurd hstopped (by simp [wifiNext])
  | close post => exact h.close
  | reset => exact absurd trivial hstops
  | resetEvent => exact absurd trivial hstops

theorem quiet_init : Quiet WifiRun.init := by
  simp [Quiet, WifiRun.init]

/-- **A stopped connection stays stopped.** In every run in which no connect message outlives a
stop, `tal_wifi_station_connect` is not called between a stop and the next request. -/
theorem staysStopped_of_guarded {evs : List WifiEvent}
    (h : Guarded wifiNext StopsAll WifiRun.init evs) :
    Guarded wifiNext StaysStopped WifiRun.init evs :=
  Guarded.of_invariant (fun _ _ h _ => h.staysStopped) (fun _ _ h hc => h.next hc) quiet_init h

/-- A connection is made, closed, and reported down. -/
theorem staysStopped_of_guarded_close :
    Guarded wifiNext StopsAll WifiRun.init
        [.request posted, .process, .driver .connected posted, .close posted, .process,
          .driver .disconnected posted, .timer posted] ∧
      Guarded wifiNext StaysStopped WifiRun.init
        [.request posted, .process, .driver .connected posted, .close posted, .process,
          .driver .disconnected posted, .timer posted] :=
  ⟨by decide, staysStopped_of_guarded (by decide)⟩

/-- The timer queues a connect message, the connection is reset, and the message connects. -/
theorem not_staysStopped_reset :
    ¬Guarded wifiNext StaysStopped WifiRun.init
      [.request posted, .process, .driver .connectFailed posted, .timer posted, .reset,
        .process] := by
  decide

theorem not_staysStopped_of_mem (hstopped : r.stopped = true) (h : .connect ∈ r.conn.queue) :
    ∃ n, ¬Guarded wifiNext StaysStopped r (List.replicate n .process) := by
  generalize hq : r.conn.queue = queue at h
  induction queue generalizing r with
  | nil => cases h
  | cons msg queue ih =>
    cases msg with
    | connect =>
      refine ⟨1, fun hguarded => hguarded.1 hstopped ?_⟩
      simp [wifiStep, hq, netconnWifiConnectProcess]
    | disconnect =>
      have hstopped' : (wifiNext r .process).stopped = true :=
        (wifiNext_stopped_iff (by simp)).2 (Or.inl hstopped)
      have hq' : (wifiNext r .process).conn.queue = queue := by
        simp [wifiNext_conn, wifiStep, hq, netconnWifiConnectProcess]
      obtain ⟨n, hn⟩ := ih hstopped' hq' (by simpa using h)
      exact ⟨n + 1, fun hguarded => hn hguarded.2⟩

/-- **The condition cannot be left out.** After every step that does not meet it, processing the
messages in the queue comes to a call of `tal_wifi_station_connect` while the connection is
stopped. -/
theorem exists_not_staysStopped (h : ¬StopsAll r ev) :
    ∃ n, ¬Guarded wifiNext StaysStopped (wifiNext r ev) (List.replicate n .process) := by
  rw [StopsAll, not_and_or] at h
  rcases h with h | h
  · obtain ⟨hstops, hmem⟩ := Classical.not_imp.1 h
    have hmem := not_not.1 hmem
    cases ev with
    | process =>
      refine not_staysStopped_of_mem ((wifiNext_stopped_iff (by simp)).2 (Or.inr hstops)) ?_
      cases hq : r.conn.queue with
      | nil => simp [hq] at hmem
      | cons msg queue =>
        have hmsg : msg = .disconnect := by simpa [Stops, hq] using hstops
        subst hmsg
        simpa [wifiNext_conn, wifiStep, hq, netconnWifiConnectProcess] using hmem
    | reset =>
      exact not_staysStopped_of_mem ((wifiNext_stopped_iff (by simp)).2 (Or.inr hstops)) hmem
    | resetEvent =>
      exact not_staysStopped_of_mem ((wifiNext_stopped_iff (by simp)).2 (Or.inr hstops)) hmem
    | driver | timer | request | close => exact absurd hstops id
  · cases ev with
    | driver event post =>
      obtain ⟨hevent, hstat, hstopped, hok⟩ := not_not.1 h
      refine not_staysStopped_of_mem ((wifiNext_stopped_iff (by simp)).2 (Or.inl hstopped)) ?_
      have hstep : (wifiStep r.conn (.driver event post)).2 = r.conn.afterLoss post :=
        netconnWifiEvent_of_ne hevent
      rw [wifiNext_conn, hstep, WifiConn.afterLoss, hstat]
      simp [hok]
    | timer | process | request | close | reset | resetEvent => exact absurd id h

/-- A reset while a request is in the queue. -/
theorem exists_not_staysStopped_request :
    ∃ n, ¬Guarded wifiNext StaysStopped (wifiNext (wifiNext .init (.request posted)) .reset)
      (List.replicate n .process) :=
  exists_not_staysStopped (by decide)

/-! ### Reconnection -/

def Wanted (r : WifiRun) : Prop :=
  r.conn.stat = .check ∨ r.conn.stat = .wait ∨ (r.conn.stat = .reday ∧ r.lost = true)

/-- The wait table is not left, and while a connection is wanted something will make it. -/
def NotStalled (r : WifiRun) : Prop :=
  r.conn.count < netconnWifiConnTable ∧
    (Wanted r → r.conn.timer ≠ none ∨ .connect ∈ r.conn.queue)

/-- A connect message that the timer or a lost link asks for is queued, unless there is one. -/
def Reconnects (r : WifiRun) : WifiEvent → Prop
  | .timer post => r.conn.timer ≠ none → r.conn.stat = .wait → post.Ok ∨ .connect ∈ r.conn.queue
  | .driver event post =>
    event ≠ .connected → r.conn.stat = .linkup → post.Ok ∨ .connect ∈ r.conn.queue
  | _ => True

/-- The invariant of reconnection. A lost link leaves no timer, only a connect message. -/
structure Alive (r : WifiRun) : Prop where
  count_lt : r.conn.count < netconnWifiConnTable
  attempt : r.conn.stat = .check ∨ r.conn.stat = .wait →
    r.conn.timer ≠ none ∨ .connect ∈ r.conn.queue
  lost : r.lost = true → r.conn.stat = .reday ∧ .connect ∈ r.conn.queue

theorem Alive.notStalled (h : Alive r) : NotStalled r := by
  refine ⟨h.count_lt, ?_⟩
  rintro (hcheck | hwait | ⟨-, hlost⟩)
  · exact h.attempt (Or.inl hcheck)
  · exact h.attempt (Or.inr hwait)
  · exact Or.inr (h.lost hlost).2

theorem count_backOff_lt (h : s.count < netconnWifiConnTable) :
    s.backOff.count < netconnWifiConnTable := by
  rw [WifiConn.backOff]
  dsimp only
  split_ifs with hlt
  · rw [netconnWifiConnTable] at hlt ⊢
    omega
  · exact h

/-- A step after which the connection is not idle keeps the invariant when it leaves an attempt with
a timer or a message. -/
theorem Alive.of_stat_ne (hstat : (wifiStep r.conn ev).2.stat ≠ .reday)
    (hcount : (wifiStep r.conn ev).2.count < netconnWifiConnTable)
    (hattempt : (wifiStep r.conn ev).2.stat = .check ∨ (wifiStep r.conn ev).2.stat = .wait →
      (wifiStep r.conn ev).2.timer ≠ none ∨ .connect ∈ (wifiStep r.conn ev).2.queue) :
    Alive (wifiNext r ev) := by
  refine ⟨hcount, hattempt, fun hlost => ?_⟩
  exact absurd (wifiNext_lost_iff.1 hlost).1 hstat

/-- A step that leaves `stat` and `count` alone keeps the invariant when it loses neither the timer
nor a connect message. -/
theorem Alive.of_stat_eq (h : Alive r) (hstat : (wifiStep r.conn ev).2.stat = r.conn.stat)
    (hcount : (wifiStep r.conn ev).2.count = r.conn.count)
    (htimer : r.conn.timer ≠ none → (wifiStep r.conn ev).2.timer ≠ none)
    (hqueue : r.conn.queue ⊆ (wifiStep r.conn ev).2.queue) : Alive (wifiNext r ev) := by
  refine ⟨hcount.trans_lt h.count_lt, fun hattempt => ?_, fun hlost => ?_⟩
  · refine (h.attempt ?_).imp htimer fun hconnect => hqueue hconnect
    rwa [wifiNext_conn, hstat] at hattempt
  · obtain ⟨hreday, hlost | hlinkup⟩ := wifiNext_lost_iff.1 hlost
    · exact ⟨hreday, hqueue (h.lost hlost).2⟩
    · rw [hstat, hlinkup] at hreday
      cases hreday

theorem Alive.driver {event : WfEvent} (h : Alive r) (hc : Reconnects r (.driver event post)) :
    Alive (wifiNext r (.driver event post)) := by
  by_cases hevent : event = .connected
  · subst hevent
    exact Alive.of_stat_ne (by simp [wifiStep, netconnWifiEvent_connected])
      (by simp [wifiStep, netconnWifiEvent_connected, netconnWifiConnTable])
      (by simp [wifiStep, netconnWifiEvent_connected])
  have hstep : (wifiStep r.conn (.driver event post)).2 = r.conn.afterLoss post :=
    netconnWifiEvent_of_ne hevent
  cases hstat : r.conn.stat with
  | reday =>
    rw [WifiConn.afterLoss, hstat] at hstep
    refine ⟨by simpa [wifiNext_conn, hstep] using h.count_lt,
      by simp [wifiNext_conn, hstep], fun hlost => ?_⟩
    obtain ⟨-, hlost | hlinkup⟩ := wifiNext_lost_iff.1 hlost
    · simpa [wifiNext_conn, hstep] using (h.lost hlost).2
    · rw [hstat] at hlinkup
      cases hlinkup
  | linkup =>
    rw [WifiConn.afterLoss, hstat] at hstep
    have hqueue : .connect ∈ (wifiStep r.conn (.driver event post)).2.queue := by
      rcases hc hevent hstat with hok | hmem
      · simp [hstep, hok]
      · by_cases hok : post.Ok
        · simp [hstep, hok]
        · simp [hstep, hok, hmem]
    exact ⟨by simpa [wifiNext_conn, hstep] using h.count_lt, fun _ => Or.inr hqueue,
      fun _ => ⟨by simp [wifiNext_conn, hstep], hqueue⟩⟩
  | stop =>
    rw [WifiConn.afterLoss, hstat] at hstep
    exact Alive.of_stat_ne (by simp [hstep]) (by simpa [hstep] using h.count_lt)
      (by simp [hstep])
  | check | wait =>
    rw [WifiConn.afterLoss, hstat] at hstep
    exact Alive.of_stat_ne (by simp [hstep, WifiConn.backOff])
      (by simpa [hstep] using count_backOff_lt h.count_lt) (by simp [hstep, WifiConn.backOff])

theorem Alive.timer (h : Alive r) (hc : Reconnects r (.timer post)) :
    Alive (wifiNext r (.timer post)) := by
  by_cases ht : r.conn.timer = none
  · have hstep : (wifiStep r.conn (.timer post)).2 = r.conn := if_pos ht
    exact h.of_stat_eq (by rw [hstep]) (by rw [hstep]) (by simp [ht]) (by simp [hstep])
  cases hstat : r.conn.stat with
  | wait =>
    have hstep : (wifiStep r.conn (.timer post)).2 = _ := netconnWifiConnTimer_wait ht hstat
    refine Alive.of_stat_ne (by simp [hstep]) (by simpa [hstep] using h.count_lt)
      fun _ => Or.inr ?_
    rcases hc ht hstat with hok | hmem
    · simp [hstep, hok]
    · by_cases hok : post.Ok
      · simp [hstep, hok]
      · simp [hstep, hok, hmem]
  | stop =>
    have hstep : (wifiStep r.conn (.timer post)).2 =
        { r.conn with timer := none, stat := .reday } := by
      simp [wifiStep, netconnWifiConnTimer, ht, hstat]
    refine ⟨by simpa [wifiNext_conn, hstep] using h.count_lt, by simp [wifiNext_conn, hstep],
      fun hlost => ?_⟩
    obtain ⟨-, hlost | hlinkup⟩ := wifiNext_lost_iff.1 hlost
    · rw [(h.lost hlost).1] at hstat
      cases hstat
    · rw [hstat] at hlinkup
      cases hlinkup
  | check =>
    have hstep : (wifiStep r.conn (.timer post)).2 =
        WifiConn.backOff { r.conn with timer := none } := by
      simp [wifiStep, netconnWifiConnTimer, ht, hstat]
    refine Alive.of_stat_ne (by simp [hstep, WifiConn.backOff]) ?_
      (by simp [hstep, WifiConn.backOff])
    rw [hstep]
    exact count_backOff_lt h.count_lt
  | reday | linkup =>
    have hstep : (wifiStep r.conn (.timer post)).2 = { r.conn with timer := none } := by
      simp [wifiStep, netconnWifiConnTimer, ht, hstat]
    refine ⟨by simpa [wifiNext_conn, hstep] using h.count_lt,
      by simp [wifiNext_conn, hstep, hstat], fun hlost => ?_⟩
    obtain ⟨hreday, hlost | hlinkup⟩ := wifiNext_lost_iff.1 hlost
    · simpa [wifiNext_conn, hstep] using h.lost hlost
    · simp [hstep, hlinkup] at hreday

theorem Alive.process (h : Alive r) : Alive (wifiNext r .process) := by
  cases hqueue : r.conn.queue with
  | nil =>
    have hstep : (wifiStep r.conn .process).2 = r.conn := by simp [wifiStep, hqueue]
    exact h.of_stat_eq (by rw [hstep]) (by rw [hstep]) (by simp [hstep]) (by simp [hstep])
  | cons msg queue =>
    have hstep : (wifiStep r.conn .process).2 =
        (netconnWifiConnectProcess { r.conn with queue := queue } msg).2 := by
      simp [wifiStep, hqueue]
    cases msg with
    | connect =>
      exact Alive.of_stat_ne (by simp [hstep, netconnWifiConnectProcess])
        (by simpa [hstep, netconnWifiConnectProcess] using h.count_lt)
        (by simp [hstep, netconnWifiConnectProcess])
    | disconnect =>
      exact Alive.of_stat_ne (by simp [hstep, netconnWifiConnectProcess])
        (by simp [hstep, netconnWifiConnectProcess, netconnWifiConnTable])
        (by simp [hstep, netconnWifiConnectProcess])

theorem Alive.of_schedule {msg : WifiMsg} (h : Alive r)
    (hstep : (wifiStep r.conn ev).2 = r.conn ∨
      (wifiStep r.conn ev).2 = (r.conn.schedule msg post).2) : Alive (wifiNext r ev) := by
  have hqueue : (wifiStep r.conn ev).2 = r.conn ∨
      (wifiStep r.conn ev).2 = { r.conn with queue := r.conn.queue ++ [msg] } := by
    refine hstep.elim Or.inl fun hstep => ?_
    rw [hstep, schedule_snd]
    split_ifs
    · exact Or.inr rfl
    · exact Or.inl rfl
  rcases hqueue with hstep | hstep
  · exact h.of_stat_eq (by rw [hstep]) (by rw [hstep]) (by simp [hstep]) (by simp [hstep])
  · exact h.of_stat_eq (by rw [hstep]) (by rw [hstep]) (by simp [hstep]) (by simp [hstep])

theorem Alive.next (h : Alive r) (hc : Reconnects r ev) : Alive (wifiNext r ev) := by
  cases ev with
  | driver event post => exact h.driver hc
  | timer post => exact h.timer hc
  | process => exact h.process
  | request post => exact h.of_schedule (netconnWifiConnect_eq r.conn post)
  | close post => exact h.of_schedule (netconnWifiDisconnect_eq r.conn post)
  | reset =>
    exact Alive.of_stat_ne (by simp [wifiStep]) (by simpa [wifiStep] using h.count_lt)
      (by simp [wifiStep])
  | resetEvent =>
    exact Alive.of_stat_ne (by simp [wifiStep]) (by simpa [wifiStep] using h.count_lt)
      (by simp [wifiStep])

theorem reconnects_of_notStalled (h : NotStalled (wifiNext r ev)) : Reconnects r ev := by
  cases ev with
  | driver event post =>
    intro hevent hstat
    have hstep : (wifiStep r.conn (.driver event post)).2 = r.conn.afterLoss post :=
      netconnWifiEvent_of_ne hevent
    rw [WifiConn.afterLoss, hstat] at hstep
    have hlost : (wifiNext r (.driver event post)).lost = true :=
      wifiNext_lost_iff.2 ⟨by simp [hstep], Or.inr hstat⟩
    have := h.2 (Or.inr (Or.inr ⟨by simp [wifiNext_conn, hstep], hlost⟩))
    by_cases hok : post.Ok
    · exact Or.inl hok
    · simpa [wifiNext_conn, hstep, hok] using this
  | timer post =>
    intro ht hstat
    have hstep : (wifiStep r.conn (.timer post)).2 = _ := netconnWifiConnTimer_wait ht hstat
    have := h.2 (Or.inl (by simp [wifiNext_conn, hstep]))
    by_cases hok : post.Ok
    · exact Or.inl hok
    · simpa [wifiNext_conn, hstep, hok] using this
  | process | request | close | reset | resetEvent => trivial

theorem alive_init : Alive WifiRun.init :=
  ⟨by decide, by decide, by decide⟩

/-- **Reconnection.** Along every run of driver events, expirations of the timer, messages, requests
and stops, every step leaves reconnection alive exactly when every connect message that the timer
or a lost link asks for is queued. -/
theorem notStalled_iff (evs : List WifiEvent) :
    Guarded wifiNext (fun r ev => NotStalled (wifiNext r ev)) WifiRun.init evs ↔
      Guarded wifiNext Reconnects WifiRun.init evs :=
  guarded_iff_of_invariant
    (fun _ _ h => ⟨reconnects_of_notStalled, fun hc => (h.next hc).notStalled⟩)
    (fun _ _ h hc => h.next hc) alive_init

/-- There is no memory for a connect message when the link is lost. -/
theorem not_notStalled_lost :
    ¬Guarded wifiNext (fun r ev => NotStalled (wifiNext r ev)) WifiRun.init
      [.request posted, .process, .driver .connected posted,
        .driver .disconnected ⟨false, oprtOk⟩] := by
  rintro ⟨-, -, -, ⟨-, hlost⟩, -⟩
  exact absurd (hlost (Or.inr (Or.inr (by decide)))) (by decide)

end TuyaOpen.Netmgr
