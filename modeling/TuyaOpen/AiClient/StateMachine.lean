import Mathlib.Data.Fin.VecNotation
import TuyaOpen.AiProtocol.Types
import TuyaOpen.Basic.Transition
import TuyaOpen.Common.OperateRet

/-!
# The client of the AI service

`tuya_ai_client.c`. The client thread walks through the states `AI_STATE_IDLE` to
`AI_STATE_RUNNING`: in every pass it calls the function of its state. The timer thread runs
`__ai_alive_timeout`, a work queue runs `__ai_ping`, and any other thread may call the functions of
the header. The client thread waits in the calls of the protocol and in `tal_system_sleep`, and the
other threads go on meanwhile: a step below lasts from one wait to the next.

A timer that has been chosen by the timer thread can be stopped no more, and a ping that is in the
work queue is sent whatever happens to the timer that has put it there.
-/

namespace TuyaOpen.AiClient

open TuyaOpen.AiProtocol

/-! ### The record -/

/-- `AI_CLIENT_STATE_E`. -/
inductive AiClientState
  | idle
  | setup
  | connect
  | clientHello
  | authReq
  | authResp
  | running
  deriving DecidableEq

/-- `AI_RECONN_TIME_NUM`. -/
abbrev aiReconnTimeNum : Nat := 7

/-- `AT_PING_TIMEOUT`. -/
def atPingTimeout : Nat := 6

/-- `AI_RECONN_TIME_T`. -/
structure AiReconnTime where
  min : Nat
  max : Nat

/-- The `reconn` of `tuya_ai_client_init`. -/
def reconn : Fin aiReconnTimeNum → AiReconnTime :=
  ![⟨5, 10⟩, ⟨10, 20⟩, ⟨20, 40⟩, ⟨40, 80⟩, ⟨80, 160⟩, ⟨160, 320⟩, ⟨320, 640⟩]

/-- `AI_PT_PONG`. -/
def aiPtPong : UInt8 := 5

/-- `AI_PT_CONN_CLOSE`. -/
def aiPtConnClose : UInt8 := 6

/-- `AI_PT_CONN_REFRESH_RESP`. -/
def aiPtConnRefreshResp : UInt8 := 10

/-- `AI_HAS_ATTR`. -/
def aiHasAttr : UInt8 := 1

/-- What `__ai_running` looks at in a packet. -/
structure Packet where
  frag : AiFragFlag
  type : UInt8
  attributeFlag : UInt8

/-- The timers: `tid`, `alive_timeout_timer`, and the one of `alive_work`. -/
inductive ClientTimer
  | refresh
  | aliveTimeout
  | aliveWork
  deriving DecidableEq

/-- What the client thread does when it wakes up in `__ai_client_handle_err`. -/
inductive Wake
  | reconn
  | setup
  | again

inductive ClientThread
  /-- At the `switch`. -/
  | loop
  /-- In the function of a state, it waits for the answer of the protocol. -/
  | call (st : AiClientState)
  /-- In `__ai_client_handle_err`, it sleeps. -/
  | sleep (wake : Wake)
  /-- In `__ai_conn_close`, it waits for `tuya_ai_basic_conn_close`. -/
  | closing

inductive TimerThread
  | loop
  /-- It has chosen a timer, and is about to run its callback. -/
  | selected (t : ClientTimer)
  /-- In `__ai_conn_close`, it waits for `tuya_ai_basic_conn_close`. -/
  | closing

/-- `AI_BASIC_CLIENT_T`, with the timers that run, the number of pings in the work queue, and the
threads. -/
structure AiBasicClient (κ : Type) where
  reconnCnt : Fin aiReconnTimeNum
  state : AiClientState
  heartbeatInterval : Nat
  heartbeatLostCnt : UInt8
  cb : Option κ
  timers : ClientTimer → Bool
  pings : Nat
  thread : ClientThread
  timerThread : TimerThread

inductive ClientEvent
  | run
  | close
  deriving DecidableEq

inductive Action (κ : Type)
  /-- The call that the function of a state makes has returned `rt`. -/
  | call (st : AiClientState) (rt : OperateRet)
  | sleep (ms : Nat)
  /-- `__ai_running` has got a packet. -/
  | packet (p : Packet)
  /-- The callback gets a packet. -/
  | data (cb : κ) (p : Packet)
  | publish (ev : ClientEvent)
  /-- `tuya_ai_client_stop_ping`. -/
  | stopPing
  /-- `tuya_ai_basic_conn_close`. -/
  | connClose
  /-- `__ai_alive_timeout`. -/
  | aliveTimeout
  /-- `tuya_ai_basic_ping`. -/
  | ping
  /-- `tuya_ai_basic_refresh_req`. -/
  | refreshReq
  | startTimer (t : ClientTimer) (ms : Nat)

variable {κ : Type}

/-- `tuya_ai_client_init`, when it succeeds: the thread runs, and `tuya_ai_biz_init` has
registered the callback. -/
def aiClientInit (cb : Option κ) : AiBasicClient κ where
  reconnCnt := 0
  state := .idle
  heartbeatInterval := 30
  heartbeatLostCnt := 0
  cb := cb
  timers := fun _ => false
  pings := 0
  thread := .loop
  timerThread := .loop

/-! ### The functions -/

/-- `__ai_get_random_value`, where `uni_random` gives `random`. -/
def aiGetRandomValue (min max random : Nat) : Nat := min + random % (max - min + 1)

/-- The answers that the calls of the protocol give to the client thread. -/
structure Answer where
  rt : OperateRet
  /-- What `tuya_ai_basic_pkt_read` has read, `none` for a null `de_buf`. -/
  packet : Option Packet
  /-- The return value of `tuya_ai_refresh_resp`. -/
  refreshRt : OperateRet
  /-- `expire` of `tuya_ai_basic_get_atop_cfg`, and the time. -/
  expire : UInt64
  current : UInt64
  random : Nat

namespace AiBasicClient

/-- `__ai_client_set_state`. -/
def setState (s : AiBasicClient κ) (st : AiClientState) : AiBasicClient κ := { s with state := st }

/-- `tal_sw_timer_start`, `tal_workq_start_delayed`. -/
def startTimer (s : AiBasicClient κ) (t : ClientTimer) : AiBasicClient κ :=
  { s with timers := Function.update s.timers t true }

/-- `tal_sw_timer_stop`, `tal_workq_stop_delayed`. -/
def stopTimer (s : AiBasicClient κ) (t : ClientTimer) : AiBasicClient κ :=
  { s with timers := Function.update s.timers t false }

/-- `__ai_stop_alive_time`. -/
def aiStopAliveTime (s : AiBasicClient κ) : AiBasicClient κ :=
  { s with heartbeatLostCnt := 0 }.stopTimer .aliveTimeout

/-- `tuya_ai_client_stop_ping`. -/
def aiClientStopPing (s : AiBasicClient κ) : AiBasicClient κ × List (Action κ) :=
  ((s.stopTimer .aliveWork).aiStopAliveTime, [.stopPing])

/-- `__ai_conn_close`, up to the answer of `tuya_ai_basic_conn_close`. -/
def aiConnClose (s : AiBasicClient κ) : AiBasicClient κ × List (Action κ) :=
  let r := s.aiClientStopPing
  (r.1, .publish .close :: r.2 ++ [.connClose])

/-- `tal_workq_start_delayed` of `alive_work`. -/
def startAliveWork (s : AiBasicClient κ) (ms : Nat) : AiBasicClient κ × List (Action κ) :=
  (s.startTimer .aliveWork, [.startTimer .aliveWork ms])

/-- `__ai_start_expire_tid`. The time is an unsigned number of milliseconds. -/
def aiStartExpireTid (s : AiBasicClient κ) (expire current : UInt64) :
    AiBasicClient κ × List (Action κ) :=
  if expire ≤ current then (s, [])
  else
    ((s.stopTimer .refresh).startTimer .refresh,
      [.startTimer .refresh ((expire - current - 10) * 1000).toNat])

def sleep (s : AiBasicClient κ) (ms : Nat) (wake : Wake) : AiBasicClient κ × List (Action κ) :=
  ({ s with thread := .sleep wake }, [.sleep ms])

/-- `__ai_client_handle_err`, up to the end of its wait. -/
def aiClientHandleErr (s : AiBasicClient κ) (random : Nat) : AiBasicClient κ × List (Action κ) :=
  match s.state with
  | .setup =>
    let t := reconn s.reconnCnt
    s.sleep (aiGetRandomValue t.min t.max random * 1000) .reconn
  | .connect | .authResp => s.sleep 1000 .setup
  | .running =>
    let r := s.aiConnClose
    ({ r.1 with thread := .closing }, r.2)
  | .idle | .clientHello | .authReq => s.sleep 1000 .again

/-- `reconn_cnt` after a sleep in `AI_STATE_SETUP`. -/
def bumpReconn (s : AiBasicClient κ) : AiBasicClient κ :=
  { s with
    reconnCnt :=
      if h : s.reconnCnt.val + 1 < aiReconnTimeNum then ⟨s.reconnCnt + 1, h⟩
      else Fin.last (aiReconnTimeNum - 1) }

/-- What `__ai_client_handle_err` does after its wait. -/
def wakeUp (s : AiBasicClient κ) : Wake → AiBasicClient κ
  | .reconn => s.bumpReconn
  | .setup => s.setState .setup
  | .again => s

/-- `__ai_handle_pong`. -/
def aiHandlePong (s : AiBasicClient κ) : AiBasicClient κ × List (Action κ) :=
  s.startAliveWork (s.heartbeatInterval * 1000)

/-- `__ai_handle_refresh_resp`. -/
def aiHandleRefreshResp (s : AiBasicClient κ) (p : Packet) (a : Answer) :
    AiBasicClient κ × List (Action κ) :=
  if p.attributeFlag ≠ aiHasAttr then (s, [])
  else if a.refreshRt ≠ oprtOk then (s, [])
  else s.aiStartExpireTid a.expire a.current

/-- `__ai_handle_conn_close`. -/
def aiHandleConnClose (s : AiBasicClient κ) (p : Packet) : AiBasicClient κ × List (Action κ) :=
  if p.attributeFlag ≠ aiHasAttr then (s, [])
  else (s.setState .setup, [.publish .close])

def handData (s : AiBasicClient κ) (p : Packet) : AiBasicClient κ × List (Action κ) :=
  (s, match s.cb with
    | none => []
    | some cb => [.data cb p])

/-- The handlers of `__ai_running`. -/
def aiHandlePacket (s : AiBasicClient κ) (p : Packet) (a : Answer) :
    AiBasicClient κ × List (Action κ) :=
  if p.frag = .noFrag ∨ p.frag = .fragStart then
    if p.type = aiPtPong then s.aiHandlePong
    else if p.type = aiPtConnRefreshResp then s.aiHandleRefreshResp p a
    else if p.type = aiPtConnClose then s.aiHandleConnClose p
    else s.handData p
  else s.handData p

/-- `__ai_running` from the answer of `tuya_ai_basic_pkt_read` on: its return value, the state and
what it does. -/
def aiRunning (s : AiBasicClient κ) (a : Answer) :
    OperateRet × AiBasicClient κ × List (Action κ) :=
  if a.rt = oprtResourceNotReady then (oprtOk, s, [])
  else if a.rt ≠ oprtOk then (a.rt, s, [])
  else
    match a.packet with
    | none => (a.rt, s, [])
    | some p =>
      let r := s.aiStopAliveTime.aiHandlePacket p a
      (a.rt, r.1, .packet p :: r.2)

/-- `__ai_idle` from the answer of `netmgr_conn_get` on. -/
def aiIdle (s : AiBasicClient κ) (a : Answer) : OperateRet × AiBasicClient κ × List (Action κ) :=
  if a.rt ≠ oprtOk then (a.rt, s, []) else (oprtOk, s.setState .setup, [])

/-- `__ai_setup` from the answer of `tuya_ai_basic_atop_req` on. -/
def aiSetup (s : AiBasicClient κ) (a : Answer) : OperateRet × AiBasicClient κ × List (Action κ) :=
  if a.rt ≠ oprtOk then (a.rt, s, [])
  else
    let r := s.aiStartExpireTid a.expire a.current
    (oprtOk, (r.1.stopTimer .aliveWork).setState .connect, r.2)

/-- `__ai_connect` from the answer of `tuya_ai_basic_connect` on. -/
def aiConnect (s : AiBasicClient κ) (a : Answer) :
    OperateRet × AiBasicClient κ × List (Action κ) :=
  if a.rt ≠ oprtOk then (a.rt, s, [])
  else (a.rt, { s with reconnCnt := 0 }.setState .clientHello, [])

/-- `__ai_client_hello` from the answer of `tuya_ai_basic_client_hello` on. -/
def aiClientHello (s : AiBasicClient κ) (a : Answer) :
    OperateRet × AiBasicClient κ × List (Action κ) :=
  if a.rt ≠ oprtOk then (a.rt, s, []) else (a.rt, s.setState .authReq, [])

/-- `__ai_auth_req` from the answer of `tuya_ai_basic_auth_req` on. -/
def aiAuthReq (s : AiBasicClient κ) (a : Answer) :
    OperateRet × AiBasicClient κ × List (Action κ) :=
  if a.rt ≠ oprtOk then (a.rt, s, []) else (a.rt, s.setState .authResp, [])

/-- `__ai_auth_resp` from the answer of `tuya_ai_auth_resp` on. -/
def aiAuthResp (s : AiBasicClient κ) (a : Answer) :
    OperateRet × AiBasicClient κ × List (Action κ) :=
  if a.rt ≠ oprtOk then (a.rt, s, [])
  else
    let r := { s with heartbeatLostCnt := 0 }.startAliveWork (s.heartbeatInterval * 1000)
    (a.rt, r.1.setState .running, r.2 ++ [.publish .run])

/-- The `switch` of `__ai_client_thread_cb`: the function of a state, from the answer of the call
that it makes on. -/
def aiState (s : AiBasicClient κ) (a : Answer) :
    AiClientState → OperateRet × AiBasicClient κ × List (Action κ)
  | .idle => s.aiIdle a
  | .setup => s.aiSetup a
  | .connect => s.aiConnect a
  | .clientHello => s.aiClientHello a
  | .authReq => s.aiAuthReq a
  | .authResp => s.aiAuthResp a
  | .running => s.aiRunning a

/-- A pass of `__ai_client_thread_cb` from the answer of the protocol to its next wait. -/
def clientThreadCb (s : AiBasicClient κ) (st : AiClientState) (a : Answer) :
    AiBasicClient κ × List (Action κ) :=
  let r := s.aiState a st
  if r.1 ≠ oprtOk then
    let e := r.2.1.aiClientHandleErr a.random
    (e.1, .call st a.rt :: r.2.2 ++ e.2)
  else ({ r.2.1 with thread := .loop }, .call st a.rt :: r.2.2)

/-- `__ai_ping`. -/
def aiPing (s : AiBasicClient κ) : AiBasicClient κ × List (Action κ) :=
  (s.startTimer .aliveTimeout, [.startTimer .aliveTimeout (atPingTimeout * 1000), .ping])

/-- `__ai_alive_timeout`, up to its wait. -/
def aiAliveTimeout (s : AiBasicClient κ) : AiBasicClient κ × List (Action κ) :=
  let s := { s with heartbeatLostCnt := s.heartbeatLostCnt + 1 }
  if 3 ≤ s.heartbeatLostCnt then
    let r := s.aiConnClose
    ({ r.1 with timerThread := .closing }, .aliveTimeout :: r.2)
  else
    let r := s.startAliveWork 10
    ({ r.1 with timerThread := .loop }, .aliveTimeout :: r.2)

def timerCb (s : AiBasicClient κ) : ClientTimer → AiBasicClient κ × List (Action κ)
  | .refresh => ({ s with timerThread := .loop }, [.refreshReq])
  | .aliveTimeout => s.aiAliveTimeout
  | .aliveWork => ({ s with pings := s.pings + 1, timerThread := .loop }, [])

end AiBasicClient

/-! ### The steps -/

inductive Event (κ : Type)
  /-- The client thread reads its state and calls the function of it. -/
  | dispatch
  | answer (a : Answer)
  | wakeUp
  /-- `tuya_ai_basic_conn_close` returns to the client thread. -/
  | closed
  /-- The time of a timer has come. -/
  | due (t : ClientTimer)
  /-- The timer thread runs the callback of the timer that it has chosen. -/
  | timerCb
  /-- `tuya_ai_basic_conn_close` returns to the timer thread. -/
  | timerClosed
  /-- The work queue runs a ping. -/
  | work
  /-- `tuya_ai_client_start_ping`. -/
  | startPing
  /-- `tuya_ai_client_stop_ping`. -/
  | stopPing
  /-- `tuya_ai_client_reg_cb`. -/
  | regCb (cb : Option κ)

/-- What the threads do, and the state afterwards. Where an event is impossible, nothing
happens. -/
def step (s : AiBasicClient κ) (ev : Event κ) : List (Action κ) × AiBasicClient κ :=
  match ev, s.thread, s.timerThread with
  | .dispatch, .loop, _ => ([], { s with thread := .call s.state })
  | .answer a, .call st, _ => (s.clientThreadCb st a).swap
  | .wakeUp, .sleep w, _ => ([], { s.wakeUp w with thread := .loop })
  | .closed, .closing, _ => ([], { s.setState .idle with thread := .loop })
  | .due t, _, .loop =>
    if s.timers t then ([], { s.stopTimer t with timerThread := .selected t }) else ([], s)
  | .timerCb, _, .selected t => (s.timerCb t).swap
  | .timerClosed, _, .closing => ([], { s.setState .idle with timerThread := .loop })
  | .work, _, _ => if s.pings = 0 then ([], s) else { s with pings := s.pings - 1 }.aiPing.swap
  | .startPing, _, _ => s.aiPing.swap
  | .stopPing, _, _ => s.aiClientStopPing.swap
  | .regCb cb, _, _ => ([], { s with cb := cb })
  | _, _, _ => ([], s)

def after (cb : Option κ) (evs : List (Event κ)) : AiBasicClient κ :=
  (outputs step (aiClientInit cb) evs).2

def trace (cb : Option κ) (evs : List (Event κ)) : List (Action κ) :=
  (outputs step (aiClientInit cb) evs).1.flatten

open AiBasicClient

/-! ### What a step can be -/

/-- What a handler of `__ai_running` can do. -/
inductive Handled (s : AiBasicClient κ) : AiBasicClient κ → List (Action κ) → Prop
  | nothing : Handled s s []
  | pong (ms : Nat) : Handled s (s.startTimer .aliveWork) [.startTimer .aliveWork ms]
  | refresh (ms : Nat) :
      Handled s ((s.stopTimer .refresh).startTimer .refresh) [.startTimer .refresh ms]
  | connClose : Handled s (s.setState .setup) [.publish .close]
  | data (cb : κ) (p : Packet) : Handled s s [.data cb p]

/-- What `__ai_running` can do. -/
inductive Ran (s : AiBasicClient κ) (a : Answer) :
    OperateRet → AiBasicClient κ → List (Action κ) → Prop
  | notReady (h : a.rt = oprtResourceNotReady) : Ran s a oprtOk s []
  | failed (h : a.rt ≠ oprtResourceNotReady) (h' : a.rt ≠ oprtOk) : Ran s a a.rt s []
  | empty (h : a.rt = oprtOk) : Ran s a oprtOk s []
  | packet (h : a.rt = oprtOk) (p : Packet) {s' : AiBasicClient κ} {o : List (Action κ)}
      (hs' : Handled s.aiStopAliveTime s' o) : Ran s a oprtOk s' (.packet p :: o)

inductive Called (s : AiBasicClient κ) (a : Answer) :
    AiClientState → OperateRet → AiBasicClient κ → List (Action κ) → Prop
  | failed {st : AiClientState} (hst : st ≠ .running) (h : a.rt ≠ oprtOk) :
      Called s a st a.rt s []
  | idle (h : a.rt = oprtOk) : Called s a .idle oprtOk (s.setState .setup) []
  | setup (h : a.rt = oprtOk) :
      Called s a .setup oprtOk ((s.stopTimer .aliveWork).setState .connect) []
  | setupRefresh (h : a.rt = oprtOk) (ms : Nat) :
      Called s a .setup oprtOk
        ((((s.stopTimer .refresh).startTimer .refresh).stopTimer .aliveWork).setState .connect)
        [.startTimer .refresh ms]
  | connect (h : a.rt = oprtOk) :
      Called s a .connect oprtOk ({ s with reconnCnt := 0 }.setState .clientHello) []
  | clientHello (h : a.rt = oprtOk) : Called s a .clientHello oprtOk (s.setState .authReq) []
  | authReq (h : a.rt = oprtOk) : Called s a .authReq oprtOk (s.setState .authResp) []
  | authResp (h : a.rt = oprtOk) (ms : Nat) :
      Called s a .authResp oprtOk
        (({ s with heartbeatLostCnt := 0 }.startTimer .aliveWork).setState .running)
        [.startTimer .aliveWork ms, .publish .run]
  | running {rt : OperateRet} {s' : AiBasicClient κ} {o : List (Action κ)} (h : Ran s a rt s' o) :
      Called s a .running rt s' o

/-- What `__ai_client_handle_err` can do. -/
inductive Erred (s : AiBasicClient κ) : AiBasicClient κ → List (Action κ) → Prop
  | reconn (h : s.state = .setup) {sec : Nat} (hmin : (reconn s.reconnCnt).min ≤ sec)
      (hmax : sec ≤ (reconn s.reconnCnt).max) :
      Erred s { s with thread := .sleep .reconn } [.sleep (sec * 1000)]
  | setup (h : s.state = .connect ∨ s.state = .authResp) :
      Erred s { s with thread := .sleep .setup } [.sleep 1000]
  | again (h : s.state = .idle ∨ s.state = .clientHello ∨ s.state = .authReq) :
      Erred s { s with thread := .sleep .again } [.sleep 1000]
  | closing (h : s.state = .running) :
      Erred s { (s.stopTimer .aliveWork).aiStopAliveTime with thread := .closing }
        [.publish .close, .stopPing, .connClose]

inductive Fired (s : AiBasicClient κ) : ClientTimer → AiBasicClient κ → List (Action κ) → Prop
  | refresh : Fired s .refresh { s with timerThread := .loop } [.refreshReq]
  | aliveWork : Fired s .aliveWork { s with pings := s.pings + 1, timerThread := .loop } []
  | lost (h : 3 ≤ s.heartbeatLostCnt + 1) :
      Fired s .aliveTimeout
        { (s.stopTimer .aliveWork).aiStopAliveTime with timerThread := .closing }
        [.aliveTimeout, .publish .close, .stopPing, .connClose]
  | again (h : ¬3 ≤ s.heartbeatLostCnt + 1) (ms : Nat) :
      Fired s .aliveTimeout
        { { s with heartbeatLostCnt := s.heartbeatLostCnt + 1 }.startTimer .aliveWork with
          timerThread := .loop }
        [.aliveTimeout, .startTimer .aliveWork ms]

inductive Step (s : AiBasicClient κ) : List (Action κ) → AiBasicClient κ → Prop
  | dispatch (h : s.thread = .loop) : Step s [] { s with thread := .call s.state }
  | passed {a : Answer} {st : AiClientState} (h : s.thread = .call st) {s' : AiBasicClient κ}
      {o : List (Action κ)} (hs' : Called s a st oprtOk s' o) :
      Step s (.call st a.rt :: o) { s' with thread := .loop }
  | erred {a : Answer} {st : AiClientState} (h : s.thread = .call st) {rt : OperateRet}
      {s' s'' : AiBasicClient κ} {o o' : List (Action κ)} (hs' : Called s a st rt s' o)
      (hrt : rt ≠ oprtOk) (hs'' : Erred s' s'' o') : Step s (.call st a.rt :: o ++ o') s''
  | wakeUp {w : Wake} (h : s.thread = .sleep w) : Step s [] { s.wakeUp w with thread := .loop }
  | closed (h : s.thread = .closing) : Step s [] { s.setState .idle with thread := .loop }
  | due {t : ClientTimer} (h : s.timerThread = .loop) (ht : s.timers t) :
      Step s [] { s.stopTimer t with timerThread := .selected t }
  | timerCb {t : ClientTimer} (h : s.timerThread = .selected t) {s' : AiBasicClient κ}
      {o : List (Action κ)} (hs' : Fired s t s' o) : Step s o s'
  | timerClosed (h : s.timerThread = .closing) :
      Step s [] { s.setState .idle with timerThread := .loop }
  | work (h : s.pings ≠ 0) (ms : Nat) :
      Step s [.startTimer .aliveTimeout ms, .ping]
        ({ s with pings := s.pings - 1 }.startTimer .aliveTimeout)
  | startPing (ms : Nat) : Step s [.startTimer .aliveTimeout ms, .ping] (s.startTimer .aliveTimeout)
  | stopPing : Step s [.stopPing] (s.stopTimer .aliveWork).aiStopAliveTime
  | regCb (cb : Option κ) : Step s [] { s with cb := cb }
  | nothing : Step s [] s

theorem aiStartExpireTid_cases (s : AiBasicClient κ) (expire current : UInt64) :
    s.aiStartExpireTid expire current = (s, []) ∨
      ∃ ms, s.aiStartExpireTid expire current =
        ((s.stopTimer .refresh).startTimer .refresh, [.startTimer .refresh ms]) := by
  unfold aiStartExpireTid
  split_ifs
  · exact .inl rfl
  · exact .inr ⟨_, rfl⟩

theorem aiHandlePacket_cases (s : AiBasicClient κ) (p : Packet) (a : Answer) :
    Handled s (s.aiHandlePacket p a).1 (s.aiHandlePacket p a).2 := by
  have hdata : Handled s (s.handData p).1 (s.handData p).2 := by
    unfold handData
    cases s.cb with
    | none => exact .nothing
    | some cb => exact .data cb p
  unfold aiHandlePacket
  split_ifs
  · exact .pong _
  · unfold aiHandleRefreshResp
    split_ifs
    · exact .nothing
    · exact .nothing
    · rcases aiStartExpireTid_cases s a.expire a.current with h | ⟨ms, h⟩
      · exact h ▸ .nothing
      · exact h ▸ .refresh ms
  · unfold aiHandleConnClose
    split_ifs
    · exact .nothing
    · exact .connClose
  · exact hdata
  · exact hdata

theorem aiRunning_cases (s : AiBasicClient κ) (a : Answer) :
    Ran s a (s.aiRunning a).1 (s.aiRunning a).2.1 (s.aiRunning a).2.2 := by
  unfold aiRunning
  split_ifs with hready hok
  · exact .notReady hready
  · exact .failed hready hok
  · rw [not_not] at hok
    cases a.packet with
    | none => exact hok ▸ .empty hok
    | some p =>
      dsimp only
      rw [hok]
      exact .packet hok p (aiHandlePacket_cases _ p a)

theorem aiState_cases (s : AiBasicClient κ) (a : Answer) (st : AiClientState) :
    Called s a st (s.aiState a st).1 (s.aiState a st).2.1 (s.aiState a st).2.2 := by
  by_cases h : a.rt = oprtOk
  · cases st with
    | idle => simpa [aiState, aiIdle, h] using Called.idle h
    | setup =>
      rcases aiStartExpireTid_cases s a.expire a.current with he | ⟨ms, he⟩
      · simpa [aiState, aiSetup, h, he] using Called.setup h
      · simpa [aiState, aiSetup, h, he] using Called.setupRefresh h ms
    | connect => simpa [aiState, aiConnect, h] using Called.connect h
    | clientHello => simpa [aiState, aiClientHello, h] using Called.clientHello h
    | authReq => simpa [aiState, aiAuthReq, h] using Called.authReq h
    | authResp =>
      simpa [aiState, aiAuthResp, startAliveWork, h] using Called.authResp h _
    | running => exact .running (aiRunning_cases s a)
  · have hfailed : ∀ st, st ≠ .running → Called s a st a.rt s [] := fun st hst => .failed hst h
    cases st with
    | running => exact .running (aiRunning_cases s a)
    | idle => simpa [aiState, aiIdle, h] using hfailed .idle nofun
    | setup => simpa [aiState, aiSetup, h] using hfailed .setup nofun
    | connect => simpa [aiState, aiConnect, h] using hfailed .connect nofun
    | clientHello => simpa [aiState, aiClientHello, h] using hfailed .clientHello nofun
    | authReq => simpa [aiState, aiAuthReq, h] using hfailed .authReq nofun
    | authResp => simpa [aiState, aiAuthResp, h] using hfailed .authResp nofun

theorem le_aiGetRandomValue (min max random : Nat) : min ≤ aiGetRandomValue min max random :=
  Nat.le_add_right _ _

theorem aiGetRandomValue_le {min max : Nat} (h : min ≤ max) (random : Nat) :
    aiGetRandomValue min max random ≤ max := by
  have hlt : random % (max - min + 1) < max - min + 1 := Nat.mod_lt _ (Nat.succ_pos _)
  unfold aiGetRandomValue
  omega

theorem reconn_eq : ∀ i : Fin aiReconnTimeNum, reconn i = ⟨5 * 2 ^ i.val, 10 * 2 ^ i.val⟩
  | 0 | 1 | 2 | 3 | 4 | 5 | 6 => rfl

theorem aiClientHandleErr_cases (s : AiBasicClient κ) (random : Nat) :
    Erred s (s.aiClientHandleErr random).1 (s.aiClientHandleErr random).2 := by
  unfold aiClientHandleErr
  split
  case h_1 h =>
    have hle : (reconn s.reconnCnt).min ≤ (reconn s.reconnCnt).max := by
      rw [reconn_eq]
      dsimp only
      omega
    exact .reconn h (le_aiGetRandomValue _ _ _) (aiGetRandomValue_le hle _)
  case h_2 h => exact .setup (.inl h)
  case h_3 h => exact .setup (.inr h)
  case h_4 h => exact .closing h
  case h_5 h => exact .again (.inl h)
  case h_6 h => exact .again (.inr (.inl h))
  case h_7 h => exact .again (.inr (.inr h))

theorem clientThreadCb_cases {s : AiBasicClient κ} {st : AiClientState} (h : s.thread = .call st)
    (a : Answer) : Step s (s.clientThreadCb st a).2 (s.clientThreadCb st a).1 := by
  have hcalled := aiState_cases s a st
  unfold clientThreadCb
  by_cases hrt : (s.aiState a st).1 = oprtOk
  · rw [hrt] at hcalled
    simpa [hrt] using Step.passed h hcalled
  · simpa [hrt] using Step.erred h hcalled hrt (aiClientHandleErr_cases _ a.random)

theorem timerCb_cases (s : AiBasicClient κ) (t : ClientTimer) :
    Fired s t (s.timerCb t).1 (s.timerCb t).2 := by
  cases t with
  | refresh => exact .refresh
  | aliveWork => exact .aliveWork
  | aliveTimeout =>
    unfold timerCb aiAliveTimeout
    dsimp only
    split_ifs with h
    · exact .lost h
    · exact .again h 10

theorem step_cases (s : AiBasicClient κ) (ev : Event κ) : Step s (step s ev).1 (step s ev).2 := by
  cases ev with
  | dispatch =>
    cases h : s.thread with
    | loop => simpa [step, h] using Step.dispatch h
    | _ => simpa [step, h] using Step.nothing
  | answer a =>
    cases h : s.thread with
    | call st => simpa [step, h] using clientThreadCb_cases h a
    | _ => simpa [step, h] using Step.nothing
  | wakeUp =>
    cases h : s.thread with
    | sleep w => simpa [step, h] using Step.wakeUp h
    | _ => simpa [step, h] using Step.nothing
  | closed =>
    cases h : s.thread with
    | closing => simpa [step, h] using Step.closed h
    | _ => simpa [step, h] using Step.nothing
  | due t =>
    cases h : s.timerThread with
    | loop =>
      by_cases ht : s.timers t
      · simpa [step, h, ht] using Step.due h ht
      · simpa [step, h, ht] using Step.nothing
    | _ => simpa [step, h] using Step.nothing
  | timerCb =>
    cases h : s.timerThread with
    | selected t => simpa [step, h] using Step.timerCb h (timerCb_cases s t)
    | _ => simpa [step, h] using Step.nothing
  | timerClosed =>
    cases h : s.timerThread with
    | closing => simpa [step, h] using Step.timerClosed h
    | _ => simpa [step, h] using Step.nothing
  | work =>
    by_cases h : s.pings = 0
    · simpa [step, h] using Step.nothing
    · simpa [step, h, aiPing] using Step.work h _
  | startPing => exact .startPing _
  | stopPing => exact .stopPing
  | regCb cb => exact .regCb cb

theorem trace_invariant {cb : Option κ} {Inv : AiBasicClient κ → List (Action κ) → Prop}
    (hinit : Inv (aiClientInit cb) [])
    (hstep : ∀ s tr o s', Inv s tr → Step s o s' → Inv s' (tr ++ o)) (evs : List (Event κ)) :
    Inv (after cb evs) (trace cb evs) := by
  have h := outputs_invariant (fun s tr ev hs => hstep s tr _ _ hs (step_cases s ev)) hinit evs
  rwa [List.nil_append] at h

end TuyaOpen.AiClient
