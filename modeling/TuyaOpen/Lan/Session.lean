import Mathlib.Data.List.Perm.Subperm
import TuyaOpen.Basic.Bytes
import TuyaOpen.Basic.Transition

/-!
# Sessions of the LAN service

The table of sessions of `tuya_lan.c` and the socket loop of `lan_sock.c` that serves them. A
session is added when a connection is accepted, and its socket is then handed to the socket loop
through a queue; it is closed by the functions that check times, read frames or stop the service,
and its socket is closed later, when the loop takes the request to unregister it.

Whether a request gets into the queue is up to the queue. The descriptor of an accepted connection
is any that is not open, so descriptors come back after they have been closed.
-/

namespace TuyaOpen.Lan

/-! ### Sessions -/

/-- `lan_session_t`. -/
structure LanSession where
  active : Bool
  fault : Bool
  fd : Int
  time : UInt32
  sequenceIn : UInt32
  sequenceOut : UInt32
  randA : Bytes
  randB : Bytes
  hmac : Bytes
  secretKey : Bytes
  deriving DecidableEq

/-- `RAND_LEN`. -/
def randLen : Nat := 16

/-- `HMAC_LEN`. -/
def hmacLen : Nat := 32

/-- `SESSIONKEY_LEN`. -/
def sessionkeyLen : Nat := 16

/-- A session after `memset` with zero. -/
def zeroSession : LanSession where
  active := false
  fault := false
  fd := 0
  time := 0
  sequenceIn := 0
  sequenceOut := 0
  randA := List.replicate randLen 0
  randB := List.replicate randLen 0
  hmac := List.replicate hmacLen 0
  secretKey := List.replicate sessionkeyLen 0

/-- What `lan_session_free` leaves of a session. -/
def lanSessionFree : LanSession := { zeroSession with fd := -1 }

/-- `lan_session_close`: the number of sessions and the session after it, and the sockets that it
asks the socket loop to unregister. -/
def lanSessionClose (fdNum : Nat) (session : LanSession) : Nat × LanSession × List Int :=
  if fdNum = 0 ∨ session.active = false then (fdNum, session, [])
  else if session.fd ≠ -1 then (fdNum - 1, lanSessionFree, [session.fd])
  else (fdNum, session, [])

/-- `lan_session_fault_set`. -/
def lanSessionFaultSet (fdNum : Nat) (session : LanSession) : LanSession :=
  if fdNum = 0 ∨ session.active = false ∨ session.fd < 0 then session
  else { session with fault := true }

/-- `lan_session_time_update`. -/
def lanSessionTimeUpdate (fdNum : Nat) (session : LanSession) (time : UInt32) : LanSession :=
  if fdNum = 0 ∨ session.active = false then session else { session with time := time }

/-- The session that `lan_sesison_add` makes of a free one. -/
def newSession (socket : Int) (time sequenceOut : UInt32) : LanSession :=
  { lanSessionFree with active := true, fd := socket, time := time, sequenceOut := sequenceOut }

/-- The loop of `lan_sesison_add`: the first session that is not active is taken. -/
def addSession (new : LanSession) : List LanSession → Option (List LanSession)
  | [] => none
  | s :: ss => if s.active then (addSession new ss).map (s :: ·) else some (new :: ss)

/-- `lan_sesison_add`, when the random number is `sequenceOut`. -/
def lanSesisonAdd (fdNum : Nat) (session : List LanSession) (socket : Int)
    (time sequenceOut : UInt32) : Nat × List LanSession :=
  if socket < 0 ∨ session.length ≤ fdNum then (fdNum, session)
  else
    match addSession (newSession socket time sequenceOut) session with
    | none => (fdNum, session)
    | some session => (fdNum + 1, session)

/-- `lan_session_close` for the sessions that `p` picks, in the order of the table. -/
def lanSessionCloseIf (p : Nat → LanSession → Bool) :
    Nat → Nat → List LanSession → Nat × List LanSession × List Int
  | _, fdNum, [] => (fdNum, [], [])
  | i, fdNum, s :: ss =>
    let c := if p i s then lanSessionClose fdNum s else (fdNum, s, [])
    let r := lanSessionCloseIf p (i + 1) c.1 ss
    (r.1, c.2.1 :: r.2.1, c.2.2 ++ r.2.2)

/-- The test of `lan_session_time_check`: a session that has been silent for `heart_timeout`
seconds, but not for a month, or that is faulty. -/
def isTimeout (heartTimeout now : UInt32) (s : LanSession) : Bool :=
  s.active &&
    (s.fault || (now - s.time < 2592000 && heartTimeout ≤ now - s.time))

/-! ### The socket loop -/

inductive SockRead
  | tcpServ
  | udpServ
  | tcpClient
  deriving DecidableEq

/-- `sloop_sock_t`, by its socket and its `read`. -/
structure SloopSock where
  sock : Int
  read : SockRead
  deriving DecidableEq

/-- A request in the queue of the socket loop: one without `read` unregisters the socket. -/
inductive SockRequest
  | reg (s : SloopSock)
  | unreg (sock : Int)
  deriving DecidableEq

/-- A reader is put into the first free slot of the table, if there is one. -/
def fillSlot (s : SloopSock) : List (Option SloopSock) → List (Option SloopSock)
  | [] => []
  | none :: rs => some s :: rs
  | some r :: rs => some r :: fillSlot s rs

/-- `__ty_add_sock_reader`. -/
def tyAddSockReader (readers : List (Option SloopSock)) (s : SloopSock) :
    List (Option SloopSock) :=
  if some s ∈ readers then readers else fillSlot s readers

/-- `__ty_del_sock_reader`: the first reader of the socket is removed. -/
def tyDelSockReader (sock : Int) : List (Option SloopSock) → List (Option SloopSock)
  | [] => []
  | r :: rs => if r.map (·.sock) = some sock then none :: rs else r :: tyDelSockReader sock rs

/-! ### States and events -/

/-- The LAN service: the table of sessions with its counter, the sockets it listens on, the table
of readers and the queue of the socket loop, and the open descriptors. -/
structure LanState where
  fdNum : Nat
  session : List LanSession
  tcpServFd : Int
  udpServFd : Int
  readers : List (Option SloopSock)
  queue : List SockRequest
  opened : List Int

/-- An event. A `posted` says which requests get into the queue. -/
inductive LanEvent
  | accept (cfd : Int) (now sequenceOut : UInt32) (posted : Bool)
  | close (i : Nat) (posted : Int → Bool)
  | fault (i : Nat)
  | timeCheck (now : UInt32) (posted : Int → Bool)
  | closeAll (posted : Int → Bool)
  | fetch

def LanState.servFds (s : LanState) : List Int := [s.tcpServFd, s.udpServFd].filter (· ≠ -1)

def activeFds (session : List LanSession) : List Int := (session.filter (·.active)).map (·.fd)

def unregFds (queue : List SockRequest) : List Int :=
  queue.filterMap fun r => match r with
    | .unreg sock => some sock
    | .reg _ => none

/-- `tuya_unreg_lan_sock` for some sockets. -/
def LanState.unreg (s : LanState) (posted : Int → Bool) (fds : List Int) : LanState :=
  { s with queue := s.queue ++ (fds.filter posted).map .unreg }

/-- `lan_tcp_serv_sock_read` with the connection `cfd`. -/
def lanTcpServSockRead (s : LanState) (cfd : Int) (now sequenceOut : UInt32) (posted : Bool) :
    LanState :=
  if cfd < 0 ∨ s.session.length ≤ s.fdNum then s
  else
    let r := lanSesisonAdd s.fdNum s.session cfd now sequenceOut
    if posted then
      { s with
        fdNum := r.1
        session := r.2
        queue := s.queue ++ [.reg ⟨cfd, .tcpClient⟩]
        opened := cfd :: s.opened }
    else { s with fdNum := r.1, session := r.2 }

/-- `lan_session_close` for some sessions of the table. -/
def LanState.closeIf (s : LanState) (p : Nat → LanSession → Bool) (posted : Int → Bool) :
    LanState :=
  let r := lanSessionCloseIf p 0 s.fdNum s.session
  { s with fdNum := r.1, session := r.2.1 }.unreg posted r.2.2

/-- `lan_session_close_all`. -/
def lanSessionCloseAll (s : LanState) (posted : Int → Bool) : LanState :=
  { s with
    fdNum := 0
    session := s.session.map fun (t : LanSession) => if t.active then lanSessionFree else t
    tcpServFd := -1
    udpServFd := -1 }.unreg posted (s.servFds ++ activeFds s.session)

/-- One request of the socket loop: a reader is added, or it is removed and its socket closed. -/
def sockLoopFetch (s : LanState) : LanState :=
  match s.queue with
  | [] => s
  | .reg r :: queue => { s with readers := tyAddSockReader s.readers r, queue := queue }
  | .unreg sock :: queue =>
    if sock ∈ s.readers.filterMap fun r => r.map (·.sock) then
      { s with
        readers := tyDelSockReader sock s.readers
        queue := queue
        opened := s.opened.filter (· ≠ sock) }
    else { s with queue := queue }

def lanStep (heartTimeout : UInt32) (s : LanState) : LanEvent → LanState
  | .accept cfd now sequenceOut posted => lanTcpServSockRead s cfd now sequenceOut posted
  | .close i posted => s.closeIf (fun j _ => j = i) posted
  | .fault i => { s with session := s.session.modify i (lanSessionFaultSet s.fdNum) }
  | .timeCheck now posted =>
    if s.fdNum = 0 then s else s.closeIf (fun _ t => isTimeout heartTimeout now t) posted
  | .closeAll posted => lanSessionCloseAll s posted
  | .fetch => sockLoopFetch s

/-- The service after `tuya_lan_init`, with `n` sessions and two sockets. -/
def initState (n : Nat) (tcpServFd udpServFd : Int) : LanState where
  fdNum := 0
  session := List.replicate n zeroSession
  tcpServFd := tcpServFd
  udpServFd := udpServFd
  readers := List.replicate (5 + n) none
  queue := [.reg ⟨tcpServFd, .tcpServ⟩, .reg ⟨udpServFd, .udpServ⟩]
  opened := [tcpServFd, udpServFd]

/-! ### The claims on a state -/

/-- A descriptor is registered with the socket loop: it has a reader, or the request for one has
not been taken yet, and no request to unregister it is pending. -/
def LanState.Registered (s : LanState) (fd : Int) : Prop :=
  (some ⟨fd, .tcpClient⟩ ∈ s.readers ∨ .reg ⟨fd, .tcpClient⟩ ∈ s.queue) ∧ .unreg fd ∉ s.queue

/-- The bookkeeping of `n` sessions is right: the counter is the number of active sessions and at
most `n`, and the active sessions hold open, registered and distinct descriptors. -/
structure Bookkeeping (n : Nat) (s : LanState) : Prop where
  fdNum_eq : s.fdNum = s.session.countP (·.active)
  fdNum_le : s.fdNum ≤ n
  opened : ∀ t ∈ s.session, t.active → t.fd ∈ s.opened
  registered : ∀ t ∈ s.session, t.active → s.Registered t.fd
  distinct : (activeFds s.session).Nodup

def Possible (s : LanState) : LanEvent → Prop
  | .accept cfd _ _ _ => cfd ∉ s.opened
  | _ => True

/-- A connection that is accepted within the limit gets into the queue, and a reader that is taken
from the queue finds a slot. -/
def Registers (s : LanState) : LanEvent → Prop
  | .accept cfd _ _ posted => cfd < 0 ∨ s.session.length ≤ s.fdNum ∨ posted = true
  | .fetch => ∀ r queue, s.queue = .reg r :: queue → some r ∈ s.readers ∨ none ∈ s.readers
  | _ => True

/-! ### The invariant -/

/-- The descriptors that are in use: those of the service, of active sessions, and those that wait
to be unregistered. -/
def LanState.held (s : LanState) : List Int :=
  s.servFds ++ (activeFds s.session ++ unregFds s.queue)

/-- The invariant of the runs in which every connection is registered. -/
structure Inv (n : Nat) (s : LanState) : Prop where
  length_eq : s.session.length = n
  fdNum_eq : s.fdNum = (activeFds s.session).length
  nodup_held : s.held.Nodup
  held_subset : s.held ⊆ s.opened
  registered : ∀ fd ∈ activeFds s.session,
    some ⟨fd, .tcpClient⟩ ∈ s.readers ∨ .reg ⟨fd, .tcpClient⟩ ∈ s.queue

theorem mem_unregFds {queue : List SockRequest} {fd : Int} :
    fd ∈ unregFds queue ↔ .unreg fd ∈ queue := by
  simp only [unregFds, List.mem_filterMap]
  constructor
  · rintro ⟨r, hr, h⟩
    cases r with
    | reg r => cases h
    | unreg sock => exact Option.some.inj h ▸ hr
  · exact fun h => ⟨_, h, rfl⟩

theorem unregFds_append (q q' : List SockRequest) :
    unregFds (q ++ q') = unregFds q ++ unregFds q' := List.filterMap_append

theorem unregFds_map_unreg (fds : List Int) : unregFds (fds.map .unreg) = fds := by
  induction fds with
  | nil => rfl
  | cons fd fds ih => exact congrArg _ ih

theorem activeFds_cons (t : LanSession) (ts : List LanSession) :
    activeFds (t :: ts) = (if t.active then [t.fd] else []) ++ activeFds ts := by
  rw [activeFds, List.filter_cons]
  split_ifs <;> rfl

theorem length_activeFds_le (ts : List LanSession) : (activeFds ts).length ≤ ts.length := by
  rw [activeFds, List.length_map]
  exact List.length_filter_le _ _

theorem Inv.bookkeeping {n : Nat} {s : LanState} (h : Inv n s) : Bookkeeping n s := by
  have hmem : ∀ t ∈ s.session, t.active → t.fd ∈ activeFds s.session := fun t ht hactive =>
    List.mem_map_of_mem (List.mem_filter.mpr ⟨ht, hactive⟩)
  have hnodup := (List.nodup_append.mp h.nodup_held).2.1
  refine ⟨?_, ?_, ?_, ?_, (List.nodup_append.mp hnodup).1⟩
  · rw [h.fdNum_eq, activeFds, List.length_map, List.countP_eq_length_filter]
  · rw [h.fdNum_eq, ← h.length_eq]
    exact length_activeFds_le _
  · intro t ht hactive
    exact h.held_subset (List.mem_append_right _ (List.mem_append_left _ (hmem t ht hactive)))
  · intro t ht hactive
    refine ⟨h.registered _ (hmem t ht hactive), fun hunreg => ?_⟩
    exact (List.nodup_append.mp hnodup).2.2 _ (hmem t ht hactive) _ (mem_unregFds.mpr hunreg) rfl

/-! ### Closing sessions -/

theorem lanSessionClose_spec (fdNum : Nat) (t : LanSession) :
    (lanSessionClose fdNum t).1 + (lanSessionClose fdNum t).2.2.length = fdNum ∧
      activeFds [(lanSessionClose fdNum t).2.1] ++ (lanSessionClose fdNum t).2.2 =
        activeFds [t] := by
  rw [lanSessionClose]
  by_cases hguard : fdNum = 0 ∨ t.active = false
  · rw [if_pos hguard]
    exact ⟨rfl, List.append_nil _⟩
  rw [if_neg hguard]
  by_cases hfd : t.fd ≠ -1
  · rw [if_pos hfd]
    rw [not_or, Bool.not_eq_false] at hguard
    refine ⟨?_, ?_⟩
    · exact Nat.sub_add_cancel (Nat.pos_of_ne_zero hguard.1)
    · simp [activeFds, lanSessionFree, zeroSession, hguard.2]
  · rw [if_neg hfd]
    exact ⟨rfl, List.append_nil _⟩

/-- Closing some sessions keeps the counter right, and moves their descriptors from the table to
the requests. The `k` sessions in front of the list are those that the loop has passed. -/
theorem lanSessionCloseIf_spec (p : Nat → LanSession → Bool) (i k fdNum : Nat)
    (ts : List LanSession) (h : fdNum = k + (activeFds ts).length) :
    (lanSessionCloseIf p i fdNum ts).1 =
        k + (activeFds (lanSessionCloseIf p i fdNum ts).2.1).length ∧
      (activeFds (lanSessionCloseIf p i fdNum ts).2.1 ++ (lanSessionCloseIf p i fdNum ts).2.2).Perm
        (activeFds ts) ∧
      (lanSessionCloseIf p i fdNum ts).2.1.length = ts.length := by
  induction ts generalizing i k fdNum with
  | nil => exact ⟨h, List.Perm.refl _, rfl⟩
  | cons t ts ih =>
    have hcons : ∀ u us, activeFds (u :: us) = activeFds [u] ++ activeFds us := fun u us => by
      rw [activeFds_cons u us, activeFds_cons u [], show activeFds [] = [] from rfl,
        List.append_nil]
    set c := if p i t then lanSessionClose fdNum t else (fdNum, t, []) with hc
    rw [hcons, List.length_append] at h
    have hone : c.1 + c.2.2.length = fdNum ∧ activeFds [c.2.1] ++ c.2.2 = activeFds [t] := by
      by_cases hp : p i t = true
      · rw [hc, if_pos hp]
        exact lanSessionClose_spec fdNum t
      · rw [hc, if_neg hp]
        exact ⟨rfl, List.append_nil _⟩
    have hlen := congrArg List.length hone.2
    rw [List.length_append] at hlen
    obtain ⟨h1, h2, h3⟩ := ih (i + 1) (k + (activeFds [c.2.1]).length) c.1 (by omega)
    simp only [lanSessionCloseIf, ← hc]
    refine ⟨?_, ?_, ?_⟩
    · rw [h1, hcons c.2.1 (lanSessionCloseIf p (i + 1) c.1 ts).2.1, List.length_append,
        Nat.add_assoc]
    · rw [hcons c.2.1, hcons t, ← hone.2, List.append_assoc, List.append_assoc]
      refine List.Perm.append_left _ ?_
      exact (List.perm_append_comm_assoc _ _ _).trans (h2.append_left _)
    · rw [List.length_cons, h3, List.length_cons]

theorem Inv.of_close {n : Nat} {s s' : LanState} (h : Inv n s) (fds : List Int)
    (posted : Int → Bool) (hlength : s'.session.length = s.session.length)
    (hfdNum : s'.fdNum = (activeFds s'.session).length)
    (hheld : (s'.servFds ++ (activeFds s'.session ++ fds)).Subperm
      (s.servFds ++ activeFds s.session))
    (hactive : activeFds s'.session ⊆ activeFds s.session)
    (hqueue : s'.queue = s.queue ++ (fds.filter posted).map .unreg)
    (hreaders : s'.readers = s.readers) (hopened : s'.opened = s.opened) : Inv n s' := by
  have hsub : s'.held.Subperm s.held := by
    have hunreg : unregFds s'.queue = unregFds s.queue ++ fds.filter posted := by
      rw [hqueue, unregFds_append, unregFds_map_unreg]
    have hfilter : (fds.filter posted ++ unregFds s.queue).Subperm (fds ++ unregFds s.queue) :=
      (List.subperm_append_right _).mpr List.filter_sublist.subperm
    have hcomm : s'.held.Perm
        (s'.servFds ++ activeFds s'.session ++ (fds.filter posted ++ unregFds s.queue)) := by
      rw [LanState.held, hunreg, List.append_assoc]
      exact (List.perm_append_comm.append_left _).append_left _
    refine hcomm.subperm.trans (((List.subperm_append_left _).mpr hfilter).trans ?_)
    rw [LanState.held, ← List.append_assoc, ← List.append_assoc]
    refine (List.subperm_append_right _).mpr ?_
    rwa [List.append_assoc]
  refine ⟨hlength.trans h.length_eq, hfdNum, ?_, ?_, ?_⟩
  · obtain ⟨l, hperm, hsublist⟩ := hsub
    exact hperm.nodup_iff.mp (h.nodup_held.sublist hsublist)
  · rw [hopened]
    exact fun fd hfd => h.held_subset (hsub.subset hfd)
  · intro fd hfd
    rw [hreaders, hqueue]
    exact (h.registered fd (hactive hfd)).imp_right (List.mem_append_left _)

theorem Inv.closeIf {n : Nat} {s : LanState} (h : Inv n s) (p : Nat → LanSession → Bool)
    (posted : Int → Bool) : Inv n (s.closeIf p posted) := by
  obtain ⟨h1, h2, h3⟩ := lanSessionCloseIf_spec p 0 0 s.fdNum s.session
    (by rw [h.fdNum_eq, Nat.zero_add])
  refine h.of_close (lanSessionCloseIf p 0 s.fdNum s.session).2.2 posted h3
    (by rw [Nat.zero_add] at h1; exact h1) (h2.append_left _).subperm ?_ rfl rfl rfl
  exact fun fd hfd => h2.subset (List.mem_append_left _ hfd)

theorem activeFds_closeAll (ts : List LanSession) :
    activeFds (ts.map fun t => if t.active then lanSessionFree else t) = [] := by
  induction ts with
  | nil => rfl
  | cons t ts ih =>
    rw [List.map_cons, activeFds_cons, ih, List.append_nil]
    cases h : t.active <;> simp [h, lanSessionFree, zeroSession]

theorem Inv.closeAll {n : Nat} {s : LanState} (h : Inv n s) (posted : Int → Bool) :
    Inv n (lanSessionCloseAll s posted) := by
  have hactive := activeFds_closeAll s.session
  refine h.of_close (s.servFds ++ activeFds s.session) posted (List.length_map _) ?_ ?_ ?_ rfl rfl rfl
  · rw [lanSessionCloseAll, LanState.unreg, hactive]
    rfl
  · rw [lanSessionCloseAll, LanState.unreg, hactive]
    exact (List.Perm.refl _).subperm
  · rw [lanSessionCloseAll, LanState.unreg, hactive]
    exact List.nil_subset _

/-! ### Accepting connections -/

theorem addSession_spec (new : LanSession) (hnew : new.active = true) (ts : List LanSession)
    (h : (activeFds ts).length < ts.length) :
    ∃ ts', addSession new ts = some ts' ∧ (activeFds ts').Perm (new.fd :: activeFds ts) ∧
      ts'.length = ts.length := by
  induction ts with
  | nil => exact absurd h (Nat.lt_irrefl _)
  | cons t ts ih =>
    rw [addSession]
    cases hactive : t.active with
    | false =>
      refine ⟨new :: ts, rfl, ?_, rfl⟩
      rw [activeFds_cons, activeFds_cons, hnew, hactive]
      exact List.Perm.refl _
    | true =>
      rw [activeFds_cons, hactive, if_pos rfl, List.length_append] at h
      have hroom : (activeFds ts).length < ts.length := by
        simp only [List.length_cons, List.length_nil] at h
        omega
      obtain ⟨ts', hadd, hperm, hlen⟩ := ih hroom
      refine ⟨t :: ts', by rw [if_pos rfl, hadd]; rfl, ?_, by rw [List.length_cons, hlen]; rfl⟩
      rw [activeFds_cons, activeFds_cons, hactive, if_pos rfl]
      exact (hperm.cons _).trans (List.Perm.swap _ _ _)

theorem Inv.accept {n : Nat} {s : LanState} (h : Inv n s) {cfd : Int} {now sequenceOut : UInt32}
    {posted : Bool} (hfresh : cfd ∉ s.opened)
    (hposted : cfd < 0 ∨ s.session.length ≤ s.fdNum ∨ posted = true) :
    Inv n (lanTcpServSockRead s cfd now sequenceOut posted) := by
  rw [lanTcpServSockRead]
  by_cases hguard : cfd < 0 ∨ s.session.length ≤ s.fdNum
  · rw [if_pos hguard]
    exact h
  rw [if_neg hguard]
  obtain rfl : posted = true := by
    rcases hposted with hneg | hlimit | hposted
    · exact absurd (Or.inl hneg) hguard
    · exact absurd (Or.inr hlimit) hguard
    · exact hposted
  obtain ⟨ts, hadd, hperm, hlen⟩ := addSession_spec (newSession cfd now sequenceOut) rfl
    s.session (by rw [← h.fdNum_eq]; exact Nat.not_le.mp fun hle => hguard (Or.inr hle))
  rw [if_pos rfl, lanSesisonAdd, if_neg hguard, hadd]
  have hunreg : unregFds (s.queue ++ [.reg ⟨cfd, .tcpClient⟩]) = unregFds s.queue := by
    rw [unregFds_append]
    exact List.append_nil _
  have hheld : (s.servFds ++ (activeFds ts ++ unregFds (s.queue ++ [.reg ⟨cfd, .tcpClient⟩]))).Perm
      (cfd :: s.held) := by
    rw [hunreg]
    exact ((hperm.append_right _).append_left _).trans List.perm_middle
  refine ⟨hlen.trans h.length_eq, ?_, ?_, ?_, ?_⟩
  · rw [hperm.length_eq, List.length_cons, ← h.fdNum_eq]
  · refine hheld.nodup_iff.mpr (List.nodup_cons.mpr ⟨fun hmem => ?_, h.nodup_held⟩)
    exact hfresh (h.held_subset hmem)
  · refine List.Subset.trans hheld.subset ?_
    exact List.cons_subset_cons _ h.held_subset
  · intro fd hfd
    rcases List.mem_cons.mp (hperm.subset hfd) with rfl | hold
    · exact Or.inr (List.mem_append_right _ (List.mem_singleton_self _))
    · exact (h.registered fd hold).imp_right (List.mem_append_left _)

/-! ### Faults -/

theorem activeFds_modify {f : LanSession → LanSession}
    (hf : ∀ t, (f t).active = t.active ∧ (f t).fd = t.fd) (i : Nat) (ts : List LanSession) :
    activeFds (ts.modify i f) = activeFds ts := by
  induction ts generalizing i with
  | nil => rw [List.modify_nil]
  | cons t ts ih =>
    cases i with
    | zero => rw [List.modify_zero_cons, activeFds_cons, activeFds_cons, (hf t).1, (hf t).2]
    | succ i => rw [List.modify_succ_cons, activeFds_cons, activeFds_cons, ih]

theorem lanSessionFaultSet_active (fdNum : Nat) (t : LanSession) :
    (lanSessionFaultSet fdNum t).active = t.active ∧ (lanSessionFaultSet fdNum t).fd = t.fd := by
  rw [lanSessionFaultSet]
  split_ifs <;> exact ⟨rfl, rfl⟩

theorem Inv.fault {n : Nat} {s : LanState} (h : Inv n s) (i : Nat) :
    Inv n { s with session := s.session.modify i (lanSessionFaultSet s.fdNum) } := by
  have hactive := activeFds_modify (lanSessionFaultSet_active s.fdNum) i s.session
  refine ⟨?_, ?_, ?_, ?_, ?_⟩
  · rw [List.length_modify, h.length_eq]
  · rw [hactive, h.fdNum_eq]
  · rw [LanState.held, hactive]
    exact h.nodup_held
  · rw [LanState.held, hactive]
    exact h.held_subset
  · rw [hactive]
    exact h.registered

/-! ### The socket loop takes a request -/

theorem mem_fillSlot_of_mem {r s : SloopSock} {readers : List (Option SloopSock)}
    (h : some r ∈ readers) : some r ∈ fillSlot s readers := by
  induction readers with
  | nil => exact h
  | cons o readers ih =>
    cases o with
    | none => exact List.mem_cons_of_mem _ (List.mem_of_ne_of_mem (by simp) h)
    | some r' =>
      rcases List.mem_cons.mp h with heq | hmem
      · exact heq ▸ List.mem_cons_self
      · exact List.mem_cons_of_mem _ (ih hmem)

theorem mem_fillSlot_self {s : SloopSock} {readers : List (Option SloopSock)}
    (h : none ∈ readers) : some s ∈ fillSlot s readers := by
  induction readers with
  | nil => cases h
  | cons o readers ih =>
    cases o with
    | none => exact List.mem_cons_self
    | some r' => exact List.mem_cons_of_mem _ (ih (List.mem_of_ne_of_mem (by simp) h))

theorem mem_tyAddSockReader_of_mem {r s : SloopSock} {readers : List (Option SloopSock)}
    (h : some r ∈ readers) : some r ∈ tyAddSockReader readers s := by
  rw [tyAddSockReader]
  split_ifs
  · exact h
  · exact mem_fillSlot_of_mem h

theorem mem_tyAddSockReader_self {s : SloopSock} {readers : List (Option SloopSock)}
    (h : some s ∈ readers ∨ none ∈ readers) : some s ∈ tyAddSockReader readers s := by
  rw [tyAddSockReader]
  split_ifs with hmem
  · exact hmem
  · exact mem_fillSlot_self (h.resolve_left hmem)

theorem mem_tyDelSockReader {sock : Int} {r : SloopSock} {readers : List (Option SloopSock)}
    (hne : r.sock ≠ sock) (h : some r ∈ readers) : some r ∈ tyDelSockReader sock readers := by
  induction readers with
  | nil => cases h
  | cons o readers ih =>
    rw [tyDelSockReader]
    split_ifs with heq
    · refine List.mem_cons_of_mem _ (List.mem_of_ne_of_mem ?_ h)
      rintro rfl
      exact hne (Option.some.inj heq)
    · rcases List.mem_cons.mp h with rfl | hmem
      · exact List.mem_cons_self
      · exact List.mem_cons_of_mem _ (ih hmem)

theorem Inv.fetch_reg {n : Nat} {s : LanState} (h : Inv n s) {r : SloopSock}
    {queue : List SockRequest} (hqueue : s.queue = .reg r :: queue)
    (hslot : some r ∈ s.readers ∨ none ∈ s.readers) :
    Inv n { s with readers := tyAddSockReader s.readers r, queue := queue } := by
  have hheld : s.held = s.servFds ++ (activeFds s.session ++ unregFds queue) := by
    rw [LanState.held, hqueue]
    rfl
  refine ⟨h.length_eq, h.fdNum_eq, ?_, ?_, ?_⟩
  · have hnodup := h.nodup_held
    rw [hheld] at hnodup
    exact hnodup
  · have hsubset := h.held_subset
    rw [hheld] at hsubset
    exact hsubset
  · intro fd hfd
    rcases h.registered fd hfd with hreader | hreg
    · exact Or.inl (mem_tyAddSockReader_of_mem hreader)
    · rw [hqueue] at hreg
      rcases List.mem_cons.mp hreg with heq | hreg
      · obtain rfl := SockRequest.reg.inj heq
        exact Or.inl (mem_tyAddSockReader_self hslot)
      · exact Or.inr hreg

theorem Inv.fetch_unreg {n : Nat} {s : LanState} (h : Inv n s) {sock : Int}
    {queue : List SockRequest} (hqueue : s.queue = .unreg sock :: queue)
    {readers : List (Option SloopSock)} {opened : List Int}
    (hreaders : ∀ r : SloopSock, r.sock ≠ sock → some r ∈ s.readers → some r ∈ readers)
    (hopened : ∀ fd, fd ≠ sock → fd ∈ s.opened → fd ∈ opened) :
    Inv n { s with readers := readers, queue := queue, opened := opened } := by
  have hheld : s.held.Perm (sock :: (s.servFds ++ (activeFds s.session ++ unregFds queue))) := by
    have hunreg : unregFds s.queue = sock :: unregFds queue := by
      rw [hqueue]
      rfl
    rw [LanState.held, hunreg]
    exact (List.perm_middle.append_left _).trans List.perm_middle
  have hcons := List.nodup_cons.mp (hheld.nodup_iff.mp h.nodup_held)
  have hne : ∀ fd ∈ s.servFds ++ (activeFds s.session ++ unregFds queue), fd ≠ sock := by
    rintro fd hfd rfl
    exact hcons.1 hfd
  refine ⟨h.length_eq, h.fdNum_eq, hcons.2, ?_, ?_⟩
  · intro fd hfd
    exact hopened fd (hne fd hfd) (h.held_subset (hheld.symm.subset (List.mem_cons_of_mem _ hfd)))
  · intro fd hfd
    have hfd' := hne fd (List.mem_append_right _ (List.mem_append_left _ hfd))
    rcases h.registered fd hfd with hreader | hreg
    · exact Or.inl (hreaders _ hfd' hreader)
    · rw [hqueue] at hreg
      exact Or.inr (List.mem_of_ne_of_mem (by simp) hreg)

theorem Inv.fetch {n : Nat} {s : LanState} (h : Inv n s) (hslot : Registers s .fetch) :
    Inv n (sockLoopFetch s) := by
  rw [sockLoopFetch]
  split
  · exact h
  · next r queue hqueue => exact h.fetch_reg hqueue (hslot r queue hqueue)
  · next sock queue hqueue =>
    split_ifs
    · refine h.fetch_unreg hqueue (fun r hne hr => mem_tyDelSockReader hne hr) ?_
      exact fun fd hne hfd => List.mem_filter.mpr ⟨hfd, decide_eq_true hne⟩
    · exact h.fetch_unreg hqueue (fun _ _ hr => hr) fun _ _ hfd => hfd

/-! ### Runs -/

theorem Inv.step {n : Nat} (heartTimeout : UInt32) {s : LanState} {ev : LanEvent} (h : Inv n s)
    (hpossible : Possible s ev) (hreg : Registers s ev) : Inv n (lanStep heartTimeout s ev) := by
  cases ev with
  | accept cfd now sequenceOut posted => exact h.accept hpossible hreg
  | close i posted => exact h.closeIf _ posted
  | fault i => exact h.fault i
  | timeCheck now posted =>
    rw [lanStep]
    split_ifs
    · exact h
    · exact h.closeIf _ posted
  | closeAll posted => exact h.closeAll posted
  | fetch => exact h.fetch hreg

theorem inv_initState (n : Nat) {tcpServFd udpServFd : Int} (hne : tcpServFd ≠ udpServFd) :
    Inv n (initState n tcpServFd udpServFd) := by
  have hactive : activeFds (List.replicate n zeroSession) = [] := by
    induction n with
    | zero => rfl
    | succ n ih => rw [List.replicate_succ, activeFds_cons, ih]; rfl
  have hheld : (initState n tcpServFd udpServFd).held =
      [tcpServFd, udpServFd].filter (· ≠ -1) := by
    rw [LanState.held, initState, hactive]
    exact List.append_nil _
  refine ⟨List.length_replicate, ?_, ?_, ?_, ?_⟩
  · rw [initState, hactive]
    rfl
  · rw [hheld]
    exact List.Nodup.sublist List.filter_sublist (by simpa using hne)
  · rw [hheld]
    exact List.filter_sublist.subset
  · rw [initState, hactive]
    exact fun fd hfd => absurd hfd List.not_mem_nil

/-- **Session bookkeeping.** In every state of a run in which every connection that is accepted
within the limit is registered with the socket loop, the counter is the number of active sessions
and within the limit, and the active sessions hold open, registered and distinct descriptors. -/
theorem bookkeeping_of_guarded (n : Nat) (heartTimeout : UInt32) {tcpServFd udpServFd : Int}
    (hne : tcpServFd ≠ udpServFd) {evs : List LanEvent}
    (hrun : Guarded (lanStep heartTimeout) (fun s ev => Possible s ev ∧ Registers s ev)
      (initState n tcpServFd udpServFd) evs) :
    Bookkeeping n (evs.foldl (lanStep heartTimeout) (initState n tcpServFd udpServFd)) :=
  (hrun.invariant (fun _ _ h hcond => h.step heartTimeout hcond.1 hcond.2)
    (inv_initState n hne)).bookkeeping

/-- A run: a connection is accepted and gets its reader, then its session is closed. -/
def sampleRun : List LanEvent :=
  [.fetch, .fetch, .accept 7 100 5 true, .fetch, .timeCheck 120 fun _ => true,
    .close 0 fun _ => true, .fetch]

theorem bookkeeping_sampleRun :
    Bookkeeping 3 (sampleRun.foldl (lanStep 30) (initState 3 3 4)) := by
  refine bookkeeping_of_guarded 3 30 (by decide) ?_
  refine ⟨⟨trivial, ?_⟩, ⟨trivial, ?_⟩, ⟨?_, ?_⟩, ⟨trivial, ?_⟩, ⟨trivial, trivial⟩,
    ⟨trivial, trivial⟩, ⟨trivial, ?_⟩, trivial⟩
  · exact fun _ _ _ => Or.inr (by decide)
  · exact fun _ _ _ => Or.inr (by decide)
  · exact fun h => absurd h (by decide)
  · exact Or.inr (Or.inr rfl)
  · exact fun _ _ _ => Or.inr (by decide)
  · exact fun _ _ _ => Or.inr (by decide)

/-- A connection whose registration fails leaves an active session behind, the descriptor of which
is closed. The next connection gets the same descriptor, and then two active sessions hold it. -/
theorem exists_not_bookkeeping :
    ∃ evs, Guarded (lanStep 30) Possible (initState 3 3 4) evs ∧
      ¬Bookkeeping 3 (evs.foldl (lanStep 30) (initState 3 3 4)) := by
  refine ⟨[.accept 7 100 5 false, .accept 7 101 6 true], ⟨?_, ?_, trivial⟩, fun h => ?_⟩
  · exact fun h => absurd h (by decide)
  · exact fun h => absurd h (by decide)
  · exact absurd h.distinct (by decide)

end TuyaOpen.Lan
