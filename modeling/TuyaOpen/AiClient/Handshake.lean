import TuyaOpen.AiClient.StateMachine

/-!
# The order of the handshake

Whatever the timers and the other threads do meanwhile, the client thread reads a packet only after
the calls of the handshake have succeeded one after the other, and gives its callback nothing else.
-/

namespace TuyaOpen.AiClient

open TuyaOpen.AiProtocol AiBasicClient

variable {κ : Type} {s s' : AiBasicClient κ} {tr o : List (Action κ)}

/-! ### What the functions do to the state -/

def calls (tr : List (Action κ)) : List (AiClientState × OperateRet) :=
  tr.filterMap fun
    | .call st rt => some (st, rt)
    | _ => none

@[simp] theorem calls_nil : calls ([] : List (Action κ)) = [] := rfl

@[simp] theorem calls_append (tr tr' : List (Action κ)) :
    calls (tr ++ tr') = calls tr ++ calls tr' :=
  List.filterMap_append

@[simp] theorem calls_call (st : AiClientState) (rt : OperateRet) (tr : List (Action κ)) :
    calls (.call st rt :: tr) = (st, rt) :: calls tr := rfl

def ReadOk (rt : OperateRet) : Prop := rt = oprtOk ∨ rt = oprtResourceNotReady

/-! ### The handshake -/

/-- The answers of the protocol after which a state may be entered. -/
inductive Reached : AiClientState → List (AiClientState × OperateRet) → Prop
  | idle (cs) : Reached .idle cs
  | setup (cs) : Reached .setup cs
  | connect (cs) : Reached .connect (cs ++ [(.setup, oprtOk)])
  | clientHello {cs} (h : Reached .connect cs) : Reached .clientHello (cs ++ [(.connect, oprtOk)])
  | clientHelloAgain {cs rt} (h : Reached .clientHello cs) (hrt : rt ≠ oprtOk) :
      Reached .clientHello (cs ++ [(.clientHello, rt)])
  | authReq {cs} (h : Reached .clientHello cs) : Reached .authReq (cs ++ [(.clientHello, oprtOk)])
  | authReqAgain {cs rt} (h : Reached .authReq cs) (hrt : rt ≠ oprtOk) :
      Reached .authReq (cs ++ [(.authReq, rt)])
  | authResp {cs} (h : Reached .authReq cs) : Reached .authResp (cs ++ [(.authReq, oprtOk)])
  | running {cs} (h : Reached .authResp cs) : Reached .running (cs ++ [(.authResp, oprtOk)])
  | read {cs rt} (h : Reached .running cs) (hrt : ReadOk rt) :
      Reached .running (cs ++ [(.running, rt)])

theorem Reached.of_idle_or {st st' : AiClientState} {cs} (h : Reached st cs)
    (hst : st' = st ∨ st' = .idle) : Reached st' cs := by
  rcases hst with rfl | rfl
  · exact h
  · exact .idle cs

/-- The state may be entered after the answers so far. While the client thread is in a call, only
`AI_STATE_IDLE` can have been stored over the state that it has read; while it sleeps before
`AI_STATE_SETUP` or closes the connection, the state is about to be left. -/
def HandshakeAt (st : AiClientState) (cs : List (AiClientState × OperateRet)) :
    ClientThread → Prop
  | .loop | .sleep .reconn | .sleep .again => Reached st cs
  | .call st' => Reached st' cs ∧ (st = st' ∨ st = .idle)
  | .sleep .setup | .closing => True

def HandshakeInv (s : AiBasicClient κ) (tr : List (Action κ)) : Prop :=
  HandshakeAt s.state (calls tr) s.thread

theorem HandshakeAt.of_idle_or {st st' : AiClientState} {cs} {thread : ClientThread}
    (h : HandshakeAt st cs thread) (hst : st' = st ∨ st' = .idle) : HandshakeAt st' cs thread := by
  cases thread with
  | loop => exact Reached.of_idle_or h hst
  | call st₀ =>
    refine ⟨h.1, ?_⟩
    rcases hst with rfl | hst
    · exact h.2
    · exact .inr hst
  | sleep wake =>
    cases wake with
    | setup => trivial
    | reconn => exact Reached.of_idle_or h hst
    | again => exact Reached.of_idle_or h hst
  | closing => trivial

theorem HandshakeInv.of_thread_eq (h : HandshakeInv s tr) (hthread : s'.thread = s.thread)
    (hcalls : calls o = []) (hstate : s'.state = s.state ∨ s'.state = .idle) :
    HandshakeInv s' (tr ++ o) := by
  unfold HandshakeInv
  rw [hthread, calls_append, hcalls, List.append_nil]
  exact HandshakeAt.of_idle_or h hstate

theorem Reached.of_called {st : AiClientState} {cs} {a : Answer} (h : Reached st cs)
    (hst : s.state = st ∨ s.state = .idle) (hs' : Called s a st oprtOk s' o) :
    calls o = [] ∧ Reached s'.state (cs ++ [(st, a.rt)]) := by
  generalize hrt : oprtOk = rt at hs'
  cases hs' with
  | failed _ h' => exact absurd hrt.symm h'
  | idle h' => exact ⟨rfl, .setup _⟩
  | setup h' => exact ⟨rfl, h' ▸ .connect cs⟩
  | setupRefresh h' => exact ⟨rfl, h' ▸ .connect cs⟩
  | connect h' => exact ⟨rfl, h' ▸ h.clientHello⟩
  | clientHello h' => exact ⟨rfl, h' ▸ h.authReq⟩
  | authReq h' => exact ⟨rfl, h' ▸ h.authResp⟩
  | authResp h' => exact ⟨rfl, h' ▸ h.running⟩
  | running hran =>
    cases hran with
    | notReady h' => exact ⟨rfl, (h.read (.inr h')).of_idle_or hst⟩
    | failed _ h' => exact absurd hrt.symm h'
    | empty h' => exact ⟨rfl, (h.read (.inl h')).of_idle_or hst⟩
    | packet h' p hhandled =>
      cases hhandled with
      | connClose => exact ⟨rfl, .setup _⟩
      | nothing | pong | refresh | data => exact ⟨rfl, (h.read (.inl h')).of_idle_or hst⟩

theorem Called.eq_of_ne {st : AiClientState} {a : Answer} {rt : OperateRet}
    (h : Called s a st rt s' o) (hrt : rt ≠ oprtOk) : s' = s ∧ o = [] ∧ rt = a.rt := by
  cases h with
  | failed => exact ⟨rfl, rfl, rfl⟩
  | running hran =>
    cases hran with
    | failed => exact ⟨rfl, rfl, rfl⟩
    | _ => exact absurd rfl hrt
  | _ => exact absurd rfl hrt

/-- After an error the client thread sleeps or closes the connection. Where it will call the
function of its state once more, the state may be entered. -/
theorem HandshakeAt.of_erred {st : AiClientState} {cs} {rt : OperateRet} (h : Reached st cs)
    (hst : s.state = st ∨ s.state = .idle) (hrt : rt ≠ oprtOk) (hs' : Erred s s' o) :
    calls o = [] ∧ HandshakeAt s'.state (cs ++ [(st, rt)]) s'.thread := by
  cases hs' with
  | reconn hs => exact ⟨rfl, hs ▸ .setup _⟩
  | setup => exact ⟨rfl, trivial⟩
  | closing => exact ⟨rfl, trivial⟩
  | again hs =>
    refine ⟨rfl, ?_⟩
    rcases hst with rfl | hidle
    · rcases hs with hs | hs | hs
      · exact hs ▸ .idle _
      · rw [hs] at h ⊢
        exact h.clientHelloAgain hrt
      · rw [hs] at h ⊢
        exact h.authReqAgain hrt
    · exact hidle ▸ .idle _

theorem HandshakeInv.step (h : HandshakeInv s tr) (hstep : Step s o s') :
    HandshakeInv s' (tr ++ o) := by
  cases hstep with
  | dispatch hthread =>
    unfold HandshakeInv at h ⊢
    rw [hthread] at h
    rw [List.append_nil]
    exact ⟨h, .inl rfl⟩
  | passed hthread hcalled =>
    unfold HandshakeInv at h ⊢
    rw [hthread] at h
    obtain ⟨hcalls, hreached⟩ := h.1.of_called h.2 hcalled
    rw [calls_append, calls_call, hcalls]
    exact hreached
  | erred hthread hcalled hrt herred =>
    unfold HandshakeInv at h ⊢
    rw [hthread] at h
    obtain ⟨rfl, rfl, rfl⟩ := hcalled.eq_of_ne hrt
    obtain ⟨hcalls, hat⟩ := HandshakeAt.of_erred h.1 h.2 hrt herred
    simpa [hcalls] using hat
  | wakeUp hthread =>
    rename_i w
    unfold HandshakeInv at h ⊢
    rw [hthread] at h
    rw [List.append_nil]
    cases w with
    | reconn => exact h
    | setup => exact .setup _
    | again => exact h
  | closed hthread => exact Reached.idle _
  | timerClosed hthread => exact h.of_thread_eq rfl rfl (.inr rfl)
  | timerCb _ hfired => cases hfired <;> exact h.of_thread_eq rfl rfl (.inl rfl)
  | due | work | startPing | stopPing | regCb | nothing =>
    exact h.of_thread_eq rfl rfl (.inl rfl)

/-! ### Reading a packet -/

theorem Reached.connect_append {cs} (h : Reached .connect cs) :
    ∃ before, cs = before ++ [(.setup, oprtOk)] := by
  cases h with
  | connect before => exact ⟨before, rfl⟩

theorem Reached.clientHello_append {cs} (h : Reached .clientHello cs) :
    ∃ before hellos : List (AiClientState × OperateRet),
      cs = before ++ [(.setup, oprtOk), (.connect, oprtOk)] ++ hellos ∧
      ∀ c ∈ hellos, c.1 = .clientHello ∧ c.2 ≠ oprtOk := by
  generalize hst : AiClientState.clientHello = st at h
  induction h with
  | clientHello h =>
    obtain ⟨before, rfl⟩ := h.connect_append
    exact ⟨before, [], by simp, by simp⟩
  | clientHelloAgain h hrt ih =>
    obtain ⟨before, hellos, rfl, hhellos⟩ := ih rfl
    exact ⟨before, hellos ++ [_], List.append_assoc _ _ _,
      List.forall_mem_append.2 ⟨hhellos, List.forall_mem_singleton.2 ⟨rfl, hrt⟩⟩⟩
  | _ => cases hst

theorem Reached.authReq_append {cs} (h : Reached .authReq cs) :
    ∃ before hellos auths : List (AiClientState × OperateRet),
      cs = before ++ [(.setup, oprtOk), (.connect, oprtOk)] ++ hellos ++ [(.clientHello, oprtOk)] ++
        auths ∧
      (∀ c ∈ hellos, c.1 = .clientHello ∧ c.2 ≠ oprtOk) ∧
      ∀ c ∈ auths, c.1 = .authReq ∧ c.2 ≠ oprtOk := by
  generalize hst : AiClientState.authReq = st at h
  induction h with
  | authReq h =>
    obtain ⟨before, hellos, rfl, hhellos⟩ := h.clientHello_append
    exact ⟨before, hellos, [], by simp, hhellos, by simp⟩
  | authReqAgain h hrt ih =>
    obtain ⟨before, hellos, auths, rfl, hhellos, hauths⟩ := ih rfl
    exact ⟨before, hellos, auths ++ [_], List.append_assoc _ _ _, hhellos,
      List.forall_mem_append.2 ⟨hauths, List.forall_mem_singleton.2 ⟨rfl, hrt⟩⟩⟩
  | _ => cases hst

theorem Reached.running_append {cs} (h : Reached .running cs) :
    ∃ before hellos auths reads : List (AiClientState × OperateRet),
      cs = before ++ [(.setup, oprtOk), (.connect, oprtOk)] ++ hellos ++ [(.clientHello, oprtOk)] ++
        auths ++ [(.authReq, oprtOk), (.authResp, oprtOk)] ++ reads ∧
      (∀ c ∈ hellos, c.1 = .clientHello ∧ c.2 ≠ oprtOk) ∧
      (∀ c ∈ auths, c.1 = .authReq ∧ c.2 ≠ oprtOk) ∧
      ∀ c ∈ reads, c.1 = .running ∧ ReadOk c.2 := by
  generalize hst : AiClientState.running = st at h
  induction h with
  | running h =>
    cases h with
    | authResp h =>
      obtain ⟨before, hellos, auths, rfl, hhellos, hauths⟩ := h.authReq_append
      exact ⟨before, hellos, auths, [], by simp, hhellos, hauths, by simp⟩
  | read h hrt ih =>
    obtain ⟨before, hellos, auths, reads, rfl, hhellos, hauths, hreads⟩ := ih rfl
    exact ⟨before, hellos, auths, reads ++ [_], List.append_assoc _ _ _, hhellos, hauths,
      List.forall_mem_append.2 ⟨hreads, List.forall_mem_singleton.2 ⟨rfl, hrt⟩⟩⟩
  | _ => cases hst

def Action.IsRead : Action κ → Prop
  | .call .running _ | .packet _ | .data _ _ => True
  | _ => False

theorem Called.eq_running {st : AiClientState} {a : Answer} {rt rt' : OperateRet}
    (h : Called s a st rt s' o) {act : Action κ} (hact : act ∈ Action.call st rt' :: o)
    (hread : act.IsRead) : st = .running := by
  cases h with
  | running => rfl
  | failed hst =>
    obtain rfl := List.mem_singleton.1 hact
    cases st <;> first | rfl | cases hread
  | idle | setup | connect | clientHello | authReq =>
    obtain rfl := List.mem_singleton.1 hact
    cases hread
  | setupRefresh | authResp =>
    simp only [List.mem_cons, List.not_mem_nil, or_false] at hact
    rcases hact with rfl | rfl | rfl <;> cases hread

theorem Step.thread_of_isRead (h : Step s o s') {act : Action κ} (hact : act ∈ o)
    (hread : act.IsRead) : s.thread = .call .running := by
  cases h with
  | passed hthread hcalled => rw [hthread, hcalled.eq_running hact hread]
  | erred hthread hcalled hrt herred =>
    rcases List.mem_append.1 hact with hact | hact
    · rw [hthread, hcalled.eq_running hact hread]
    · cases herred
      all_goals
        simp only [List.mem_cons, List.not_mem_nil, or_false] at hact
        rcases hact with rfl | rfl | rfl <;> cases hread
  | timerCb hthread hfired =>
    cases hfired
    all_goals
      simp only [List.mem_cons, List.not_mem_nil, or_false] at hact
      try rcases hact with rfl | rfl | rfl | rfl <;> cases hread
  | work | startPing | stopPing =>
    simp only [List.mem_cons, List.not_mem_nil, or_false] at hact
    rcases hact with rfl | rfl <;> cases hread
  | _ => cases hact

/-- **Order of the handshake.** In every run, whatever the timers, the work queue and the other
threads do in between, a packet is read or given to the callback only when the last answers of the
protocol are these: the configuration and the connection, failed client hellos, a client hello,
failed requests of authentication, such a request, the response to it, and packets. -/
theorem read_after_handshake (cb : Option κ) (evs : List (Event κ)) (ev : Event κ)
    {act : Action κ} (hact : act ∈ (step (after cb evs) ev).1) (hread : act.IsRead) :
    ∃ before hellos auths reads : List (AiClientState × OperateRet),
      calls (trace cb evs) =
        before ++ [(.setup, oprtOk), (.connect, oprtOk)] ++ hellos ++ [(.clientHello, oprtOk)] ++
          auths ++ [(.authReq, oprtOk), (.authResp, oprtOk)] ++ reads ∧
      (∀ c ∈ hellos, c.1 = .clientHello ∧ c.2 ≠ oprtOk) ∧
      (∀ c ∈ auths, c.1 = .authReq ∧ c.2 ≠ oprtOk) ∧
      ∀ c ∈ reads, c.1 = .running ∧ ReadOk c.2 := by
  have hinv : HandshakeInv (after cb evs) (trace cb evs) :=
    trace_invariant (.idle []) (fun s tr o s' h hstep => h.step hstep) evs
  have hthread := (step_cases (after cb evs) ev).thread_of_isRead hact hread
  unfold HandshakeInv at hinv
  rw [hthread] at hinv
  exact hinv.1.running_append

def sampleHandshake : List (Event Unit) :=
  (List.replicate 6 [.dispatch, .answer ⟨oprtOk, none, oprtOk, 1000, 100, 0⟩]).flatten

/-- A data packet after a handshake without errors. -/
theorem sampleHandshake_read :
    ∃ before hellos auths reads : List (AiClientState × OperateRet),
      calls (trace (some ()) (sampleHandshake ++ [.dispatch])) =
        before ++ [(.setup, oprtOk), (.connect, oprtOk)] ++ hellos ++ [(.clientHello, oprtOk)] ++
          auths ++ [(.authReq, oprtOk), (.authResp, oprtOk)] ++ reads ∧
      (∀ c ∈ hellos, c.1 = .clientHello ∧ c.2 ≠ oprtOk) ∧
      (∀ c ∈ auths, c.1 = .authReq ∧ c.2 ≠ oprtOk) ∧
      ∀ c ∈ reads, c.1 = .running ∧ ReadOk c.2 :=
  read_after_handshake (some ()) (sampleHandshake ++ [.dispatch])
    (.answer ⟨oprtOk, some ⟨.noFrag, 34, 1⟩, oprtOk, 0, 0, 0⟩)
    (List.Mem.tail _ (.tail _ (.head _)) : Action.data () ⟨.noFrag, 34, 1⟩ ∈ _) trivial

end TuyaOpen.AiClient
