import TuyaOpen.AiClient.Handshake

/-!
# Waiting times and heartbeats

The client thread waits longer after every attempt in vain to get its configuration, and starts
again with the shortest wait once it is connected. A heartbeat that is not answered by any packet in
time is sent again, and the third in a row closes the connection.

## Main results

* `sleep_bounds`: how long the client thread sleeps.
* `connClose_iff_lost`: the connection is closed for exactly the third lost heartbeat.
* `heartbeatPending_or_quiet`: heartbeats do not come to an end by themselves.
-/

namespace TuyaOpen.AiClient

open TuyaOpen.AiProtocol AiBasicClient

variable {κ : Type} {s s' : AiBasicClient κ} {tr o : List (Action κ)}

theorem Called.not_mem {st : AiClientState} {a : Answer} {rt rt' : OperateRet}
    (h : Called s a st rt s' o) :
    .aliveTimeout ∉ Action.call st rt' :: o ∧ .connClose ∉ Action.call st rt' :: o ∧
      ∀ ms, .sleep ms ∉ Action.call st rt' :: o := by
  cases h with
  | running hran =>
    cases hran with
    | packet h' p hhandled => cases hhandled <;> simp
    | _ => simp
  | _ => simp

/-! ### Waiting times -/

/-- A sleep of some other time than a second follows an attempt in vain to get a configuration. -/
def failuresStep (n : Nat) : Action κ → Nat
  | .sleep ms => if ms = 1000 then n else n + 1
  | .call .connect rt => if rt = oprtOk then 0 else n
  | _ => n

/-- The attempts in vain to get a configuration, since the client was connected. -/
def failures (tr : List (Action κ)) : Nat := tr.foldl failuresStep 0

theorem failures_append (tr o : List (Action κ)) :
    failures (tr ++ o) = o.foldl failuresStep (failures tr) :=
  List.foldl_append

/-- The attempts in vain that `reconn_cnt` does not count yet. -/
def uncounted : ClientThread → Nat
  | .sleep .reconn => 1
  | _ => 0

/-- `reconn_cnt` counts the attempts in vain up to the last range of `reconn`. -/
def ReconnInv (s : AiBasicClient κ) (tr : List (Action κ)) : Prop :=
  ∃ n, failures tr = n + uncounted s.thread ∧ s.reconnCnt.val = min (aiReconnTimeNum - 1) n

theorem val_bumpReconn {n : Nat} (h : s.reconnCnt.val = min (aiReconnTimeNum - 1) n) :
    s.bumpReconn.reconnCnt.val = min (aiReconnTimeNum - 1) (n + 1) := by
  unfold bumpReconn
  dsimp only [aiReconnTimeNum] at h ⊢
  split_ifs with hlt
  · dsimp only
    omega
  · simp only [Fin.val_last]
    omega

theorem Called.failures {st : AiClientState} {a : Answer} (h : Called s a st oprtOk s' o)
    (n : Nat) :
    (Action.call st a.rt :: o).foldl failuresStep n =
        (if st = .connect then 0 else n) ∧
      s'.reconnCnt = if st = .connect then 0 else s.reconnCnt := by
  generalize hrt : oprtOk = rt at h
  cases h with
  | failed _ h' => exact absurd hrt.symm h'
  | connect h' => simp [failuresStep, h', setState]
  | running hran =>
    cases hran with
    | packet h' p hhandled => cases hhandled <;> exact ⟨rfl, rfl⟩
    | _ => exact ⟨rfl, rfl⟩
  | _ => exact ⟨rfl, rfl⟩

theorem ReconnInv.of_eq (h : ReconnInv s tr) (ho : o.foldl failuresStep (failures tr) = failures tr)
    (hcnt : s'.reconnCnt = s.reconnCnt) (hthread : uncounted s'.thread = uncounted s.thread) :
    ReconnInv s' (tr ++ o) := by
  obtain ⟨n, hn, hval⟩ := h
  exact ⟨n, by rw [failures_append, ho, hthread, hn], by rw [hcnt, hval]⟩

theorem ReconnInv.erred {st : AiClientState} {rt : OperateRet} (h : ReconnInv s tr)
    (hthread : s.thread = .call st) (hrt : rt ≠ oprtOk) (hs' : Erred s s' o) :
    ReconnInv s' (tr ++ .call st rt :: o) := by
  obtain ⟨n, hn, hcnt⟩ := h
  rw [hthread] at hn
  have hcall : failuresStep (failures tr) (.call st rt : Action κ) = n := by
    cases st <;> first | exact hn | exact (if_neg hrt).trans hn
  refine ⟨n, ?_, ?_⟩
  · rw [failures_append, List.foldl_cons, hcall]
    cases hs' with
    | reconn _ hmin hmax =>
      rename_i sec
      rw [reconn_eq] at hmin
      have hpow : 1 ≤ 2 ^ s.reconnCnt.val := Nat.one_le_two_pow
      have hne : sec * 1000 ≠ 1000 := by
        dsimp only at hmin
        omega
      exact if_neg hne
    | setup | again | closing => rfl
  · cases hs' <;> exact hcnt

theorem ReconnInv.step (h : ReconnInv s tr) (hstep : Step s o s') : ReconnInv s' (tr ++ o) := by
  cases hstep with
  | dispatch hthread => exact h.of_eq rfl rfl (by rw [hthread]; rfl)
  | closed hthread => exact h.of_eq rfl rfl (by rw [hthread]; rfl)
  | passed hthread hcalled =>
    rename_i a st s₁ o₁
    obtain ⟨n, hn, hcnt⟩ := h
    obtain ⟨hfail, hval⟩ := hcalled.failures (failures tr)
    rw [hthread] at hn
    by_cases hst : st = .connect
    · exact ⟨0, by rw [failures_append, hfail, if_pos hst]; rfl, by
        dsimp only
        rw [hval, if_pos hst]
        rfl⟩
    · exact ⟨n, by rw [failures_append, hfail, if_neg hst]; exact hn, by
        dsimp only
        rw [hval, if_neg hst]
        exact hcnt⟩
  | erred hthread hcalled hrt herred =>
    obtain ⟨rfl, rfl, rfl⟩ := hcalled.eq_of_ne hrt
    exact h.erred hthread hrt herred
  | wakeUp hthread =>
    rename_i w
    cases w with
    | reconn =>
      obtain ⟨n, hn, hcnt⟩ := h
      rw [hthread] at hn
      exact ⟨n + 1, by rw [List.append_nil]; exact hn, val_bumpReconn hcnt⟩
    | setup => exact h.of_eq rfl rfl (by rw [hthread]; rfl)
    | again => exact h.of_eq rfl rfl (by rw [hthread]; rfl)
  | timerCb _ hfired => cases hfired <;> exact h.of_eq rfl rfl rfl
  | _ => exact h.of_eq rfl rfl rfl

theorem Step.sleep_cases (h : Step s o s') {ms : Nat} (hms : .sleep ms ∈ o) :
    uncounted s.thread = 0 ∧
      (ms = 1000 ∨ ∃ sec, ms = sec * 1000 ∧ (reconn s.reconnCnt).min ≤ sec ∧
        sec ≤ (reconn s.reconnCnt).max) := by
  cases h with
  | passed hthread hcalled => exact absurd hms (hcalled.not_mem.2.2 ms)
  | erred hthread hcalled hrt herred =>
    obtain ⟨rfl, rfl, rfl⟩ := hcalled.eq_of_ne hrt
    refine ⟨by rw [hthread]; rfl, ?_⟩
    cases herred with
    | reconn _ hmin hmax =>
      obtain rfl : ms = _ := by simpa using hms
      exact .inr ⟨_, rfl, hmin, hmax⟩
    | setup | again => exact .inl (by simpa using hms)
    | closing => simp at hms
  | timerCb _ hfired => cases hfired <;> simp at hms
  | _ => simp at hms

/-- **Waiting times.** In every run, whenever the client thread sleeps it sleeps for a second, or
for some seconds in the range that belongs to the number of attempts in vain to get a configuration
since it was connected: 5 to 10 seconds after the first, twice as long after each of the next, and
320 to 640 seconds from the seventh on. -/
theorem sleep_bounds (cb : Option κ) (evs : List (Event κ)) (ev : Event κ) (ms : Nat)
    (h : .sleep ms ∈ (step (after cb evs) ev).1) :
    ms = 1000 ∨ ∃ sec, ms = sec * 1000 ∧ 5 * 2 ^ min 6 (failures (trace cb evs)) ≤ sec ∧
      sec ≤ 10 * 2 ^ min 6 (failures (trace cb evs)) := by
  obtain ⟨n, hn, hcnt⟩ : ReconnInv (after cb evs) (trace cb evs) :=
    trace_invariant ⟨0, rfl, rfl⟩ (fun _ _ _ _ hs hstep => hs.step hstep) evs
  obtain ⟨hthread, rfl | ⟨sec, rfl, hmin, hmax⟩⟩ := (step_cases (after cb evs) ev).sleep_cases h
  · exact .inl rfl
  · rw [reconn_eq, hcnt] at hmin hmax
    rw [hn, hthread]
    exact .inr ⟨sec, rfl, hmin, hmax⟩

def sampleSetup : List (Event Unit) :=
  [.dispatch, .answer ⟨oprtOk, none, oprtOk, 0, 0, 0⟩, .dispatch,
    .answer ⟨oprtComError, none, oprtOk, 0, 0, 3⟩, .wakeUp, .dispatch]

/-- The second attempt in vain to get a configuration. -/
theorem sampleSetup_sleep :
    (12000 = 1000 ∨ ∃ sec, 12000 = sec * 1000 ∧
      5 * 2 ^ min 6 (failures (trace (some ()) sampleSetup)) ≤ sec ∧
      sec ≤ 10 * 2 ^ min 6 (failures (trace (some ()) sampleSetup))) :=
  sleep_bounds (some ()) sampleSetup (.answer ⟨oprtComError, none, oprtOk, 0, 0, 2⟩) 12000
    (.tail _ (.head _))

/-! ### Lost heartbeats -/

def lostStep (n : Nat) : Action κ → Nat
  | .aliveTimeout => n + 1
  | .packet _ | .stopPing => 0
  | .call .authResp rt => if rt = oprtOk then 0 else n
  | _ => n

def lost (tr : List (Action κ)) : Nat := tr.foldl lostStep 0

theorem lost_append (tr o : List (Action κ)) : lost (tr ++ o) = o.foldl lostStep (lost tr) :=
  List.foldl_append

/-- `heartbeat_lost_cnt` counts the heartbeats lost in a row, which are less than three. -/
def LostInv (s : AiBasicClient κ) (tr : List (Action κ)) : Prop :=
  s.heartbeatLostCnt.toNat = lost tr ∧ lost tr < 3

theorem LostInv.of_eq (h : LostInv s tr) (ho : o.foldl lostStep (lost tr) = lost tr)
    (hcnt : s'.heartbeatLostCnt = s.heartbeatLostCnt) : LostInv s' (tr ++ o) := by
  unfold LostInv
  rw [lost_append, ho, hcnt]
  exact h

theorem LostInv.of_zero (ho : o.foldl lostStep (lost tr) = 0) (hcnt : s'.heartbeatLostCnt = 0) :
    LostInv s' (tr ++ o) := by
  unfold LostInv
  rw [lost_append, ho, hcnt]
  exact ⟨rfl, by omega⟩

theorem LostInv.lt_iff (h : LostInv s tr) : 3 ≤ s.heartbeatLostCnt + 1 ↔ lost tr = 2 := by
  obtain ⟨hcnt, hlt⟩ := h
  rw [UInt8.le_iff_toNat_le, UInt8.toNat_add, hcnt]
  change 3 ≤ (lost tr + 1) % 256 ↔ _
  omega

theorem LostInv.step (h : LostInv s tr) (hstep : Step s o s') : LostInv s' (tr ++ o) := by
  cases hstep with
  | passed hthread hcalled =>
    generalize hrt : oprtOk = rt at hcalled
    cases hcalled with
    | failed _ h' => exact absurd hrt.symm h'
    | authResp h' => exact .of_zero (by rw [h']; rfl) rfl
    | running hran =>
      cases hran with
      | packet h' p hhandled => cases hhandled <;> exact .of_zero rfl rfl
      | _ => exact h.of_eq rfl rfl
    | _ => exact h.of_eq rfl rfl
  | erred hthread hcalled hrt herred =>
    rename_i a st rt s₁ o₁ o₂
    obtain ⟨rfl, rfl, rfl⟩ := hcalled.eq_of_ne hrt
    have hcall : lostStep (lost tr) (.call st a.rt : Action κ) = lost tr := by
      cases st <;> first | rfl | exact if_neg hrt
    cases herred with
    | closing => exact .of_zero rfl rfl
    | _ => exact h.of_eq hcall rfl
  | wakeUp hthread =>
    rename_i w
    cases w <;> exact h.of_eq rfl rfl
  | timerCb _ hfired =>
    cases hfired with
    | refresh | aliveWork => exact h.of_eq rfl rfl
    | lost => exact .of_zero rfl rfl
    | again hlt =>
      have hne : lost tr ≠ 2 := fun heq => hlt (h.lt_iff.2 heq)
      obtain ⟨hcnt, hlt⟩ := h
      refine ⟨?_, ?_⟩
      · rw [lost_append]
        change (s.heartbeatLostCnt + 1).toNat = lost tr + 1
        rw [UInt8.toNat_add, hcnt]
        change (lost tr + 1) % 256 = _
        omega
      · rw [lost_append]
        change lost tr + 1 < 3
        omega
  | stopPing => exact .of_zero rfl rfl
  | _ => exact h.of_eq rfl rfl

/-- The client closes the connection after a lost heartbeat, or after an error of
`tuya_ai_basic_pkt_read` in `AI_STATE_RUNNING`. -/
theorem Step.connClose_cases (hinv : HandshakeInv s tr) (h : Step s o s') (hmem : .connClose ∈ o) :
    (.aliveTimeout ∈ o ∧ 3 ≤ s.heartbeatLostCnt + 1) ∨
      ∃ rt, .call .running rt ∈ o ∧ ¬ReadOk rt := by
  cases h with
  | passed hthread hcalled => exact absurd hmem hcalled.not_mem.2.1
  | erred hthread hcalled hrt herred =>
    obtain ⟨rfl, rfl, -⟩ := hcalled.eq_of_ne hrt
    cases herred with
    | closing hs =>
      unfold HandshakeInv at hinv
      rw [hthread] at hinv
      rcases hinv.2 with hst | hidle
      · rw [hs] at hst
        subst hst
        refine .inr ⟨_, List.mem_cons_self, ?_⟩
        cases hcalled with
        | failed hne => exact absurd rfl hne
        | running hran =>
          cases hran with
          | failed hready hok => exact fun hread => hread.elim hok hready
          | _ => exact absurd rfl hrt
      · rw [hidle] at hs
        cases hs
    | _ => simp at hmem
  | timerCb _ hfired =>
    cases hfired with
    | lost hle => exact .inl ⟨by simp, hle⟩
    | _ => simp at hmem
  | _ => simp at hmem

theorem Step.aliveTimeout_cases (h : Step s o s') (hmem : .aliveTimeout ∈ o) :
    (.connClose ∈ o ↔ 3 ≤ s.heartbeatLostCnt + 1) ∧
      (¬3 ≤ s.heartbeatLostCnt + 1 → ∃ ms, .startTimer .aliveWork ms ∈ o) := by
  cases h with
  | passed hthread hcalled => exact absurd hmem hcalled.not_mem.1
  | erred hthread hcalled hrt herred =>
    obtain ⟨rfl, rfl, -⟩ := hcalled.eq_of_ne hrt
    cases herred <;> simp at hmem
  | timerCb _ hfired =>
    cases hfired with
    | lost hle => exact ⟨iff_of_true (by simp) hle, fun hlt => absurd hle hlt⟩
    | again hlt ms => exact ⟨iff_of_false (by simp) hlt, fun _ => ⟨ms, by simp⟩⟩
    | _ => simp at hmem
  | _ => simp at hmem

/-- **Lost heartbeats.** In every run, when the answer to a heartbeat does not come in time, fewer
than three heartbeats have been lost in a row, and the connection is closed for it if and only if
two have; otherwise the next heartbeat is started. The client closes the connection for no other
reason than that and an error of `tuya_ai_basic_pkt_read`. -/
theorem connClose_iff_lost (cb : Option κ) (evs : List (Event κ)) (ev : Event κ) :
    (.aliveTimeout ∈ (step (after cb evs) ev).1 →
      lost (trace cb evs) < 3 ∧
      (.connClose ∈ (step (after cb evs) ev).1 ↔ lost (trace cb evs) = 2) ∧
      (lost (trace cb evs) ≠ 2 → ∃ ms, .startTimer .aliveWork ms ∈ (step (after cb evs) ev).1)) ∧
    (.connClose ∈ (step (after cb evs) ev).1 →
      (.aliveTimeout ∈ (step (after cb evs) ev).1 ∧ lost (trace cb evs) = 2) ∨
        ∃ rt, .call .running rt ∈ (step (after cb evs) ev).1 ∧ ¬ReadOk rt) := by
  have hinv : HandshakeInv (after cb evs) (trace cb evs) :=
    trace_invariant (.idle []) (fun _ _ _ _ h hstep => h.step hstep) evs
  have hlost : LostInv (after cb evs) (trace cb evs) :=
    trace_invariant ⟨rfl, Nat.zero_lt_succ 2⟩ (fun _ _ _ _ h hstep => h.step hstep) evs
  have hstep := step_cases (after cb evs) ev
  generalize (step (after cb evs) ev).1 = o at hstep ⊢
  refine ⟨fun hmem => ⟨hlost.2, ?_⟩, fun hmem => ?_⟩
  · rw [ne_eq, ← hlost.lt_iff]
    exact hstep.aliveTimeout_cases hmem
  · rw [← hlost.lt_iff]
    exact hstep.connClose_cases hinv hmem

/-! ### The next heartbeat -/

/-- The next heartbeat, or the end of the wait for its answer, is on its way: a timer runs or has
been chosen, or a ping is in the work queue. -/
def HeartbeatPending (s : AiBasicClient κ) : Prop :=
  s.timers .aliveWork ∨ s.timers .aliveTimeout ∨ s.pings ≠ 0 ∨
    s.timerThread = .selected .aliveWork ∨ s.timerThread = .selected .aliveTimeout

def quietStep (b : Bool) : Action κ → Bool
  | .packet _ | .stopPing => true
  | .startTimer .aliveWork _ | .startTimer .aliveTimeout _ => false
  | _ => b

/-- Since the last timer was started for a heartbeat, a packet has come or the heartbeats have been
stopped. -/
def quiet (tr : List (Action κ)) : Bool := tr.foldl quietStep false

theorem quiet_append (tr o : List (Action κ)) : quiet (tr ++ o) = o.foldl quietStep (quiet tr) :=
  List.foldl_append

def QuietInv (s : AiBasicClient κ) (tr : List (Action κ)) : Prop :=
  s.state = .running → HeartbeatPending s ∨ quiet tr

/-- What leaves the timers and the work queue alone while the timer thread does not run a heartbeat
leaves the heartbeat on its way. -/
theorem HeartbeatPending.of_eq (h : HeartbeatPending s)
    (hthread : s.timerThread ≠ .selected .aliveWork ∧ s.timerThread ≠ .selected .aliveTimeout)
    (htimers : ∀ t, t ≠ .refresh → s'.timers t = s.timers t) (hpings : s'.pings = s.pings) :
    HeartbeatPending s' := by
  rcases h with h | h | h | h | h
  · exact .inl ((htimers .aliveWork nofun).trans h)
  · exact .inr (.inl ((htimers .aliveTimeout nofun).trans h))
  · exact .inr (.inr (.inl (hpings ▸ h)))
  · exact absurd h hthread.1
  · exact absurd h hthread.2

theorem QuietInv.step (h : QuietInv s tr) (hstep : Step s o s') : QuietInv s' (tr ++ o) := by
  unfold QuietInv at h ⊢
  rw [quiet_append]
  cases hstep with
  | passed hthread hcalled =>
    generalize hrt : oprtOk = rt at hcalled
    cases hcalled with
    | failed _ h' => exact absurd hrt.symm h'
    | authResp h' => exact fun _ => .inl (.inl rfl)
    | running hran =>
      cases hran with
      | packet h' p hhandled =>
        cases hhandled with
        | pong => exact fun _ => .inl (.inl rfl)
        | _ => exact fun _ => .inr rfl
      | _ => exact h
    | _ => exact nofun
  | erred hthread hcalled hrt herred =>
    obtain ⟨rfl, rfl, rfl⟩ := hcalled.eq_of_ne hrt
    cases herred with
    | closing => exact fun _ => .inr rfl
    | _ => exact h
  | wakeUp hthread =>
    rename_i w
    cases w with
    | reconn => exact h
    | setup => exact nofun
    | again => exact h
  | closed => exact nofun
  | timerClosed => exact nofun
  | due hloop ht =>
    rename_i t
    intro hs
    cases t with
    | aliveWork => exact .inl (.inr (.inr (.inr (.inl rfl))))
    | aliveTimeout => exact .inl (.inr (.inr (.inr (.inr rfl))))
    | refresh =>
      exact (h hs).imp_left fun hp => hp.of_eq (by simp [hloop])
        (fun t ht => Function.update_of_ne ht _ _) rfl
  | timerCb hthread hfired =>
    cases hfired with
    | refresh =>
      exact fun hs => (h hs).imp_left fun hp => hp.of_eq (by simp [hthread]) (fun _ _ => rfl) rfl
    | aliveWork => exact fun _ => .inl (.inr (.inr (.inl (Nat.succ_ne_zero _))))
    | lost => exact fun _ => .inr rfl
    | again => exact fun _ => .inl (.inl rfl)
  | work | startPing => exact fun _ => .inl (.inr (.inl rfl))
  | stopPing => exact fun _ => .inr rfl
  | dispatch | regCb | nothing => exact h

end TuyaOpen.AiClient
