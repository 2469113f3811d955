import TuyaOpen.Iot.Client

/-!
# Requested resets

A reset is requested by a write of `nextstate`. It is lost if `nextstate` is written again before
the next handler is started: by the handler that is running, or by another call.
-/

namespace TuyaOpen.Iot

def Client.begins (s : Client) : ClientEvent → Bool
  | .yield _ => s.pc = .outside
  | _ => false

/-- When a handler is started after a request, it is the one for the reset. When the handler after
that one is started, the activation data have been removed. -/
def ResetFirst (s : Client) (ev : ClientEvent) : Prop :=
  s.begins ev = true →
    (s.requested = true → s.nextstate = .reset) ∧
      (s.serving = true → s.isActivated = false ∧ s.stored = false)

/-- The step writes another state than `STATE_RESET` to `nextstate`. -/
def Client.overwrites (s : Client) : ClientEvent → Bool
  | .yield _ =>
    match s.pc with
    | .assign next => next ≠ .reset
    | _ => false
  | .reconnectWrite => 0 < s.reconnecting
  | .start => s.state = .idle
  | .stop => true
  | _ => false

/-- A requested reset is not overwritten, and the handler that serves it does not find activation
data of a device that is not activated. -/
def Undisturbed (s : Client) (ev : ClientEvent) : Prop :=
  (s.requested = true → s.overwrites ev = false) ∧
    (s.serving = true → s.pc = .handler → s.stored = true → s.isActivated = true)

instance (s : Client) (ev : ClientEvent) : Decidable (ResetFirst s ev) :=
  inferInstanceAs (Decidable (s.begins ev = true →
    (s.requested = true → s.nextstate = .reset) ∧
      (s.serving = true → s.isActivated = false ∧ s.stored = false)))

instance (s : Client) (ev : ClientEvent) : Decidable (Undisturbed s ev) :=
  inferInstanceAs (Decidable ((s.requested = true → s.overwrites ev = false) ∧
    (s.serving = true → s.pc = .handler → s.stored = true → s.isActivated = true)))

/-! ### The invariant -/

def Client.Served (s : Client) : Pc → Prop
  | .handler => True
  | .resetDelete => True
  | .resetDeactivate => s.stored = false
  | .assign _ => s.isActivated = false ∧ s.stored = false
  | .outside => s.isActivated = false ∧ s.stored = false
  | _ => False

/-- A request stands until the next handler is started, and the handler that serves it is the one
for the reset. -/
structure Client.Stands (s : Client) : Prop where
  nextstate : s.requested = true → s.nextstate = .reset
  state : s.serving = true → s.state = .reset
  served : s.serving = true → s.Served s.pc

section Steps

variable {s s' : Client} {ev : ClientEvent} {r : Results}

theorem served_congr (hactivated : s'.isActivated = s.isActivated) (hstored : s'.stored = s.stored)
    {pc : Pc} : s'.Served pc ↔ s.Served pc := by
  cases pc <;> simp only [Client.Served, hactivated, hstored]

theorem Client.Stands.begin (h : s.Stands) (hpc : s.pc = .outside) :
    (tuyaIotYield r s).Stands := by
  rw [tuyaIotYield, hpc]
  exact ⟨fun h => absurd h Bool.false_ne_true, h.nextstate, fun _ => trivial⟩

theorem Client.Stands.served_tuyaIotYield (h : s.Stands) (hpc : s.pc ≠ .outside)
    (hcond : s.pc = .handler → s.stored = true → s.isActivated = true)
    (hserving : s.serving = true) :
    (tuyaIotYield r s).Served (tuyaIotYield r s).pc := by
  have hserved : s.Served s.pc := h.served hserving
  have hstate : s.state = .reset := h.state hserving
  rw [tuyaIotYield]
  cases hpc' : s.pc with
  | outside => exact absurd hpc' hpc
  | handler =>
    dsimp only
    rw [hstate, runHandler]
    split_ifs with hactivated
    · trivial
    · exact ⟨Bool.eq_false_of_not_eq_true hactivated,
        Bool.eq_false_of_not_eq_true fun h => hactivated (hcond hpc' h)⟩
  | assign next =>
    rw [hpc'] at hserved
    rw [if_neg (by rw [hstate]; decide)]
    exact hserved
  | resetDelete => exact rfl
  | resetDeactivate =>
    rw [hpc'] at hserved
    exact ⟨rfl, hserved⟩
  | _ =>
    rw [hpc'] at hserved
    exact hserved.elim

/-- **Step lemma.** The steps of `tuya_iot_yield`. -/
theorem Client.Stands.yield (h : s.Stands) (hcond : Undisturbed s (.yield r)) :
    (tuyaIotYield r s).Stands := by
  by_cases hpc : s.pc = .outside
  · exact h.begin hpc
  · have hturn : s.SameTurn (tuyaIotYield r s) := sameTurn_tuyaIotYield r hpc
    refine ⟨?_, ?_, ?_⟩
    · intro hrequested
      rw [hturn.requested] at hrequested
      by_cases hassign : ∃ next, s.pc = .assign next
      · obtain ⟨next, hassign⟩ := hassign
        have hover := hcond.1 hrequested
        rw [Client.overwrites, hassign] at hover
        rw [tuyaIotYield, hassign]
        exact not_not.1 (of_decide_eq_false hover)
      · rw [nextstate_tuyaIotYield r fun next h => hassign ⟨next, h⟩]
        exact h.nextstate hrequested
    · intro hserving
      rw [hturn.serving] at hserving
      rw [hturn.state]
      exact h.state hserving
    · intro hserving
      rw [hturn.serving] at hserving
      exact h.served_tuyaIotYield hpc (hcond.2 hserving) hserving

theorem Client.Stands.of_frame (h : s.Stands)
    (hnextstate : s'.requested = true → s'.nextstate = .reset) (hstate : s'.state = s.state)
    (hserving : s'.serving = s.serving) (hpc : s'.pc = s.pc)
    (hactivated : s'.isActivated = s.isActivated) (hstored : s'.stored = s.stored) :
    s'.Stands := by
  refine ⟨hnextstate, fun hs => ?_, fun hs => ?_⟩
  · rw [hserving] at hs
    rw [hstate]
    exact h.state hs
  · rw [hserving] at hs
    rw [hpc, served_congr hactivated hstored]
    exact h.served hs

/-- **Step lemma.** -/
theorem Client.Stands.step (h : s.Stands) (hcond : Undisturbed s ev) :
    (clientStep s ev).Stands := by
  have hover (hrequested : s.requested = true) : s.overwrites ev = false := hcond.1 hrequested
  cases ev with
  | yield r => exact h.yield hcond
  | reconnectWrite =>
    rw [clientStep]
    split_ifs with hpos
    · exact h.of_frame (fun h => absurd hpos (of_decide_eq_false (hover h))) rfl rfl rfl rfl rfl
    · exact h
  | start =>
    rw [clientStep]
    split_ifs with hidle
    · exact h.of_frame (fun h => absurd hidle (of_decide_eq_false (hover h))) rfl rfl rfl rfl rfl
    · exact h
  | stop => exact h.of_frame (fun h => absurd (hover h) Bool.false_ne_true.symm) rfl rfl rfl rfl rfl
  | _ =>
    rw [clientStep]
    try rw [tuyaIotReconnect]
    try split_ifs
    all_goals first
      | exact h
      | exact h.of_frame h.nextstate rfl rfl rfl rfl rfl
      | exact h.of_frame (fun _ => rfl) rfl rfl rfl rfl rfl

theorem Client.Stands.resetFirst (h : s.Stands) : ResetFirst s ev := by
  intro hbegins
  have hpc : s.pc = .outside := by
    cases ev with
    | yield r => exact of_decide_eq_true hbegins
    | _ => exact absurd hbegins Bool.false_ne_true
  refine ⟨h.nextstate, fun hserving => ?_⟩
  have hserved := h.served hserving
  rwa [hpc] at hserved

end Steps

/-- **A requested reset is not lost** along runs in which it is not overwritten. -/
theorem resetFirst_of_undisturbed {s : Client} (hrequested : s.requested = false)
    (hserving : s.serving = false) {evs : List ClientEvent}
    (h : Guarded clientStep Undisturbed s evs) : Guarded clientStep ResetFirst s evs := by
  have hstands : s.Stands := by
    refine ⟨fun h => ?_, fun h => ?_, fun h => ?_⟩
    · exact absurd (hrequested.symm.trans h) Bool.false_ne_true
    · exact absurd (hserving.symm.trans h) Bool.false_ne_true
    · exact absurd (hserving.symm.trans h) Bool.false_ne_true
  exact h.of_invariant (fun _ _ hs _ => hs.resetFirst) (fun _ _ hs hcond => hs.step hcond) hstands

def Results.ok : Results := ⟨true, true, true, true, true, true, true, true, true, true, true⟩

/-- Steps of `tuya_iot_yield` in which every call succeeds. -/
def yields (n : Nat) : List ClientEvent := List.replicate n (.yield .ok)

/-- An activated device connects, is unbound while it yields to MQTT, and starts again. -/
theorem resetFirst_of_undisturbed_unbind :
    Guarded clientStep ResetFirst (Client.started true true) (yields 20 ++ .unbind :: yields 8) :=
  resetFirst_of_undisturbed rfl rfl (by decide +kernel)

/-- A call of `tuya_iot_reset` in the callback for `TUYA_EVENT_BINDED_NOTIFY` is lost: the handler
then writes `STATE_MQTT_CONNECT_START`. -/
theorem not_resetFirst_bindedNotify :
    ¬Guarded clientStep ResetFirst (Client.started true true)
      (yields 11 ++ [.reset, .resetCheck] ++ yields 3) := by
  decide +kernel

end TuyaOpen.Iot
