import Mathlib.Data.List.Basic

/-!
# Runs of a transition function

A system is given by a function `step` from states and events to states. Its runs are the left
folds of `step` over lists of events. A condition on steps singles out the runs in which every
step meets it.

An implementation is given by a function that also has an output and that may fault. It refines a
system without faults when the two give the same outputs along every run.

## Main results

* `Guarded.invariant`: what every step that meets the condition preserves holds after the run.
* `Guarded.of_invariant`: what makes every step that meets the condition right.
* `guarded_iff_of_invariant`: the runs in which every step is right.
* `Throughout.of_guarded`: an invariant makes a property true in every state.
* `throughout_iff_of_exact`, `throughout_iff_of_invariant`: the runs that have a property in every
  state.
* `outputs_invariant`, `outputs_history`, `exists_outputs?_of_invariant`: what holds of the state and
  of the outputs so far.
* `outputs_eq_of_guarded`: a relation that permitted steps keep makes the outputs of runs equal.
* `outputs_eq_of_simulation`, `outputs?_eq_of_simulation`: a relation that steps keep makes the
  outputs of runs equal.
* `exists_outputs?_eq_iff`: the runs along which the outputs are equal.
* `Observed.of_guarded`: a relation that steps keep makes the outputs of runs right.
-/

namespace TuyaOpen

variable {σ ε : Type*} (step : σ → ε → σ) (Cond : σ → ε → Prop)

/-- Every step of the run from `s` along `evs` meets the condition. -/
def Guarded : σ → List ε → Prop
  | _, [] => True
  | s, ev :: evs => Cond s ev ∧ Guarded (step s ev) evs

instance instDecidableGuarded [∀ s ev, Decidable (Cond s ev)] :
    ∀ s evs, Decidable (Guarded step Cond s evs)
  | _, [] => isTrue trivial
  | s, ev :: evs =>
    have : Decidable (Guarded step Cond (step s ev) evs) := instDecidableGuarded (step s ev) evs
    inferInstanceAs (Decidable (Cond s ev ∧ Guarded step Cond (step s ev) evs))

variable {step Cond}

theorem guarded_append {s : σ} {evs evs' : List ε} :
    Guarded step Cond s (evs ++ evs') ↔
      Guarded step Cond s evs ∧ Guarded step Cond (evs.foldl step s) evs' := by
  induction evs generalizing s with
  | nil => simp [Guarded]
  | cons ev evs ih => simp [Guarded, ih, and_assoc]

theorem guarded_and {Cond' : σ → ε → Prop} {s : σ} {evs : List ε} :
    Guarded step (fun s ev => Cond s ev ∧ Cond' s ev) s evs ↔
      Guarded step Cond s evs ∧ Guarded step Cond' s evs := by
  induction evs generalizing s with
  | nil => simp [Guarded]
  | cons ev evs ih =>
    simp only [Guarded, ih]
    tauto

/-- **Invariant rule.** What every step that meets the condition preserves holds after a run of
such steps. -/
theorem Guarded.invariant {Inv : σ → Prop}
    (hstep : ∀ s ev, Inv s → Cond s ev → Inv (step s ev)) {s : σ} {evs : List ε}
    (hs : Inv s) (h : Guarded step Cond s evs) : Inv (evs.foldl step s) := by
  induction evs generalizing s with
  | nil => exact hs
  | cons ev evs ih => exact ih (hstep s ev hs h.1) h.2

/-- If, where an invariant holds, every step that meets a condition is right and keeps the
invariant, then every step of a run of such steps is right. -/
theorem Guarded.of_invariant {Right : σ → ε → Prop} {Inv : σ → Prop}
    (hright : ∀ s ev, Inv s → Cond s ev → Right s ev)
    (hstep : ∀ s ev, Inv s → Cond s ev → Inv (step s ev)) {s : σ} {evs : List ε} (hs : Inv s)
    (h : Guarded step Cond s evs) : Guarded step Right s evs := by
  induction evs generalizing s with
  | nil => trivial
  | cons ev evs ih => exact ⟨hright s ev hs h.1, ih (hstep s ev hs h.1) h.2⟩

theorem Guarded.and_of_forall_mem {P : ε → Prop} {s : σ} {evs : List ε}
    (h : Guarded step Cond s evs) (hP : ∀ ev ∈ evs, P ev) :
    Guarded step (fun s ev => P ev ∧ Cond s ev) s evs := by
  induction evs generalizing s with
  | nil => trivial
  | cons ev evs ih =>
    exact ⟨⟨hP ev List.mem_cons_self, h.1⟩, ih h.2 fun ev' h' => hP ev' (List.mem_cons_of_mem _ h')⟩

/-- **Exact invariant rule.** If, where an invariant holds, a step is right in exactly the cases
that meet a condition, and such steps keep the invariant, then every step of a run is right exactly
when every step meets the condition. -/
theorem guarded_iff_of_invariant {Right : σ → ε → Prop} {Inv : σ → Prop}
    (hiff : ∀ s ev, Inv s → (Right s ev ↔ Cond s ev))
    (hstep : ∀ s ev, Inv s → Cond s ev → Inv (step s ev)) {s : σ} {evs : List ε} (hs : Inv s) :
    Guarded step Right s evs ↔ Guarded step Cond s evs := by
  induction evs generalizing s with
  | nil => exact Iff.rfl
  | cons ev evs ih =>
    constructor
    · rintro ⟨hright, hrest⟩
      have hcond := (hiff s ev hs).1 hright
      exact ⟨hcond, (ih (hstep s ev hs hcond)).1 hrest⟩
    · rintro ⟨hcond, hrest⟩
      exact ⟨(hiff s ev hs).2 hcond, (ih (hstep s ev hs hcond)).2 hrest⟩

/-! ### Properties of states -/

/-- The steps of a run do not fault, and a property holds before the run and after each event. -/
def Throughout (step : σ → ε → Option σ) (P : σ → Prop) : σ → List ε → Prop
  | s, [] => P s
  | s, ev :: evs => P s ∧ ∃ s', step s ev = some s' ∧ Throughout step P s' evs

instance instDecidableThroughout (step : σ → ε → Option σ) (P : σ → Prop) [∀ s, Decidable (P s)] :
    ∀ s evs, Decidable (Throughout step P s evs)
  | s, [] => inferInstanceAs (Decidable (P s))
  | s, ev :: evs =>
    match h : step s ev with
    | none => isFalse fun ⟨_, _, hs', _⟩ => by
        rw [h] at hs'
        cases hs'
    | some s' =>
      have : Decidable (Throughout step P s' evs) := instDecidableThroughout step P s' evs
      decidable_of_iff (P s ∧ Throughout step P s' evs) (by simp [Throughout, h])

theorem Throughout.head {step : σ → ε → Option σ} {P : σ → Prop} {s : σ} {evs : List ε}
    (h : Throughout step P s evs) : P s := by
  cases evs with
  | nil => exact h
  | cons ev evs => exact h.1

/-- **Invariant rule for states.** An invariant makes a property true. If a step that meets a
condition does not fault and keeps the invariant, then a run of such steps has the property
throughout. -/
theorem Throughout.of_guarded {step : σ → ε → Option σ} {next : σ → ε → σ} {P Inv : σ → Prop}
    {Cond : σ → ε → Prop} (hP : ∀ s, Inv s → P s)
    (hkeep : ∀ s ev, Inv s → Cond s ev → step s ev = some (next s ev) ∧ Inv (next s ev))
    {s : σ} {evs : List ε} (hs : Inv s) (h : Guarded next Cond s evs) :
    Throughout step P s evs := by
  induction evs generalizing s with
  | nil => exact hP s hs
  | cons ev evs ih =>
    obtain ⟨hnext, hinv⟩ := hkeep s ev hs h.1
    exact ⟨hP s hs, next s ev, hnext, ih hinv h.2⟩

/-- **Exact state rule.** An invariant makes a property true. If a permitted step that meets a
condition does not fault and keeps the invariant, and any other permitted step faults or makes the
property false, then a run of permitted steps has the property throughout exactly when every step
meets the condition. -/
theorem throughout_iff_of_exact {step : σ → ε → Option σ} {next : σ → ε → σ}
    {P Inv : σ → Prop} {Permitted Cond : σ → ε → Prop} (hP : ∀ s, Inv s → P s)
    (hkeep : ∀ s ev, Inv s → Permitted s ev → Cond s ev →
      step s ev = some (next s ev) ∧ Inv (next s ev))
    (hbreak : ∀ s ev s', Inv s → Permitted s ev → step s ev = some s' → P s' → Cond s ev)
    {s : σ} {evs : List ε} (hs : Inv s) (hpermitted : Guarded next Permitted s evs) :
    Throughout step P s evs ↔ Guarded next Cond s evs := by
  induction evs generalizing s with
  | nil => exact iff_of_true (hP s hs) trivial
  | cons ev evs ih =>
    obtain ⟨hev, hevs⟩ := hpermitted
    constructor
    · rintro ⟨-, s', hs', hrun⟩
      have hcond : Cond s ev := hbreak s ev s' hs hev hs' hrun.head
      obtain ⟨hnext, hinv⟩ := hkeep s ev hs hev hcond
      rw [hnext] at hs'
      obtain rfl := Option.some.inj hs'
      exact ⟨hcond, (ih hinv hevs).1 hrun⟩
    · rintro ⟨hcond, hrun⟩
      obtain ⟨hnext, hinv⟩ := hkeep s ev hs hev hcond
      exact ⟨hP s hs, next s ev, hnext, (ih hinv hevs).2 hrun⟩

section Outputs

variable {τ ο : Type*}

def outputs (step : τ → ε → ο × τ) : τ → List ε → List ο × τ
  | t, [] => ([], t)
  | t, ev :: evs =>
    let r := outputs step (step t ev).2 evs
    ((step t ev).1 :: r.1, r.2)

/-- **Guarded simulation rule.** If, where a relation to a specification holds, every step that
meets a condition gives the output of the specification and keeps the relation, then a run of such
steps has the outputs of the specification. -/
theorem outputs_eq_of_guarded {step : σ → ε → ο × σ} {spec : τ → ε → ο × τ}
    {Cond : σ → ε → Prop} {R : σ → τ → Prop}
    (hstep : ∀ s t ev, R s t → Cond s ev →
      (step s ev).1 = (spec t ev).1 ∧ R (step s ev).2 (spec t ev).2)
    {s : σ} {t : τ} (h : R s t) {evs : List ε}
    (hguarded : Guarded (fun s ev => (step s ev).2) Cond s evs) :
    (outputs step s evs).1 = (outputs spec t evs).1 := by
  induction evs generalizing s t with
  | nil => rfl
  | cons ev evs ih =>
    obtain ⟨hout, hR⟩ := hstep s t ev h hguarded.1
    rw [outputs, outputs]
    dsimp only
    rw [hout, ih hR hguarded.2]

/-- **Trace rule.** If every step keeps an invariant of the state and of what has been put out so
far, then it holds after a run. -/
theorem outputs_invariant {step : σ → ε → List ο × σ} {Inv : σ → List ο → Prop}
    (hstep : ∀ s os ev, Inv s os → Inv (step s ev).2 (os ++ (step s ev).1)) {s : σ} {os : List ο}
    (h : Inv s os) (evs : List ε) :
    Inv (outputs step s evs).2 (os ++ (outputs step s evs).1.flatten) := by
  induction evs generalizing s os with
  | nil => simpa [outputs] using h
  | cons ev evs ih => simpa [outputs] using ih (hstep s os ev h)

/-- **History rule without faults.** If every step keeps an invariant of the state and of the events
and outputs so far, then it holds after a run. -/
theorem outputs_history {step : σ → ε → ο × σ} {Inv : σ → List (ε × ο) → Prop}
    (hstep : ∀ s h ev, Inv s h → Inv (step s ev).2 (h ++ [(ev, (step s ev).1)])) {s : σ}
    {h : List (ε × ο)} (hs : Inv s h) (evs : List ε) :
    Inv (outputs step s evs).2 (h ++ evs.zip (outputs step s evs).1) := by
  induction evs generalizing s h with
  | nil => simpa [outputs] using hs
  | cons ev evs ih => simpa [outputs] using ih (hstep s h ev hs)

/-- **Simulation rule without faults.** An implementation whose steps give the outputs of a
specification and keep a relation to its states has the outputs of the specification along every
run. -/
theorem outputs_eq_of_simulation {step : σ → ε → ο × σ} {spec : τ → ε → ο × τ} {R : σ → τ → Prop}
    (hstep : ∀ s t ev, R s t → (step s ev).1 = (spec t ev).1 ∧ R (step s ev).2 (spec t ev).2)
    {s : σ} {t : τ} (h : R s t) (evs : List ε) :
    (outputs step s evs).1 = (outputs spec t evs).1 ∧
      R (outputs step s evs).2 (outputs spec t evs).2 := by
  induction evs generalizing s t with
  | nil => exact ⟨rfl, h⟩
  | cons ev evs ih =>
    obtain ⟨hout, hR⟩ := hstep s t ev h
    obtain ⟨houts, hR'⟩ := ih hR
    exact ⟨by rw [outputs, outputs, hout, houts], hR'⟩

def outputs? (step : σ → ε → Option (ο × σ)) : σ → List ε → Option (List ο × σ)
  | s, [] => some ([], s)
  | s, ev :: evs =>
    match step s ev with
    | none => none
    | some (o, s) =>
      match outputs? step s evs with
      | none => none
      | some (os, s) => some (o :: os, s)

/-- **History rule.** If every step that meets a condition does not fault and keeps an invariant of
the state and of the outputs so far, then a run of such steps has outputs, and the invariant holds
after it. -/
theorem exists_outputs?_of_invariant {step : σ → ε → Option (ο × σ)} {next : σ → ε → σ}
    {Cond : σ → ε → Prop} {Inv : σ → List ο → Prop}
    (hstep : ∀ s os ev, Inv s os → Cond s ev →
      ∃ o, step s ev = some (o, next s ev) ∧ Inv (next s ev) (os ++ [o]))
    {s : σ} {os : List ο} (h : Inv s os) {evs : List ε} (hguarded : Guarded next Cond s evs) :
    ∃ os' s', outputs? step s evs = some (os', s') ∧ Inv s' (os ++ os') := by
  induction evs generalizing s os with
  | nil => exact ⟨[], s, rfl, by rwa [List.append_nil]⟩
  | cons ev evs ih =>
    obtain ⟨o, ho, hinv⟩ := hstep s os ev h hguarded.1
    obtain ⟨os', s', hos', hinv'⟩ := ih hinv hguarded.2
    refine ⟨o :: os', s', ?_, ?_⟩
    · rw [outputs?, ho]
      dsimp only
      rw [hos']
    · rwa [List.append_assoc] at hinv'

/-- **Exact simulation rule.** If an implementation gives the output of a specification in exactly
the steps that meet a condition, and such steps keep a relation between the states, then it has the
outputs of the specification along exactly the runs in which every step meets the condition. -/
theorem exists_outputs?_eq_iff {step : σ → ε → Option (ο × σ)} {next : σ → ε → σ}
    {Cond : σ → ε → Prop} {spec : τ → ε → ο × τ} {R : σ → τ → Prop}
    (hcond : ∀ s t ev, R s t → Cond s ev →
      step s ev = some ((spec t ev).1, next s ev) ∧ R (next s ev) (spec t ev).2)
    (hright : ∀ s t ev s', R s t → step s ev = some ((spec t ev).1, s') → Cond s ev)
    {s : σ} {t : τ} (h : R s t) (evs : List ε) :
    (∃ s', outputs? step s evs = some ((outputs spec t evs).1, s')) ↔
      Guarded next Cond s evs := by
  induction evs generalizing s t with
  | nil => exact iff_of_true ⟨s, rfl⟩ trivial
  | cons ev evs ih =>
    constructor
    · rintro ⟨s', hs'⟩
      rw [outputs?] at hs'
      cases hstep : step s ev with
      | none =>
        rw [hstep] at hs'
        cases hs'
      | some r =>
        rw [hstep] at hs'
        dsimp only at hs'
        cases hrest : outputs? step r.2 evs with
        | none =>
          rw [hrest] at hs'
          cases hs'
        | some r' =>
          rw [hrest] at hs'
          obtain ⟨hout, -⟩ := Prod.mk.inj (Option.some.inj hs')
          obtain ⟨hhead, htail⟩ := List.cons.inj hout
          have hev : Cond s ev := hright s t ev r.2 h (by rw [hstep, ← hhead])
          obtain ⟨hnext, hR⟩ := hcond s t ev h hev
          have hr : r.2 = next s ev := by
            rw [hstep] at hnext
            exact congrArg Prod.snd (Option.some.inj hnext)
          refine ⟨hev, (ih hR).1 ⟨r'.2, ?_⟩⟩
          rw [← hr, hrest, ← htail]
    · rintro ⟨hev, hevs⟩
      obtain ⟨hnext, hR⟩ := hcond s t ev h hev
      obtain ⟨s', hs'⟩ := (ih hR).2 hevs
      refine ⟨s', ?_⟩
      rw [outputs?, hnext]
      dsimp only
      rw [hs']
      rfl

/-- Along a run that may fault, an observer follows the events and the outputs, and every output is
right for the observer that sees it. There is no fault. -/
def Observed (step : σ → ε → Option (ο × σ)) (Right : τ → ε → ο → Prop) (observe : τ → ε → ο → τ) :
    σ → τ → List ε → Prop
  | _, _, [] => True
  | s, t, ev :: evs =>
    ∃ o s', step s ev = some (o, s') ∧ Right t ev o ∧
      Observed step Right observe s' (observe t ev o) evs

/-- **Observation rule.** If every step that meets a condition has an output that is right for the
observer, and keeps a relation between the state and the observer, then every output of a run of
such steps is right. -/
theorem Observed.of_guarded {step : σ → ε → Option (ο × σ)} {next : σ → ε → σ}
    {Cond : σ → ε → Prop} {Right : τ → ε → ο → Prop} {observe : τ → ε → ο → τ} {R : σ → τ → Prop}
    (hstep : ∀ s t ev, R s t → Cond s ev →
      ∃ o, step s ev = some (o, next s ev) ∧ Right t ev o ∧ R (next s ev) (observe t ev o))
    {s : σ} {t : τ} (h : R s t) {evs : List ε} (hguarded : Guarded next Cond s evs) :
    Observed step Right observe s t evs := by
  induction evs generalizing s t with
  | nil => trivial
  | cons ev evs ih =>
    obtain ⟨o, ho, hright, hR⟩ := hstep s t ev h hguarded.1
    exact ⟨o, next s ev, ho, hright, ih hR hguarded.2⟩

end Outputs

end TuyaOpen
