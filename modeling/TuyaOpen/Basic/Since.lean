import Mathlib.Data.List.Basic

/-!
# Past-time properties of logs

A log is a list of what has happened, oldest first. Something is open in a log since an entry that
opens it when no later entry closes it. A log obeys a rule when the rule holds of every entry and of
the log before it.

## Main results

* `since_snoc`: what a new entry does.
* `obeys_snoc`: a log obeys a rule when it did before and its new entry does.
* `Obeys.of_eq`: the rule at an entry of a log.
-/

namespace TuyaOpen

variable {ο : Type*}

def Since (opens closes : ο → Prop) (log : List ο) : Prop :=
  ∃ before o after, log = before ++ o :: after ∧ opens o ∧ ∀ x ∈ after, ¬closes x

/-- The rule holds of every entry of the log and of the entries before it. -/
def Obeys (rule : List ο → ο → Prop) (log : List ο) : Prop :=
  ∀ before o after, log = before ++ o :: after → rule before o

variable {opens closes : ο → Prop} {rule : List ο → ο → Prop} {log : List ο} {o : ο}

@[simp] theorem not_since_nil : ¬Since opens closes [] := by
  rintro ⟨before, o, after, h, -⟩
  exact absurd h.symm (List.append_ne_nil_of_right_ne_nil _ (List.cons_ne_nil _ _))

theorem since_snoc :
    Since opens closes (log ++ [o]) ↔ opens o ∨ Since opens closes log ∧ ¬closes o := by
  constructor
  · rintro ⟨before, o', after, heq, hopens, hafter⟩
    rcases List.eq_nil_or_concat' after with rfl | ⟨after, last, rfl⟩
    · obtain ⟨-, ho⟩ := List.append_inj' heq rfl
      rw [List.cons.inj ho |>.1]
      exact Or.inl hopens
    · rw [← List.cons_append, ← List.append_assoc] at heq
      obtain ⟨rfl, ho⟩ := List.append_inj' heq rfl
      rw [List.cons.inj ho |>.1]
      exact Or.inr ⟨⟨before, o', after, rfl, hopens, fun x hx => hafter x (by simp [hx])⟩,
        hafter last (by simp)⟩
  · rintro (h | ⟨⟨before, o', after, rfl, hopens, hafter⟩, ho⟩)
    · exact ⟨log, o, [], rfl, h, by simp⟩
    · refine ⟨before, o', after ++ [o], by simp, hopens, ?_⟩
      intro x hx
      rcases List.mem_append.1 hx with hx | hx
      · exact hafter x hx
      · rwa [List.mem_singleton.1 hx]

theorem since_snoc_of_not (hopens : ¬opens o) (hcloses : ¬closes o) :
    Since opens closes (log ++ [o]) ↔ Since opens closes log := by
  simp [since_snoc, hopens, hcloses]

@[simp] theorem obeys_nil : Obeys rule [] := fun _ _ _ h =>
  absurd h.symm (List.append_ne_nil_of_right_ne_nil _ (List.cons_ne_nil _ _))

theorem obeys_snoc : Obeys rule (log ++ [o]) ↔ Obeys rule log ∧ rule log o := by
  constructor
  · intro h
    exact ⟨fun before o' after heq => h before o' (after ++ [o]) (by simp [heq]), h log o [] rfl⟩
  · rintro ⟨hlog, ho⟩ before o' after heq
    rcases List.eq_nil_or_concat' after with rfl | ⟨after, last, rfl⟩
    · obtain ⟨rfl, heq'⟩ := List.append_inj' heq rfl
      rwa [← List.cons.inj heq' |>.1]
    · rw [← List.cons_append, ← List.append_assoc] at heq
      obtain ⟨rfl, -⟩ := List.append_inj' heq rfl
      exact hlog before o' after rfl

theorem Obeys.of_eq (h : Obeys rule log) {before after : List ο}
    (heq : log = before ++ o :: after) : rule before o :=
  h before o after heq

end TuyaOpen
