import Mathlib.Data.List.Infix

/-!
# Lists that are filled

Items are taken from the start of a list, one by one, until what has been taken is full. The items
taken are a prefix of the list. When a list stays full as items are added, they are determined by
the prefixes that are not full.

## Main results

* `fill_eq_or_full`: all items are taken, or those that are taken are full.
* `prefix_fill_iff`: the items that are taken, one by one.
* `fill_prefix_of_full`: the items taken from one list, and another list.
-/

namespace TuyaOpen

variable {α : Type*} (full : List α → Prop) [DecidablePred full]

/-- The items that have been taken when items are added to `done` until it is full. -/
def fillFrom (done : List α) : List α → List α
  | [] => done
  | a :: rest => if full done then done else fillFrom (done ++ [a]) rest

def fill (l : List α) : List α := fillFrom full [] l

variable {l done pre : List α} {a : α}

theorem prefix_fillFrom (done l : List α) : done <+: fillFrom full done l := by
  induction l generalizing done with
  | nil => exact List.prefix_rfl
  | cons a l ih =>
    rw [fillFrom]
    split_ifs
    · exact List.prefix_rfl
    · exact (List.prefix_append done [a]).trans (ih (done ++ [a]))

theorem fillFrom_isPrefix (done l : List α) : fillFrom full done l <+: done ++ l := by
  induction l generalizing done with
  | nil => exact List.prefix_append done []
  | cons a l ih =>
    rw [fillFrom]
    split_ifs
    · exact List.prefix_append done _
    · have h := ih (done ++ [a])
      rwa [List.append_assoc] at h

theorem fillFrom_eq_or_full (done l : List α) :
    fillFrom full done l = done ++ l ∨ full (fillFrom full done l) := by
  induction l generalizing done with
  | nil => exact .inl (List.append_nil done).symm
  | cons a l ih =>
    rw [fillFrom]
    split_ifs with hfull
    · exact .inr hfull
    · have h := ih (done ++ [a])
      rwa [List.append_assoc] at h

theorem fill_isPrefix (l : List α) : fill full l <+: l := fillFrom_isPrefix full [] l

/-- **Until it is full.** -/
theorem fill_eq_or_full (l : List α) : fill full l = l ∨ full (fill full l) := by
  have h := fillFrom_eq_or_full full [] l
  rwa [List.nil_append] at h

variable {full}

theorem not_full_of_prefix_fillFrom (hdone : done <+: pre)
    (h : pre ++ [a] <+: fillFrom full done l) : ¬ full pre := by
  have hlong {x : List α} (hx : x <+: pre) : ¬ pre ++ [a] <+: x := fun hle => by
    have hlen := (hle.trans hx).length_le
    rw [List.length_append, List.length_singleton] at hlen
    omega
  induction l generalizing done with
  | nil => exact absurd h (hlong hdone)
  | cons b l ih =>
    rw [fillFrom] at h
    split_ifs at h with hfull
    · exact absurd h (hlong hdone)
    · obtain ⟨t, rfl⟩ := hdone
      cases t with
      | nil => rwa [List.append_nil]
      | cons c t =>
        -- The next item that is taken is `b`, and it is the one behind `done`.
        refine ih ?_ h
        have hnext := List.prefix_or_prefix_of_prefix
          (prefix_fillFrom full (done ++ [b]) l) ((List.prefix_append _ [a]).trans h)
        refine hnext.elim id fun hshort => ?_
        have hlen := hshort.length_le
        simp only [List.length_append, List.length_cons, List.length_nil] at hlen
        have hsame : (done ++ c :: t).length = (done ++ [b]).length := by
          simp only [List.length_append, List.length_cons, List.length_nil]
          omega
        rw [hshort.eq_of_length hsame]

/-- **One by one.** For lists that stay full, the next item of the list is taken exactly when the
items before it are not full. -/
theorem prefix_fill_iff (hmono : ∀ x y : List α, x <+: y → full x → full y) :
    pre ++ [a] <+: fill full l ↔ pre ++ [a] <+: l ∧ ¬ full pre := by
  constructor
  · exact fun h => ⟨h.trans (fill_isPrefix full l), not_full_of_prefix_fillFrom List.nil_prefix h⟩
  · rintro ⟨hpre, hnot⟩
    refine (List.prefix_or_prefix_of_prefix hpre (fill_isPrefix full l)).elim id fun hshort => ?_
    rcases fill_eq_or_full full l with hall | hfull
    · rwa [hall]
    · rcases List.prefix_concat_iff.mp hshort with heq | hle
      · rw [heq]
      · exact absurd (hmono _ _ hle hfull) hnot

theorem fill_prefix_of_full {x y z : List α} (hx : x <+: z) (hy : y <+: z) (hfull : full y) :
    fill full x <+: y := by
  have hfill := (fill_isPrefix full x).trans hx
  refine (List.prefix_or_prefix_of_prefix hfill hy).elim id fun hle => ?_
  obtain ⟨t, ht⟩ := hle
  cases t with
  | nil =>
    rw [List.append_nil] at ht
    rw [ht]
  | cons a t =>
    have hpre : y ++ [a] <+: fill full x := ⟨t, by rw [← ht, List.append_assoc]; rfl⟩
    exact absurd hfull (not_full_of_prefix_fillFrom List.nil_prefix hpre)

end TuyaOpen
