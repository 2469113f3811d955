import Mathlib.Data.List.Basic

/-!
# Streams that arrive in chunks

A connection delivers a stream in chunks of its own choosing, and a read may also report a
status instead of data. An event list is what a connection will answer to the reads made on it,
in order: `chunk` is data that has arrived together, `status` a read that reports a status, and
the end of the list is the end of the stream. `read` takes at most `n` elements of the first
event, and `gather` is the loop that reads until `n` elements have arrived, reading again after
a status that `retry` accepts and stopping at every other one.

## Main results

* `ChunkStream.gather_full`, `ChunkStream.gather_stopped`: what the loop has taken from the
  stream, for every chunking.
* `ChunkStream.exists_gather_of_quiet`: the loop fills its buffer when the stream is long enough.
* `ChunkStream.exists_gather_of_le`, `ChunkStream.exists_gather_of_lt`: whether the loop fills its
  buffer, for every stream.
-/

namespace TuyaOpen.ChunkStream

variable {α σ : Type*}

/-- What a connection answers to a read: data that has arrived together, or a status. -/
inductive Event (α σ : Type*)
  | chunk (x : α) (xs : List α)
  | status (s : σ)

inductive Outcome (α σ : Type*)
  | data (xs : List α)
  | status (s : σ)
  | closed

def content : List (Event α σ) → List α
  | [] => []
  | .chunk x xs :: es => x :: (xs ++ content es)
  | .status _ :: es => content es

/-- The events left when the elements `xs` of the first chunk have not been read. -/
def pushBack : List α → List (Event α σ) → List (Event α σ)
  | [], es => es
  | x :: xs, es => .chunk x xs :: es

/-- A read of at most `n` elements. -/
def read (n : Nat) : List (Event α σ) → Outcome α σ × List (Event α σ)
  | [] => (.closed, [])
  | .status s :: es => (.status s, es)
  | .chunk x xs :: es => (.data ((x :: xs).take n), pushBack ((x :: xs).drop n) es)

/-- The result of a reading loop: all elements have arrived, the last read having given `last`
of them, or the loop has stopped at a status, at the end of the stream for `none`. -/
inductive Gathered (α σ : Type*)
  | full (got : List α) (last : Nat)
  | stopped (got : List α) (why : Option σ)

/-- The loop that reads until `n` more elements have arrived after `got`, the last read before
having given `last` elements. -/
def gather (retry : σ → Bool) :
    Nat → List α → Nat → List (Event α σ) → Gathered α σ × List (Event α σ)
  | 0, got, last, es => (.full got last, es)
  | _ + 1, got, _, [] => (.stopped got none, [])
  | n + 1, got, last, .status s :: es =>
    if retry s then gather retry (n + 1) got last es else (.stopped got (some s), es)
  | n + 1, got, _, .chunk x xs :: es =>
    -- The chunk has `xs.length + 1` elements and `n + 1` are wanted.
    if xs.length < n then gather retry (n - xs.length) (got ++ x :: xs) (xs.length + 1) es
    else (.full (got ++ x :: xs.take n) (n + 1), pushBack (xs.drop n) es)

def AllData (es : List (Event α σ)) : Prop := ∀ e ∈ es, ∃ x xs, e = .chunk x xs

def Quiet (retry : σ → Bool) (es : List (Event α σ)) : Prop :=
  ∀ s, Event.status s ∈ es → retry s = true

def arriving (retry : σ → Bool) : List (Event α σ) → List α
  | [] => []
  | .chunk x xs :: es => x :: (xs ++ arriving retry es)
  | .status s :: es => if retry s then arriving retry es else []

@[simp] theorem content_nil : content ([] : List (Event α σ)) = [] := rfl

@[simp] theorem content_chunk (x : α) (xs : List α) (es : List (Event α σ)) :
    content (.chunk x xs :: es) = x :: (xs ++ content es) := rfl

@[simp] theorem content_status (s : σ) (es : List (Event α σ)) :
    content (.status s :: es) = content es := rfl

@[simp] theorem content_pushBack (xs : List α) (es : List (Event α σ)) :
    content (pushBack xs es) = xs ++ content es := by
  cases xs <;> rfl

theorem AllData.pushBack {xs : List α} {es : List (Event α σ)} (h : AllData es) :
    AllData (pushBack xs es) := by
  cases xs with
  | nil => exact h
  | cons x xs =>
    intro e he
    rcases List.mem_cons.mp he with rfl | he
    · exact ⟨x, xs, rfl⟩
    · exact h e he

theorem AllData.quiet {retry : σ → Bool} {es : List (Event α σ)} (h : AllData es) :
    Quiet retry es := by
  intro s hs
  obtain ⟨x, xs, hx⟩ := h _ hs
  cases hx

theorem AllData.tail {e : Event α σ} {es : List (Event α σ)} (h : AllData (e :: es)) :
    AllData es := fun e' he => h e' (List.mem_cons_of_mem _ he)

theorem Quiet.tail {retry : σ → Bool} {e : Event α σ} {es : List (Event α σ)}
    (h : Quiet retry (e :: es)) : Quiet retry es := fun s hs => h s (List.mem_cons_of_mem _ hs)

theorem Quiet.pushBack {retry : σ → Bool} {xs : List α} {es : List (Event α σ)}
    (h : Quiet retry es) : Quiet retry (pushBack xs es) := by
  cases xs with
  | nil => exact h
  | cons x xs =>
    intro s hs
    rcases List.mem_cons.mp hs with hs | hs
    · cases hs
    · exact h s hs

theorem length_of_read {n : Nat} {es es' : List (Event α σ)} {xs : List α}
    (h : read n es = (.data xs, es')) : xs.length ≤ n := by
  match es with
  | [] => cases h
  | .status s :: es => cases h
  | .chunk x ys :: es =>
    obtain ⟨hxs, -⟩ := Prod.mk.inj h
    obtain rfl := Outcome.data.inj hxs
    exact List.length_take_le _ _

/-! ### The reading loop -/

section Gather

variable {retry : σ → Bool}

@[simp] theorem gather_zero (got : List α) (last : Nat) (es : List (Event α σ)) :
    gather retry 0 got last es = (.full got last, es) := by
  cases es <;> simp [gather]

theorem gather_full {n last last' : Nat} {got got' : List α} {es es' : List (Event α σ)}
    (h : gather retry n got last es = (.full got' last', es')) :
    ∃ xs, xs.length = n ∧ got' = got ++ xs ∧ content es = xs ++ content es' := by
  induction es generalizing n got last with
  | nil =>
    cases n with
    | zero =>
      simp only [gather_zero, Prod.mk.injEq, Gathered.full.injEq] at h
      obtain ⟨⟨rfl, rfl⟩, rfl⟩ := h
      exact ⟨[], rfl, by simp, by simp⟩
    | succ n => simp [gather] at h
  | cons e es ih =>
    cases n with
    | zero =>
      simp only [gather_zero, Prod.mk.injEq, Gathered.full.injEq] at h
      obtain ⟨⟨rfl, rfl⟩, rfl⟩ := h
      exact ⟨[], rfl, by simp, by simp⟩
    | succ n =>
      cases e with
      | status s =>
        simp only [gather] at h
        split_ifs at h
        · exact ih h
        · simp at h
      | chunk x xs =>
        simp only [gather] at h
        split_ifs at h with hlt
        · obtain ⟨ys, hlen, rfl, hc⟩ := ih h
          exact ⟨x :: xs ++ ys, by simp; omega, by simp, by simp [hc]⟩
        · simp only [Prod.mk.injEq, Gathered.full.injEq] at h
          obtain ⟨⟨rfl, rfl⟩, rfl⟩ := h
          refine ⟨x :: xs.take n, by simp; omega, rfl, ?_⟩
          rw [content_chunk, content_pushBack, List.cons_append, ← List.append_assoc,
            List.take_append_drop]

/-- A loop that stops has taken fewer elements than it wanted. It stops at the end of the
stream, where nothing is left, or at a status that is not retried. -/
theorem gather_stopped {n last : Nat} {got got' : List α} {why : Option σ}
    {es es' : List (Event α σ)} (h : gather retry n got last es = (.stopped got' why, es')) :
    (∃ xs, xs.length < n ∧ got' = got ++ xs ∧ content es = xs ++ content es') ∧
      (why = none → es' = []) ∧ ∀ s, why = some s → retry s = false := by
  induction es generalizing n got last with
  | nil =>
    cases n with
    | zero => simp at h
    | succ n =>
      simp only [gather, Prod.mk.injEq, Gathered.stopped.injEq] at h
      obtain ⟨⟨rfl, rfl⟩, rfl⟩ := h
      exact ⟨⟨[], by simp, by simp, by simp⟩, fun _ => rfl, by simp⟩
  | cons e es ih =>
    cases n with
    | zero => simp at h
    | succ n =>
      cases e with
      | status s =>
        simp only [gather] at h
        split_ifs at h with hr
        · exact ih h
        · simp only [Prod.mk.injEq, Gathered.stopped.injEq] at h
          obtain ⟨⟨rfl, rfl⟩, rfl⟩ := h
          refine ⟨⟨[], by simp, by simp, by simp⟩, by simp, ?_⟩
          rintro s' rfl_s
          obtain rfl := Option.some.inj rfl_s
          simpa using hr
      | chunk x xs =>
        simp only [gather] at h
        split_ifs at h with hlt
        · obtain ⟨⟨ys, hlen, rfl, hc⟩, hwhy⟩ := ih h
          exact ⟨⟨x :: xs ++ ys, by simp; omega, by simp, by simp [hc]⟩, hwhy⟩
        · simp at h

theorem AllData.gather {n last : Nat} {got : List α} {es : List (Event α σ)} (h : AllData es) :
    AllData (gather retry n got last es).2 := by
  induction es generalizing n got last with
  | nil => cases n <;> simpa [ChunkStream.gather] using h
  | cons e es ih =>
    cases n with
    | zero => simpa using h
    | succ n =>
      obtain ⟨x, xs, rfl⟩ := h e List.mem_cons_self
      simp only [ChunkStream.gather]
      split_ifs
      · exact ih h.tail
      · exact h.tail.pushBack

private theorem exists_gather_quiet {n : Nat} (last : Nat) (got : List α) {es : List (Event α σ)}
    (hq : Quiet retry es) (hn : n ≤ (content es).length) :
    ∃ last' es', gather retry n got last es = (.full (got ++ (content es).take n) last', es') ∧
      content es' = (content es).drop n ∧ Quiet retry es' := by
  induction es generalizing n got last with
  | nil =>
    obtain rfl : n = 0 := by simpa using hn
    exact ⟨last, [], by simp, rfl, hq⟩
  | cons e es ih =>
    cases n with
    | zero => exact ⟨last, e :: es, by simp, rfl, hq⟩
    | succ n =>
      cases e with
      | status s =>
        obtain ⟨last', es', h, hc, hq'⟩ := ih last got hq.tail hn
        refine ⟨last', es', ?_, hc, hq'⟩
        simp only [gather, hq s List.mem_cons_self, ↓reduceIte, h, content_status]
      | chunk x xs =>
        by_cases hlt : xs.length < n
        · have hn' : n - xs.length ≤ (content es).length := by
            simp only [content_chunk, List.length_cons, List.length_append] at hn
            omega
          obtain ⟨last', es', h, hc, hq'⟩ := ih (xs.length + 1) (got ++ x :: xs) hq.tail hn'
          refine ⟨last', es', ?_, ?_, hq'⟩
          · simp only [gather, hlt, ↓reduceIte, h, content_chunk, List.take_succ_cons]
            rw [List.take_append, List.take_of_length_le (Nat.le_of_lt hlt)]
            simp
          · rw [hc, content_chunk, List.drop_succ_cons, List.drop_append,
              List.drop_of_length_le (Nat.le_of_lt hlt), List.nil_append]
        · refine ⟨n + 1, pushBack (xs.drop n) es, ?_, ?_, hq.tail.pushBack⟩
          · simp only [gather, hlt, ↓reduceIte, content_chunk, List.take_succ_cons]
            rw [List.take_append_of_le_length (by omega)]
          · rw [content_pushBack, content_chunk, List.drop_succ_cons,
              List.drop_append_of_le_length (by omega)]

/-- On a quiet stream that is long enough the loop fills its buffer with the next elements. What
is left is quiet, and nothing but data if there was nothing else. -/
theorem exists_gather_of_quiet (n last : Nat) (got : List α) {es : List (Event α σ)}
    (hq : Quiet retry es) (hn : n ≤ (content es).length) :
    ∃ last' es', gather retry n got last es = (.full (got ++ (content es).take n) last', es') ∧
      content es' = (content es).drop n ∧ Quiet retry es' ∧ (AllData es → AllData es') := by
  obtain ⟨last', es', h, hc, hq'⟩ := exists_gather_quiet last got hq hn
  refine ⟨last', es', h, hc, hq', fun hall => ?_⟩
  have hdata : AllData (gather retry n got last es).2 := hall.gather
  rwa [h] at hdata

theorem arriving_pushBack (xs : List α) (es : List (Event α σ)) :
    arriving retry (pushBack xs es) = xs ++ arriving retry es := by
  cases xs <;> rfl

theorem arriving_of_read {n : Nat} {es es' : List (Event α σ)} {xs : List α}
    (h : read n es = (.data xs, es')) : arriving retry es = xs ++ arriving retry es' := by
  match es with
  | [] => cases h
  | .status s :: es => cases h
  | .chunk x ys :: es =>
    obtain ⟨hxs, rfl⟩ := Prod.mk.inj h
    obtain rfl := Outcome.data.inj hxs
    rw [arriving_pushBack, ← List.append_assoc, List.take_append_drop]
    rfl

theorem exists_gather_of_le {n : Nat} (last : Nat) (got : List α) {es : List (Event α σ)}
    (h : n ≤ (arriving retry es).length) :
    ∃ last' es', gather retry n got last es =
      (.full (got ++ (arriving retry es).take n) last', es') := by
  induction es generalizing n got last with
  | nil =>
    obtain rfl : n = 0 := by simpa [arriving] using h
    exact ⟨last, [], by simp⟩
  | cons e es ih =>
    cases n with
    | zero => exact ⟨last, e :: es, by simp⟩
    | succ n =>
      cases e with
      | status s =>
        by_cases hs : retry s = true
        · rw [arriving, if_pos hs] at h ⊢
          obtain ⟨last', es', hrest⟩ := ih last got h
          exact ⟨last', es', by rw [gather, if_pos hs, hrest]⟩
        · rw [arriving, if_neg hs] at h
          exact absurd h (Nat.not_succ_le_zero n)
      | chunk x xs =>
        rw [arriving] at h ⊢
        by_cases hlt : xs.length < n
        · have hrest : n - xs.length ≤ (arriving retry es).length := by
            rw [List.length_cons, List.length_append] at h
            omega
          obtain ⟨last', es', hrest⟩ := ih (xs.length + 1) (got ++ x :: xs) hrest
          refine ⟨last', es', ?_⟩
          rw [gather, if_pos hlt, hrest, List.take_succ_cons, List.take_append,
            List.take_of_length_le (Nat.le_of_lt hlt), List.append_assoc, List.cons_append]
        · refine ⟨n + 1, pushBack (xs.drop n) es, ?_⟩
          rw [gather, if_neg hlt, List.take_succ_cons, List.take_append_of_le_length (by omega)]

theorem exists_gather_of_lt {n : Nat} (last : Nat) (got : List α) {es : List (Event α σ)}
    (h : (arriving retry es).length < n) :
    ∃ why es', gather retry n got last es = (.stopped (got ++ arriving retry es) why, es') := by
  obtain ⟨n, rfl⟩ := Nat.exists_eq_succ_of_ne_zero (Nat.ne_of_gt (Nat.zero_lt_of_lt h))
  induction es generalizing n got last with
  | nil => exact ⟨none, [], by rw [gather, arriving, List.append_nil]⟩
  | cons e es ih =>
    cases e with
    | status s =>
      by_cases hs : retry s = true
      · rw [arriving, if_pos hs] at h ⊢
        obtain ⟨why, es', hrest⟩ := ih last got n h
        exact ⟨why, es', by rw [gather, if_pos hs, hrest]⟩
      · rw [arriving, if_neg hs, List.append_nil]
        exact ⟨some s, es, by rw [gather, if_neg hs]⟩
    | chunk x xs =>
      rw [arriving, List.length_cons, List.length_append] at h
      have hsucc : n - xs.length = (n - xs.length - 1).succ := by omega
      obtain ⟨why, es', hrest⟩ := ih (xs.length + 1) (got ++ x :: xs) (n - xs.length - 1)
        (by omega)
      refine ⟨why, es', ?_⟩
      rw [gather, if_pos (by omega), hsucc, hrest, arriving, List.append_assoc, List.cons_append]

theorem gather_last_pos {n last last' : Nat} {got got' : List α} {es es' : List (Event α σ)}
    (hlast : 0 < last) (h : gather retry n got last es = (.full got' last', es')) : 0 < last' := by
  induction es generalizing n got last with
  | nil =>
    cases n with
    | zero =>
      simp only [gather_zero, Prod.mk.injEq, Gathered.full.injEq] at h
      omega
    | succ n => simp [gather] at h
  | cons e es ih =>
    cases n with
    | zero =>
      simp only [gather_zero, Prod.mk.injEq, Gathered.full.injEq] at h
      omega
    | succ n =>
      cases e with
      | status s =>
        simp only [gather] at h
        split_ifs at h
        · exact ih hlast h
        · simp at h
      | chunk x xs =>
        simp only [gather] at h
        split_ifs at h
        · exact ih (Nat.succ_pos _) h
        · simp only [Prod.mk.injEq, Gathered.full.injEq] at h
          omega

end Gather

end TuyaOpen.ChunkStream
