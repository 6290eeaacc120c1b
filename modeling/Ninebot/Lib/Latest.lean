import Mathlib.Data.List.Induction

/-! # The latest word

    A fold in which every step either overwrites what is looked at or leaves
    it alone.  What is seen at the end was written by the latest step that
    wrote anything.

    This file defines:
    - `latest`: the last element of a list with a property
    - `view_foldl`: a view of a fold, from its latest overwriting step -/

section Latest

variable {σ τ β : Type}

/-- The last element that `writes`. -/
def latest (writes : τ → Bool) (ts : List τ) : Option τ := ts.reverse.find? writes

variable {writes : τ → Bool}

@[simp] theorem latest_nil : latest writes [] = none := rfl

theorem latest_append (ts us : List τ) :
    latest writes (ts ++ us) = (latest writes us).or (latest writes ts) := by
  unfold latest
  rw [List.reverse_append, List.find?_append]

theorem latest_concat (ts : List τ) (t : τ) :
    latest writes (ts ++ [t]) = if writes t then some t else latest writes ts := by
  rw [latest_append]
  show Option.or ([t].find? writes) _ = _
  by_cases h : writes t <;> simp [h]

variable {step : σ → τ → σ} {read : τ → β}

/-- The view of a fold is what its latest overwriting step wrote. -/
theorem view_foldl (view : σ → β)
    (h : ∀ s t, view (step s t) = if writes t then read t else view s)
    (s : σ) (ts : List τ) :
    view (ts.foldl step s) = ((latest writes ts).map read).getD (view s) := by
  induction ts using List.reverseRecOn with
  | nil => rfl
  | append_singleton ts t ih =>
    rw [List.foldl_append, latest_concat]
    show view (step (ts.foldl step s) t) = _
    rw [h, ih]
    by_cases ht : writes t <;> simp [ht]

end Latest
