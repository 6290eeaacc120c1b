import Ninebot.Lib.Coro

/-! # What coroutines spend

    A relation between states that is graded by a budget: nothing is spent by
    doing nothing, and what two steps spend adds up.  A coroutine spends at
    most `n` if every run of it does, however it ends.

    This file defines:
    - `Graded`: relations with a budget
    - `Spends`, with one rule for each way to build a coroutine -/

namespace Coro

/-- A family of relations, one for each budget. -/
structure Graded {σ : Type} (R : Nat → σ → σ → Prop) : Prop where
  refl : ∀ s, R 0 s s
  trans : ∀ {m n s s' s''}, R m s s' → R n s' s'' → R (m + n) s s''
  mono : ∀ {m n s s'}, m ≤ n → R m s s' → R n s s'

/-- However it ends, the coroutine has spent at most `n`. -/
def Spends {σ ε α : Type} (R : Nat → σ → σ → Prop) (n : Nat) (m : Coro σ ε α) : Prop :=
  ∀ s, R n s (m s).2

namespace Spends

variable {σ ε α β : Type} {R : Nat → σ → σ → Prop} {m : Coro σ ε α} {f : α → Coro σ ε β} {n k : Nat}

theorem mono (hR : Graded R) (h : Spends R n m) (hle : n ≤ k) : Spends R k m :=
  fun s => hR.mono hle (h s)

theorem pure (hR : Graded R) (a : α) : Spends R 0 (Pure.pure a : Coro σ ε α) := hR.refl

theorem raise (hR : Graded R) (e : ε) : Spends R 0 (Coro.raise e : Coro σ ε α) := hR.refl

theorem get (hR : Graded R) : Spends R 0 (Coro.get : Coro σ ε σ) := hR.refl

theorem modify {g : σ → σ} (h : ∀ s, R n s (g s)) : Spends R n (Coro.modify g : Coro σ ε Unit) := h

/-- A coroutine that stops in its first half has not spent more than that half. -/
theorem bind (hR : Graded R) (hm : Spends R n m) (hf : ∀ a, Spends R k (f a)) :
    Spends R (n + k) (m >>= f) := by
  intro s
  have hfirst := hm s
  rw [bind_apply]
  rcases hrun : m s with ⟨a | e | _, s'⟩
  · rw [hrun] at hfirst
    exact hR.trans hfirst (hf a s')
  · rw [hrun] at hfirst
    exact hR.mono (Nat.le_add_right n k) hfirst
  · rw [hrun] at hfirst
    exact hR.mono (Nat.le_add_right n k) hfirst

/-- Only the first half spends. -/
theorem bind_free (hR : Graded R) (hm : Spends R n m) (hf : ∀ a, Spends R 0 (f a)) :
    Spends R n (m >>= f) := bind hR hm hf

/-- Only the second half spends. -/
theorem free_bind (hR : Graded R) (hm : Spends R 0 m) (hf : ∀ a, Spends R n (f a)) :
    Spends R n (m >>= f) := by
  have h := bind hR hm hf
  rwa [Nat.zero_add] at h

theorem get_bind (hR : Graded R) {f : σ → Coro σ ε β} (hf : ∀ s, Spends R n (f s)) :
    Spends R n (Coro.get >>= f) := free_bind hR (get hR) hf

theorem modify_bind (hR : Graded R) {g : σ → σ} {f : Unit → Coro σ ε β} (hg : ∀ s, R 0 s (g s))
    (hf : ∀ u, Spends R n (f u)) : Spends R n (Coro.modify g >>= f) :=
  free_bind hR (modify hg) hf

theorem attempt {catches : ε → Bool} (h : Spends R n m) : Spends R n (Coro.attempt catches m) := by
  intro s
  have hsame : (Coro.attempt catches m s).2 = (m s).2 := by
    rw [Coro.attempt]
    rcases m s with ⟨_ | e | _, s'⟩
    · rfl
    · dsimp only
      split <;> rfl
    · rfl
  rw [hsame]
  exact h s

/-- On a part of the state. -/
theorem zoom {τ : Type} {S : Nat → τ → τ → Prop} {part : τ → σ} {put : τ → σ → τ}
    (h : Spends R n m) (hput : ∀ t s, R n (part t) s → S n t (put t s)) :
    Spends S n (Coro.zoom part put m) := fun t => hput t _ (h (part t))

end Spends

end Coro
