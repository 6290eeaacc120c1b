import Ninebot.Lib.Coro

/-! # Coroutines and their surroundings

    A coroutine that reads what it waits for from a script says nothing about
    where the script comes from.  Here it comes from an environment with a
    state of its own, and the two take turns: `Meets` says that the coroutine,
    started in one state and met by the environment in another, ends so.

    This file defines:
    - `Environment`: what may be supplied, and what becomes of the environment
    - `Scripted`: states that hold a script
    - `Meets`, with one rule for each way to build a coroutine -/

namespace Coro

/-- Which scripts an environment may supply, and its state afterwards. -/
structure Environment (E τ : Type) where
  plays : E → List τ → E → Prop
  refl : ∀ e, plays e [] e
  trans : ∀ {e e' e'' script script'}, plays e script e' → plays e' script' e'' →
    plays e (script ++ script') e''

/-- States that hold the script of what is to come. -/
class Scripted (σ : Type) (τ : outParam Type) where
  supply : List τ → σ → σ

section Meets

variable {σ ε α β τ E : Type} [Scripted σ τ]

open Scripted

/-- Met by the environment in state `e`, the run of `m` from `s` ends in `res`
    and `s'`, with the environment in `e'`.  The script is used up: whatever
    was to come after it is still to come. -/
def Meets (env : Environment E τ) (m : Coro σ ε α) (e : E) (s : σ) (res : Res ε α) (e' : E)
    (s' : σ) : Prop :=
  ∃ script, env.plays e script e' ∧ ∀ rest, m (supply (script ++ rest) s) = (res, supply rest s')

namespace Meets

variable {env : Environment E τ} {m : Coro σ ε α} {f : α → Coro σ ε β} {e e₁ e₂ : E}
  {s s₁ s₂ : σ} {a : α} {x : ε} {res : Res ε β}

/-- Steps that wait for nothing. -/
theorem of_eq {r : Res ε α} (h : ∀ rest, m (supply rest s) = (r, supply rest s₁)) :
    Meets env m e s r e s₁ :=
  ⟨[], env.refl e, h⟩

theorem pure : Meets env (Pure.pure a : Coro σ ε α) e s (.ret a) e s := of_eq fun _ => rfl

theorem raise : Meets env (Coro.raise x : Coro σ ε α) e s (.raised x) e s := of_eq fun _ => rfl

theorem modify {g : σ → σ} (h : ∀ rest, g (supply rest s) = supply rest (g s)) :
    Meets env (Coro.modify g : Coro σ ε Unit) e s (.ret ()) e (g s) :=
  of_eq fun rest => congrArg (Prod.mk _) (h rest)

theorem bind (hm : Meets env m e s (.ret a) e₁ s₁) (hf : Meets env (f a) e₁ s₁ res e₂ s₂) :
    Meets env (m >>= f) e s res e₂ s₂ := by
  obtain ⟨script₁, hplays₁, hrun₁⟩ := hm
  obtain ⟨script₂, hplays₂, hrun₂⟩ := hf
  refine ⟨script₁ ++ script₂, env.trans hplays₁ hplays₂, fun rest => ?_⟩
  rw [List.append_assoc, bind_of_ret (hrun₁ _)]
  exact hrun₂ rest

theorem bind_raised (hm : Meets env m e s (.raised x) e₁ s₁) :
    Meets env (m >>= f) e s (.raised x) e₁ s₁ := by
  obtain ⟨script, hplays, hrun⟩ := hm
  refine ⟨script, hplays, fun rest => ?_⟩
  rw [bind_apply, hrun]

/-- What is read of the state does not depend on the script. -/
theorem get_bind {f : σ → Coro σ ε β} (hsame : ∀ rest, f (supply rest s) = f s)
    (h : Meets env (f s) e s res e₁ s₁) : Meets env (Coro.get >>= f) e s res e₁ s₁ := by
  obtain ⟨script, hplays, hrun⟩ := h
  refine ⟨script, hplays, fun rest => ?_⟩
  rw [Coro.get_bind, hsame]
  exact hrun rest

theorem modify_bind {g : σ → σ} {f : Unit → Coro σ ε β}
    (hg : ∀ rest, g (supply rest s) = supply rest (g s))
    (h : Meets env (f ()) e (g s) res e₂ s₂) : Meets env (Coro.modify g >>= f) e s res e₂ s₂ :=
  bind (modify hg) h

theorem attempt {catches : ε → Bool} (hm : Meets env m e s (.ret a) e₁ s₁) :
    Meets env (Coro.attempt catches m) e s (.ret (.ok a)) e₁ s₁ := by
  obtain ⟨script, hplays, hrun⟩ := hm
  exact ⟨script, hplays, fun rest => attempt_of_ret (hrun rest)⟩

theorem attempt_caught {catches : ε → Bool} (hm : Meets env m e s (.raised x) e₁ s₁)
    (hx : catches x = true) : Meets env (Coro.attempt catches m) e s (.ret (.error x)) e₁ s₁ := by
  obtain ⟨script, hplays, hrun⟩ := hm
  refine ⟨script, hplays, fun rest => ?_⟩
  rw [Coro.attempt, hrun]
  simp [hx]

/-- A coroutine on a part of the state that holds the script. -/
theorem zoom {ρ : Type} [Scripted ρ τ] {part : ρ → σ} {put : ρ → σ → ρ} {t : ρ} {r : Res ε α}
    (hm : Meets env m e (part t) r e₁ s₁)
    (hpart : ∀ rest, part (supply rest t) = supply rest (part t))
    (hput : ∀ rest rest' s, put (supply rest t) (supply rest' s) = supply rest' (put t s)) :
    Meets env (Coro.zoom part put m) e t r e₁ (put t s₁) := by
  obtain ⟨script, hplays, hrun⟩ := hm
  refine ⟨script, hplays, fun rest => ?_⟩
  rw [Coro.zoom, hpart, hrun]
  exact congrArg (Prod.mk r) (hput _ _ _)

end Meets

end Meets

end Coro
