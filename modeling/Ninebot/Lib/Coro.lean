import Mathlib.Logic.Basic
import Mathlib.Order.Defs.Unbundled

/-! # Coroutines over a shared state

    A coroutine is a computation over a state that returns a value, raises an
    exception, or is *pending*: it waits for something that the run has not
    supplied.  A pending run is the prefix of a longer one, so a statement
    about all outcomes, pending ones included, is a statement about every
    moment of a run at which the coroutine is suspended.

    This file defines:
    - `Coro`: the monad, with `attempt` for `try: ... except ...:`
    - `Triple`: pre- and postconditions, one postcondition for each outcome
    - `Moves`: a reflexive and transitive relation that no step leaves
-/

/-- How a coroutine ends, or that it does not. -/
inductive Res (ε α : Type) where
  | ret : α → Res ε α
  | raised : ε → Res ε α
  | pending : Res ε α
  deriving DecidableEq, Repr

/-- The value that was returned. -/
def Res.value? {ε α : Type} : Res ε α → Option α
  | .ret a => some a
  | _ => none

/-- The outcome of what does not wait. -/
def Res.ofExcept {ε α : Type} : Except ε α → Res ε α
  | .ok a => .ret a
  | .error e => .raised e

/-- A coroutine over states `σ`, raising `ε` and returning `α`. -/
def Coro (σ ε α : Type) : Type := σ → Res ε α × σ

namespace Coro

variable {σ ε α β : Type}

/-! ## The monad -/

def bind (m : Coro σ ε α) (f : α → Coro σ ε β) : Coro σ ε β := fun s =>
  match m s with
  | (.ret a, s') => f a s'
  | (.raised e, s') => (.raised e, s')
  | (.pending, s') => (.pending, s')

instance : Monad (Coro σ ε) where
  pure a := fun s => (.ret a, s)
  bind := bind

def raise (e : ε) : Coro σ ε α := fun s => (.raised e, s)

/-- Wait for something that never comes. -/
def pend : Coro σ ε α := fun s => (.pending, s)

def get : Coro σ ε σ := fun s => (.ret s, s)

def modify (f : σ → σ) : Coro σ ε Unit := fun s => (.ret (), f s)

/-- Run `m`; hand the exceptions that `catches` selects to the caller as
    values and let every other one pass. -/
def attempt (catches : ε → Bool) (m : Coro σ ε α) : Coro σ ε (Except ε α) := fun s =>
  match m s with
  | (.ret a, s') => (.ret (.ok a), s')
  | (.raised e, s') => if catches e then (.ret (.error e), s') else (.raised e, s')
  | (.pending, s') => (.pending, s')

/-- Does `m` return, and is what it returns as `P` says? -/
def returns (m : Coro σ ε α) (P : α → σ → Bool) (s : σ) : Bool :=
  match m s with
  | (.ret a, s') => P a s'
  | _ => false

/-- Run a coroutine on a part of the state. -/
def zoom {τ : Type} (part : τ → σ) (put : τ → σ → τ) (m : Coro σ ε α) : Coro τ ε α := fun t =>
  ((m (part t)).1, put t (m (part t)).2)

@[simp] theorem pure_apply (a : α) (s : σ) : (pure a : Coro σ ε α) s = (.ret a, s) := rfl

@[simp] theorem raise_apply (e : ε) (s : σ) : (raise e : Coro σ ε α) s = (.raised e, s) := rfl

@[simp] theorem pend_apply (s : σ) : (pend : Coro σ ε α) s = (.pending, s) := rfl

@[simp] theorem get_apply (s : σ) : (get : Coro σ ε σ) s = (.ret s, s) := rfl

@[simp] theorem modify_apply (f : σ → σ) (s : σ) :
    (modify f : Coro σ ε Unit) s = (.ret (), f s) := rfl

theorem bind_apply (m : Coro σ ε α) (f : α → Coro σ ε β) (s : σ) :
    (m >>= f) s = match m s with
      | (.ret a, s') => f a s'
      | (.raised e, s') => (.raised e, s')
      | (.pending, s') => (.pending, s') := rfl

@[simp] theorem get_bind (f : σ → Coro σ ε β) (s : σ) : (get >>= f) s = f s s := rfl

@[simp] theorem modify_bind (g : σ → σ) (f : Unit → Coro σ ε β) (s : σ) :
    (modify g >>= f) s = f () (g s) := rfl

@[simp] theorem pure_bind' (a : α) (f : α → Coro σ ε β) : (pure a >>= f) = f a := rfl

theorem bind_assoc' {γ : Type} (m : Coro σ ε α) (f : α → Coro σ ε β) (g : β → Coro σ ε γ) :
    m >>= f >>= g = m >>= fun a => f a >>= g := by
  funext s
  rw [bind_apply, bind_apply, bind_apply]
  rcases m s with ⟨_ | _ | _, _⟩
  · rfl
  · rfl
  · rfl

theorem bind_of_ret {m : Coro σ ε α} {f : α → Coro σ ε β} {a : α} {s s' : σ}
    (h : m s = (.ret a, s')) : (m >>= f) s = f a s' := by
  rw [bind_apply, h]

/-- What returns has returned at each of its steps. -/
theorem ret_of_bind {m : Coro σ ε α} {f : α → Coro σ ε β} {b : β} {s s' : σ}
    (h : (m >>= f) s = (.ret b, s')) : ∃ a s₁, m s = (.ret a, s₁) ∧ f a s₁ = (.ret b, s') := by
  rw [bind_apply] at h
  rcases hm : m s with ⟨a | _ | _, s₁⟩
  · rw [hm] at h
    exact ⟨a, s₁, rfl, h⟩
  · rw [hm] at h
    cases h
  · rw [hm] at h
    cases h

theorem returns_of_ret {m : Coro σ ε α} {P : α → σ → Bool} {a : α} {s s' : σ}
    (h : m s = (.ret a, s')) : returns m P s = P a s' := by
  rw [returns, h]

theorem ret_of_returns {m : Coro σ ε α} {P : α → σ → Bool} {s : σ} (h : returns m P s = true) :
    ∃ a s', m s = (.ret a, s') ∧ P a s' = true := by
  unfold returns at h
  rcases hm : m s with ⟨a | e | _, s'⟩
  · rw [hm] at h
    exact ⟨a, s', rfl, h⟩
  · rw [hm] at h
    cases h
  · rw [hm] at h
    cases h

theorem attempt_of_ret {catches : ε → Bool} {m : Coro σ ε α} {a : α} {s s' : σ}
    (h : m s = (.ret a, s')) : attempt catches m s = (.ret (.ok a), s') := by
  rw [attempt, h]

/-- An `attempt` that has caught nothing. -/
theorem ret_of_attempt {catches : ε → Bool} {m : Coro σ ε α} {a : α} {s s' : σ}
    (h : attempt catches m s = (.ret (.ok a), s')) : m s = (.ret a, s') := by
  rw [attempt] at h
  rcases hm : m s with ⟨b | e | _, s₁⟩
  · rw [hm] at h
    cases h
    rfl
  · rw [hm] at h
    dsimp only at h
    by_cases he : catches e
    · rw [if_pos he] at h
      cases h
    · rw [if_neg he] at h
      cases h
  · rw [hm] at h
    cases h

/-- A run whose outcome is known. -/
theorem run_eq {m : Coro σ ε α} {s : σ} {r : Res ε α} (h : (m s).1 = r) : m s = (r, (m s).2) :=
  Prod.ext h rfl

/-! ## Pre- and postconditions -/

/-- One postcondition for each way to end. -/
def Holds (Q : α → σ → Prop) (E : ε → σ → Prop) (C : σ → Prop) : Res ε α → σ → Prop
  | .ret a, s => Q a s
  | .raised e, s => E e s
  | .pending, s => C s

/-- From state `s`, `m` returns in `Q`, raises in `E` or is pending in `C`. -/
def Triple (m : Coro σ ε α) (s : σ) (Q : α → σ → Prop) (E : ε → σ → Prop)
    (C : σ → Prop) : Prop :=
  Holds Q E C (m s).1 (m s).2

namespace Triple

variable {m : Coro σ ε α} {f : α → Coro σ ε β} {s : σ}
  {Q Q' : α → σ → Prop} {R : β → σ → Prop} {E E' : ε → σ → Prop} {C C' : σ → Prop}

theorem pure {a : α} (h : Q a s) : Triple (Pure.pure a) s Q E C := h

theorem raise {e : ε} (h : E e s) : Triple (Coro.raise e) s Q E C := h

theorem pend (h : C s) : Triple Coro.pend s Q E C := h

theorem get {Q : σ → σ → Prop} (h : Q s s) : Triple Coro.get s Q E C := h

theorem modify {g : σ → σ} {Q : Unit → σ → Prop} (h : Q () (g s)) :
    Triple (Coro.modify g) s Q E C := h

theorem mono (h : Triple m s Q E C) (hQ : ∀ a s', Q a s' → Q' a s')
    (hE : ∀ e s', E e s' → E' e s') (hC : ∀ s', C s' → C' s') :
    Triple m s Q' E' C' := by
  unfold Triple at *
  generalize m s = r at *
  rcases r with ⟨_ | _ | _, s'⟩
  · exact hQ _ _ h
  · exact hE _ _ h
  · exact hC _ h

theorem mono_ret (h : Triple m s Q E C) (hQ : ∀ a s', Q a s' → Q' a s') : Triple m s Q' E C :=
  h.mono hQ (fun _ _ he => he) fun _ hc => hc

theorem mono_raised (h : Triple m s Q E C) (hE : ∀ e s', E e s' → E' e s') : Triple m s Q E' C :=
  h.mono (fun _ _ hq => hq) hE fun _ hc => hc

theorem bind (hm : Triple m s Q E C) (hf : ∀ a s', Q a s' → Triple (f a) s' R E C) :
    Triple (m >>= f) s R E C := by
  unfold Triple at hm
  unfold Triple
  rw [bind_apply]
  rcases hs : m s with ⟨_ | _ | _, s'⟩ <;> rw [hs] at hm
  · exact hf _ _ hm
  · exact hm
  · exact hm

theorem get_bind {f : σ → Coro σ ε β} (h : Triple (f s) s R E C) :
    Triple (Coro.get >>= f) s R E C := h

theorem modify_bind {g : σ → σ} {f : Unit → Coro σ ε β} (h : Triple (f ()) (g s) R E C) :
    Triple (Coro.modify g >>= f) s R E C := h

/-- An `attempt` returns the exceptions it catches and raises the others. -/
theorem attempt {catches : ε → Bool} {R : Except ε α → σ → Prop}
    (hm : Triple m s (fun a s' => R (.ok a) s')
      (fun e s' => if catches e then R (.error e) s' else E e s') C) :
    Triple (Coro.attempt catches m) s R E C := by
  unfold Triple at *
  unfold Coro.attempt
  rcases hs : m s with ⟨a | e | _, s'⟩ <;> rw [hs] at hm
  · exact hm
  · by_cases he : catches e <;> simpa [he, Holds] using hm
  · exact hm

/-- `try: m except ...:` with what follows, for each of the two ways to go on. -/
theorem attempt_bind {catches : ε → Bool} {f : Except ε α → Coro σ ε β} {X : ε → σ → Prop}
    (hm : Triple m s Q (fun e s' => if catches e then X e s' else E e s') C)
    (hok : ∀ a s', Q a s' → Triple (f (.ok a)) s' R E C)
    (herr : ∀ e s', X e s' → Triple (f (.error e)) s' R E C) :
    Triple (Coro.attempt catches m >>= f) s R E C := by
  unfold Triple at hm
  unfold Triple
  rw [bind_apply]
  unfold Coro.attempt
  rcases hs : m s with ⟨a | e | _, s'⟩ <;> rw [hs] at hm
  · exact hok a s' hm
  · by_cases he : catches e
    · simp only [he, if_true]
      exact herr e s' (by simpa [he, Holds] using hm)
    · simpa [he, Holds] using hm
  · exact hm

/-- What an `attempt` makes of each outcome. -/
theorem of_attempt (catches : ε → Bool) (m : Coro σ ε α) (s : σ) :
    Triple m s (fun a s' => Coro.attempt catches m s = (.ret (.ok a), s'))
      (fun e s' => if catches e then Coro.attempt catches m s = (.ret (.error e), s')
        else Coro.attempt catches m s = (.raised e, s'))
      (fun s' => Coro.attempt catches m s = (.pending, s')) := by
  unfold Triple Coro.attempt
  rcases m s with ⟨a | e | _, s'⟩
  · rfl
  · by_cases he : catches e <;> simp [he, Holds]
  · rfl

theorem zoom {τ : Type} {part : τ → σ} {put : τ → σ → τ} {t : τ} {T : α → τ → Prop}
    {X : ε → τ → Prop} {D : τ → Prop}
    (h : Triple m (part t) (fun a s' => T a (put t s')) (fun e s' => X e (put t s'))
      (fun s' => D (put t s'))) : Triple (Coro.zoom part put m) t T X D := by
  unfold Triple at *
  unfold Coro.zoom
  generalize m (part t) = r at *
  rcases r with ⟨_ | _ | _, s'⟩ <;> exact h

theorem and {E₂ : ε → σ → Prop} {C₂ : σ → Prop} (h : Triple m s Q E C)
    (h' : Triple m s Q' E₂ C₂) :
    Triple m s (fun a s' => Q a s' ∧ Q' a s') (fun e s' => E e s' ∧ E₂ e s')
      (fun s' => C s' ∧ C₂ s') := by
  unfold Triple at *
  generalize m s = r at *
  rcases r with ⟨_ | _ | _, s'⟩ <;> exact ⟨h, h'⟩

/-- One relation between outcome and last state, read off each outcome. -/
theorem iff_result {P : Res ε α → σ → Prop} :
    Triple m s (fun a => P (.ret a)) (fun e => P (.raised e)) (P .pending) ↔
      P (m s).1 (m s).2 := by
  unfold Triple
  generalize m s = r
  rcases r with ⟨_ | _ | _, s'⟩ <;> exact Iff.rfl

/-- A postcondition that does not look at the outcome is one on the last state. -/
theorem iff_last {I : σ → Prop} :
    Triple m s (fun _ => I) (fun _ => I) I ↔ I (m s).2 := by
  unfold Triple
  generalize m s = r
  rcases r with ⟨_ | _ | _, s'⟩ <;> exact Iff.rfl

theorem of_last {I : σ → Prop} (h : I (m s).2) : Triple m s (fun _ => I) (fun _ => I) I :=
  iff_last.mpr h

/-- What each outcome says of the last state. -/
theorem last {I : σ → Prop} (h : Triple m s Q E C) (hQ : ∀ a s', Q a s' → I s')
    (hE : ∀ e s', E e s' → I s') (hC : ∀ s', C s' → I s') : I (m s).2 :=
  iff_last.mp (h.mono hQ hE hC)

theorem ret_of (h : Triple m s Q E C) {a : α} {s' : σ} (hs : m s = (.ret a, s')) : Q a s' := by
  unfold Triple at h; rw [hs] at h; exact h

theorem raised_of (h : Triple m s Q E C) {e : ε} {s' : σ} (hs : m s = (.raised e, s')) :
    E e s' := by
  unfold Triple at h; rw [hs] at h; exact h

end Triple

/-! ## Relations that every step keeps -/

/-- Whatever the outcome, `m` moves along `R`. -/
def Moves (R : σ → σ → Prop) (m : Coro σ ε α) : Prop := ∀ s, R s (m s).2

namespace Moves

variable {R : σ → σ → Prop} {m : Coro σ ε α} {f : α → Coro σ ε β}

theorem pure [Std.Refl R] (a : α) : Moves R (Pure.pure a : Coro σ ε α) := fun s => refl_of R s

theorem raise [Std.Refl R] (e : ε) : Moves R (Coro.raise e : Coro σ ε α) := fun s => refl_of R s

theorem pend [Std.Refl R] : Moves R (Coro.pend : Coro σ ε α) := fun s => refl_of R s

theorem get [Std.Refl R] : Moves R (Coro.get : Coro σ ε σ) := fun s => refl_of R s

theorem modify {g : σ → σ} (h : ∀ s, R s (g s)) : Moves R (Coro.modify g : Coro σ ε Unit) := h

theorem bind [IsTrans σ R] (hm : Moves R m) (hf : ∀ a, Moves R (f a)) :
    Moves R (m >>= f) := by
  intro s
  have h := hm s
  rw [bind_apply]
  rcases hs : m s with ⟨a | _ | _, s'⟩ <;> rw [hs] at h
  · exact trans_of R h (hf a s')
  · exact h
  · exact h

theorem attempt {catches : ε → Bool} (hm : Moves R m) :
    Moves R (Coro.attempt catches m) := by
  intro s
  have h := hm s
  unfold Coro.attempt
  rcases hs : m s with ⟨_ | e | _, s'⟩ <;> rw [hs] at h
  · exact h
  · by_cases he : catches e <;> simpa [he] using h
  · exact h

/-- A relation that every run keeps can be read off each outcome. -/
theorem triple (h : Moves R m) (s : σ) :
    Triple m s (fun _ s' => R s s') (fun _ s' => R s s') (fun s' => R s s') :=
  Triple.of_last (h s)

end Moves

end Coro
