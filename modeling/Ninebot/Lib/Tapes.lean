import Mathlib.Data.List.Forall2
import Ninebot.Lib.Coro

/-! # Two runs side by side

    A state carries a tape of input.  A coroutine reads the tape step by step
    and is pending when it is at its end, so cutting the tape after `n` steps
    gives the moment after the `n`-th step of the run.

    Two runs are compared step by step: if at every such moment both have had
    the same view, then both end alike, in states related by `R`.

    This file defines:
    - `Taped`: a state with a tape
    - `Reads`: a coroutine that does not look ahead on the tape
    - `Couples`: two runs that end alike if they are in step
    - `Alike`: two coroutines all of whose runs couple, with a rule for each
      operation -/

namespace Coro

/-- A state with an input tape. -/
class Taped (σ : Type) (τ : outParam Type) where
  tape : σ → List τ
  setTape : σ → List τ → σ
  tape_setTape : ∀ s t, tape (setTape s t) = t
  setTape_setTape : ∀ s t u, setTape (setTape s t) u = setTape s u
  setTape_tape : ∀ s, setTape s (tape s) = s

export Taped (tape setTape)

/-- The same state with no more than `n` steps to come. -/
def cut {σ τ : Type} [Taped σ τ] (n : Nat) (s : σ) : σ := setTape s ((tape s).take n)

variable {σ τ ε α β γ : Type} [Taped σ τ]

/-- From the end of the tape on, nothing more is cut off. -/
theorem cut_of_length_le {n : Nat} {s : σ} (h : (tape s).length ≤ n) : cut n s = s := by
  unfold cut
  rw [List.take_of_length_le h, Taped.setTape_tape]

/-! ## Not looking ahead -/

/-- A run that has ended has used up the beginning of the tape, and would have
    ended so whatever comes next on it. -/
def Reads (m : Coro σ ε α) : Prop :=
  ∀ s r s₁, m s = (r, s₁) → r ≠ .pending →
    ∃ used, tape s = used ++ tape s₁ ∧ ∀ t, m (setTape s (used ++ t)) = (r, setTape s₁ t)

namespace Reads

variable {m : Coro σ ε α}

theorem pure (a : α) : Reads (Pure.pure a : Coro σ ε α) := by
  intro s r s₁ h _
  cases h
  exact ⟨[], rfl, fun _ => rfl⟩

theorem raise (e : ε) : Reads (Coro.raise e : Coro σ ε α) := by
  intro s r s₁ h _
  cases h
  exact ⟨[], rfl, fun _ => rfl⟩

theorem pend : Reads (Coro.pend : Coro σ ε α) := by
  intro s r s₁ h hr
  cases h
  exact absurd rfl hr

/-- A step that has nothing to do with the tape. -/
theorem modify {g : σ → σ} (hg : ∀ s t, g (setTape s t) = setTape (g s) t) :
    Reads (Coro.modify g : Coro σ ε Unit) := by
  intro s r s₁ h _
  cases h
  have htape : tape (g s) = tape s := by
    have hsame := hg s (tape s)
    rw [Taped.setTape_tape] at hsame
    rw [hsame, Taped.tape_setTape]
  refine ⟨[], htape.symm, fun t => ?_⟩
  show (Res.ret (), g (setTape s t)) = _
  rw [hg]

theorem get_bind {f : σ → Coro σ ε β} (hf : ∀ s t, f (setTape s t) = f s)
    (h : ∀ s, Reads (f s)) : Reads (Coro.get >>= f) := by
  intro s r s₁ hrun hr
  obtain ⟨used, htape, hmore⟩ := h s s r s₁ hrun hr
  refine ⟨used, htape, fun t => ?_⟩
  rw [Coro.get_bind, hf]
  exact hmore t

theorem bind {f : α → Coro σ ε β} (hm : Reads m) (hf : ∀ a, Reads (f a)) : Reads (m >>= f) := by
  intro s r s₂ hrun hr
  rw [bind_apply] at hrun
  rcases hs : m s with ⟨a | e | _, s₁⟩
  · rw [hs] at hrun
    obtain ⟨used, htape, hmore⟩ := hm s _ s₁ hs (by simp)
    obtain ⟨used', htape', hmore'⟩ := hf a s₁ r s₂ hrun hr
    -- What `f` uses is more of what `m` has left.
    refine ⟨used ++ used', by rw [htape, htape', List.append_assoc], fun t => ?_⟩
    rw [List.append_assoc, bind_of_ret (hmore (used' ++ t))]
    exact hmore' t
  · rw [hs] at hrun
    cases hrun
    obtain ⟨used, htape, hmore⟩ := hm s _ s₂ hs (by simp)
    refine ⟨used, htape, fun t => ?_⟩
    rw [bind_apply, hmore t]
  · rw [hs] at hrun
    cases hrun
    exact absurd rfl hr

theorem attempt {catches : ε → Bool} (hm : Reads m) : Reads (Coro.attempt catches m) := by
  intro s r s₁ hrun hr
  unfold Coro.attempt at hrun ⊢
  rcases hs : m s with ⟨a | e | _, s₂⟩
  · obtain ⟨used, htape, hmore⟩ := hm s _ s₂ hs (by simp)
    rw [hs] at hrun
    cases hrun
    refine ⟨used, htape, fun t => ?_⟩
    rw [hmore t]
  · obtain ⟨used, htape, hmore⟩ := hm s _ s₂ hs (by simp)
    rw [hs] at hrun
    dsimp only at hrun
    -- Whether it catches the exception or not, nothing more is read.
    by_cases he : catches e
    · rw [if_pos he] at hrun
      cases hrun
      refine ⟨used, htape, fun t => ?_⟩
      rw [hmore t]
      exact if_pos he
    · rw [if_neg he] at hrun
      cases hrun
      refine ⟨used, htape, fun t => ?_⟩
      rw [hmore t]
      exact if_neg he
  · rw [hs] at hrun
    cases hrun
    exact absurd rfl hr

end Reads

/-! ## Two runs -/

/-- At every moment at which both wait, both have had the same view. -/
def InStep (view : σ → γ) (m m' : Coro σ ε α) (s s' : σ) : Prop :=
  ∀ n, (m (cut n s)).1 = .pending → (m' (cut n s')).1 = .pending →
    view (m (cut n s)).2 = view (m' (cut n s')).2

namespace InStep

variable {view : σ → γ} {m m' : Coro σ ε α} {s s' : σ}

theorem of_get_bind {f f' : σ → Coro σ ε β} (hf : ∀ t, f (setTape s t) = f s)
    (hf' : ∀ t, f' (setTape s' t) = f' s')
    (h : InStep view (Coro.get >>= f) (Coro.get >>= f') s s') :
    InStep view (f s) (f' s') s s' := by
  intro n hn hn'
  have hview := h n
  rw [Coro.get_bind, Coro.get_bind] at hview
  unfold cut at hview hn hn' ⊢
  rw [hf, hf'] at hview
  exact hview hn hn'

/-- A step that leaves the tape alone may as well be taken after the cut. -/
theorem step_cut {g : σ → σ} (hg : ∀ t, g (setTape s t) = setTape (g s) t) (n : Nat) :
    g (cut n s) = cut n (g s) := by
  have hsame := hg (tape s)
  rw [Taped.setTape_tape] at hsame
  unfold cut
  rw [hg, hsame, Taped.tape_setTape, Taped.setTape_setTape]

theorem of_modify_bind {g g' : σ → σ} {f f' : Unit → Coro σ ε β}
    (hg : ∀ t, g (setTape s t) = setTape (g s) t) (hg' : ∀ t, g' (setTape s' t) = setTape (g' s') t)
    (h : InStep view (Coro.modify g >>= f) (Coro.modify g' >>= f') s s') :
    InStep view (f ()) (f' ()) (g s) (g' s') := by
  intro n hn hn'
  have hview := h n
  rw [Coro.modify_bind, Coro.modify_bind, step_cut hg, step_cut hg'] at hview
  exact hview hn hn'

/-- While `m` waits, so does `m >>= f`. -/
theorem of_bind {f f' : α → Coro σ ε β} (h : InStep view (m >>= f) (m' >>= f') s s') :
    InStep view m m' s s' := by
  intro n hn hn'
  have hview := h n
  rw [bind_apply, bind_apply, run_eq hn, run_eq hn'] at hview
  exact hview rfl rfl

theorem of_attempt {catches : ε → Bool}
    (h : InStep view (Coro.attempt catches m) (Coro.attempt catches m') s s') :
    InStep view m m' s s' := by
  have hpending : ∀ {m : Coro σ ε α} {s : σ}, (m s).1 = .pending →
      Coro.attempt catches m s = (.pending, (m s).2) := by
    intro m s hs
    unfold Coro.attempt
    rw [run_eq hs]
  intro n hn hn'
  have hview := h n
  rw [hpending hn, hpending hn'] at hview
  exact hview rfl rfl

end InStep

/-- States with as much on the one tape as on the other. -/
class Tallies (R : σ → σ → Prop) : Prop where
  length : ∀ {s s'}, R s s' → (tape s').length = (tape s).length

/-- Runs that are in step end alike. -/
def Couples (R : σ → σ → Prop) (view : σ → γ) (m m' : Coro σ ε α) (s s' : σ) : Prop :=
  InStep view m m' s s' → (m' s').1 = (m s).1 ∧ R (m s).2 (m' s').2

namespace Couples

variable {R : σ → σ → Prop} {view : σ → γ} {m m' : Coro σ ε α} {s s' : σ}

theorem pure (h : R s s') (a : α) :
    Couples R view (Pure.pure a : Coro σ ε α) (Pure.pure a) s s' := fun _ => ⟨rfl, h⟩

theorem raise (h : R s s') (e : ε) :
    Couples R view (Coro.raise e : Coro σ ε α) (Coro.raise e) s s' := fun _ => ⟨rfl, h⟩

theorem pend (h : R s s') : Couples R view (Coro.pend : Coro σ ε α) Coro.pend s s' :=
  fun _ => ⟨rfl, h⟩

theorem modify {g g' : σ → σ} (h : R (g s) (g' s')) :
    Couples R view (Coro.modify g : Coro σ ε Unit) (Coro.modify g') s s' := fun _ => ⟨rfl, h⟩

theorem get_bind {f f' : σ → Coro σ ε β} (hf : ∀ t, f (setTape s t) = f s)
    (hf' : ∀ t, f' (setTape s' t) = f' s') (h : Couples R view (f s) (f' s') s s') :
    Couples R view (Coro.get >>= f) (Coro.get >>= f') s s' :=
  fun hstep => h (hstep.of_get_bind hf hf')

/-- Cutting after what was used and `n` steps more. -/
theorem cut_used {used : List τ} {s s₁ : σ} (h : tape s = used ++ tape s₁) (n : Nat) :
    cut (used.length + n) s = setTape s (used ++ (tape s₁).take n) := by
  unfold cut
  rw [h, List.take_length_add_append]

/-- What follows is in step from where `m` has ended. -/
theorem inStep_after [Tallies R] {f f' : α → Coro σ ε β} (hs : R s s') (hm : Reads m)
    (hm' : Reads m') {a : α} {s₁ s₁' : σ} (hrun : m s = (.ret a, s₁))
    (hrun' : m' s' = (.ret a, s₁')) (hs₁ : R s₁ s₁')
    (h : InStep view (m >>= f) (m' >>= f') s s') : InStep view (f a) (f' a) s₁ s₁' := by
  obtain ⟨used, htape, hmore⟩ := hm s _ s₁ hrun (by simp)
  obtain ⟨used', htape', hmore'⟩ := hm' s' _ s₁' hrun' (by simp)
  -- Both have used the same number of steps.
  have hused : used'.length = used.length := by
    have hlen : (tape s').length = (tape s).length := Tallies.length hs
    have hlen₁ : (tape s₁').length = (tape s₁).length := Tallies.length hs₁
    rw [htape, htape', List.length_append, List.length_append] at hlen
    omega
  -- The `n`-th moment of what follows is a moment of the whole.
  intro n hn hn'
  have hview := h (used.length + n)
  have hcut := cut_used htape n
  have hcut' := cut_used htape' n
  rw [hused] at hcut'
  rw [hcut, hcut', bind_of_ret (hmore _), bind_of_ret (hmore' _)] at hview
  exact hview hn hn'

theorem bind [Tallies R] {f f' : α → Coro σ ε β} (hs : R s s') (hm : Reads m) (hm' : Reads m')
    (hfirst : Couples R view m m' s s')
    (hrest : ∀ a s₁ s₁', m s = (.ret a, s₁) → m' s' = (.ret a, s₁') → R s₁ s₁' →
      Couples R view (f a) (f' a) s₁ s₁') : Couples R view (m >>= f) (m' >>= f') s s' := by
  intro hstep
  obtain ⟨hres, hlast⟩ := hfirst hstep.of_bind
  rcases hrun : m s with ⟨a | e | _, s₁⟩
  · rw [hrun] at hres hlast
    have hrun' := run_eq hres
    -- Both have returned the same value, and both go on from there.
    rw [bind_of_ret hrun, bind_of_ret hrun']
    exact hrest a s₁ _ hrun hrun' hlast (inStep_after hs hm hm' hrun hrun' hlast hstep)
  · rw [hrun] at hres hlast
    rw [bind_apply, bind_apply, hrun, run_eq hres]
    exact ⟨rfl, hlast⟩
  · rw [hrun] at hres hlast
    rw [bind_apply, bind_apply, hrun, run_eq hres]
    exact ⟨rfl, hlast⟩

theorem modify_bind {g g' : σ → σ} {f f' : Unit → Coro σ ε β}
    (hg : ∀ t, g (setTape s t) = setTape (g s) t) (hg' : ∀ t, g' (setTape s' t) = setTape (g' s') t)
    (h : Couples R view (f ()) (f' ()) (g s) (g' s')) :
    Couples R view (Coro.modify g >>= f) (Coro.modify g' >>= f') s s' :=
  fun hstep => h (hstep.of_modify_bind hg hg')

theorem attempt {catches : ε → Bool} (h : Couples R view m m' s s') :
    Couples R view (Coro.attempt catches m) (Coro.attempt catches m') s s' := by
  intro hstep
  obtain ⟨hres, hlast⟩ := h hstep.of_attempt
  unfold Coro.attempt
  rcases hrun : m s with ⟨a | e | _, s₁⟩
  · rw [hrun] at hres hlast
    rw [run_eq hres]
    exact ⟨rfl, hlast⟩
  · rw [hrun] at hres hlast
    rw [run_eq hres]
    dsimp only
    by_cases he : catches e
    · rw [if_pos he, if_pos he]
      exact ⟨rfl, hlast⟩
    · rw [if_neg he, if_neg he]
      exact ⟨rfl, hlast⟩
  · rw [hrun] at hres hlast
    rw [run_eq hres]
    exact ⟨rfl, hlast⟩

end Couples

/-! ## Two programs -/

/-- Steps that leave the tape alone and keep related states related. -/
structure Parallel (R : σ → σ → Prop) (g g' : σ → σ) : Prop where
  free : ∀ s t, g (setTape s t) = setTape (g s) t
  free' : ∀ s t, g' (setTape s t) = setTape (g' s) t
  keeps : ∀ s s', R s s' → R (g s) (g' s')

/-- Programs whose runs end alike from all related states. -/
structure Alike (R : σ → σ → Prop) (view : σ → γ) (m m' : Coro σ ε α) : Prop where
  reads : Reads m
  reads' : Reads m'
  couples : ∀ s s', R s s' → Couples R view m m' s s'

namespace Alike

variable {R : σ → σ → Prop} {view : σ → γ} {m m' : Coro σ ε α}

theorem pure (a : α) : Alike R view (Pure.pure a : Coro σ ε α) (Pure.pure a) :=
  ⟨Reads.pure a, Reads.pure a, fun _ _ h => Couples.pure h a⟩

theorem raise (e : ε) : Alike R view (Coro.raise e : Coro σ ε α) (Coro.raise e) :=
  ⟨Reads.raise e, Reads.raise e, fun _ _ h => Couples.raise h e⟩

theorem pend : Alike R view (Coro.pend : Coro σ ε α) Coro.pend :=
  ⟨Reads.pend, Reads.pend, fun _ _ h => Couples.pend h⟩

theorem modify {g g' : σ → σ} (h : Parallel R g g') :
    Alike R view (Coro.modify g : Coro σ ε Unit) (Coro.modify g') :=
  ⟨Reads.modify h.free, Reads.modify h.free', fun s s' hs => Couples.modify (h.keeps s s' hs)⟩

/-- What follows a look at the state may depend on all of it but the tape. -/
theorem get_bind [Std.Refl R] {f f' : σ → Coro σ ε β} (hf : ∀ s t, f (setTape s t) = f s)
    (hf' : ∀ s t, f' (setTape s t) = f' s) (h : ∀ s s', R s s' → Alike R view (f s) (f' s')) :
    Alike R view (Coro.get >>= f) (Coro.get >>= f') where
  reads := Reads.get_bind hf fun s => (h s s (refl_of R s)).reads
  reads' := Reads.get_bind hf' fun s => (h s s (refl_of R s)).reads'
  couples s s' hs := Couples.get_bind (hf s) (hf' s') ((h s s' hs).couples s s' hs)

theorem bind [Tallies R] {f f' : α → Coro σ ε β} (hm : Alike R view m m')
    (hf : ∀ a, Alike R view (f a) (f' a)) : Alike R view (m >>= f) (m' >>= f') where
  reads := Reads.bind hm.reads fun a => (hf a).reads
  reads' := Reads.bind hm.reads' fun a => (hf a).reads'
  couples s s' hs := Couples.bind hs hm.reads hm.reads' (hm.couples s s' hs)
    fun a s₁ s₁' _ _ hs₁ => (hf a).couples s₁ s₁' hs₁

theorem modify_bind [Tallies R] {g g' : σ → σ} {f f' : Unit → Coro σ ε β} (hg : Parallel R g g')
    (hf : Alike R view (f ()) (f' ())) :
    Alike R view (Coro.modify g >>= f) (Coro.modify g' >>= f') :=
  bind (modify hg) fun _ => hf

theorem attempt {catches : ε → Bool} (h : Alike R view m m') :
    Alike R view (Coro.attempt catches m) (Coro.attempt catches m') where
  reads := Reads.attempt h.reads
  reads' := Reads.attempt h.reads'
  couples s s' hs := Couples.attempt (h.couples s s' hs)

/-- What follows may depend on how `m` has run. -/
theorem bind_couples [Tallies R] {f f' : α → Coro σ ε β} (hm : Alike R view m m') {s s' : σ}
    (hs : R s s') (hrest : ∀ a s₁ s₁', m s = (.ret a, s₁) → R s₁ s₁' →
      Couples R view (f a) (f' a) s₁ s₁') : Couples R view (m >>= f) (m' >>= f') s s' :=
  Couples.bind hs hm.reads hm.reads' (hm.couples s s' hs)
    fun a s₁ s₁' hrun _ hs₁ => hrest a s₁ s₁' hrun hs₁

/-- `try: m except ...:` with what follows, for each of the two ways to go on. -/
theorem attempt_bind [Tallies R] {catches : ε → Bool} {f f' : Except ε α → Coro σ ε β}
    (hm : Alike R view m m') (hok : ∀ a, Alike R view (f (.ok a)) (f' (.ok a)))
    (herr : ∀ e, Alike R view (f (.error e)) (f' (.error e))) :
    Alike R view (Coro.attempt catches m >>= f) (Coro.attempt catches m' >>= f') := by
  apply bind (attempt hm)
  intro r
  cases r with
  | ok a => exact hok a
  | error e => exact herr e

end Alike

end Coro
