import Ninebot.Histories
import Ninebot.Links
import Ninebot.StoredKey

/-! # Unloading an entry during a poll

    `async_unload_entry` calls `disconnect()`, which takes the link that the
    client holds at that moment and closes it.  A poll that is going on is not
    told: a link that it opens afterwards is the client's again.

    This file defines:
    - `tearDown`: what `disconnect()` does with the link that it has taken
    - `letGo`: another task has entered `disconnect()`, and no link was opened since
    - `Kept`: every link that is up is the client's, or somebody let go of it -/

namespace Ninebot

open Coro

variable {κ : Type}

/-! ## Letting go -/

/-- The link that nobody of the client's own code closes after this. -/
def Obs.looses : Obs → Option Nat
  | .detached l => l
  | .notifyFailed l _ | .disconnectFailed l => some l
  | .stopFailed l e => if e.isInstance [.bleakError, .osError] then none else some l
  | _ => none

/-- Does the client get a link or lose it to another task? -/
def Obs.isHandover : Obs → Bool
  | .opened _ | .detached _ => true
  | _ => false

/-- Another task has entered `disconnect()`, and no link was opened since. -/
def letGo : List Obs → Bool
  | [] => false
  | .detached _ :: _ => true
  | .opened _ :: _ => false
  | _ :: older => letGo older

theorem letGo_append {new old : List Obs} (h : ∀ o ∈ new, o.isHandover = false) :
    letGo (new ++ old) = letGo old := by
  induction new with
  | nil => rfl
  | cons o new ih =>
    rw [List.forall_mem_cons] at h
    rw [← ih h.2]
    cases o <;> first | rfl | cases h.1

/-- Since `w₀`, somebody has let go of the link without closing it at once. -/
def Loose (w₀ w : World κ) (l : Nat) : Prop := ∃ o ∈ w₀.newTrace w, o.looses = some l

theorem Loose.later {w₀ w w' : World κ} {l : Nat} (h : Loose w₀ w l) (hw : w₀.trace <:+ w.trace)
    (hw' : w.trace <:+ w'.trace) : Loose w₀ w' l := by
  obtain ⟨o, ho, hl⟩ := h
  refine ⟨o, ?_, hl⟩
  rw [World.newTrace_trans hw hw']
  exact List.mem_append_right _ ho

/-! ## While the client waits -/

/-- From `w` to `w'` no link comes up, and the client keeps its link or loses
    it to another task. -/
structure Tends (w w' : World κ) : Prop where
  trace : w.trace <:+ w'.trace
  opened : w'.opened = w.opened
  up : ∀ l, w'.isUp l = true → w.isUp l = true
  lost : ∀ l, .lost l ∈ w.newTrace w' → w.isUp l = true ∧ w'.isUp l = false
  client : (w'.self.client = w.self.client ∧ ∀ o ∈ w.newTrace w', o.isHandover = false) ∨
    (w'.self.client = none ∧ ∀ l, w.self.client = some l → .detached (some l) ∈ w.newTrace w')

namespace Tends

variable {w w' w'' : World κ}

/-- The client keeps its link, and none is lost. -/
theorem of_quiet (new : List Obs) (htrace : w'.trace = new ++ w.trace)
    (hnew : ∀ o ∈ new, o.isHandover = false ∧ ∀ l, o ≠ .lost l) (hopened : w'.opened = w.opened)
    (hup : ∀ l, w'.isUp l = true → w.isUp l = true)
    (hclient : w'.self.client = w.self.client) : Tends w w' := by
  have heq : w.newTrace w' = new := World.newTrace_eq htrace
  refine ⟨⟨new, htrace.symm⟩, hopened, hup, ?_, Or.inl ⟨hclient, ?_⟩⟩
  · intro l hl
    rw [heq] at hl
    exact absurd rfl ((hnew _ hl).2 l)
  · intro o ho
    rw [heq] at ho
    exact (hnew o ho).1

theorem refl (w : World κ) : Tends w w := of_quiet [] rfl (by simp) rfl (fun _ h => h) rfl

theorem trans (h : Tends w w') (h' : Tends w' w'') : Tends w w'' := by
  have hnew := World.newTrace_trans h.trace h'.trace
  have hlost : ∀ l, .lost l ∈ w.newTrace w'' → w.isUp l = true ∧ w''.isUp l = false := by
    intro l hl
    rw [hnew] at hl
    rcases List.mem_append.mp hl with hlater | hearlier
    · obtain ⟨hup, hdown⟩ := h'.lost l hlater
      exact ⟨h.up l hup, hdown⟩
    · obtain ⟨hup, hdown⟩ := h.lost l hearlier
      refine ⟨hup, ?_⟩
      rw [World.down_iff] at hdown ⊢
      exact fun hup' => hdown (h'.up l hup')
  refine ⟨h.trace.trans h'.trace, h'.opened.trans h.opened, fun l hl => h.up l (h'.up l hl),
    hlost, ?_⟩
  rw [hnew]
  rcases h.client with ⟨hsame, hquiet⟩ | ⟨hnone, htaken⟩
  · rcases h'.client with ⟨hsame', hquiet'⟩ | ⟨hnone', htaken'⟩
    · refine Or.inl ⟨hsame'.trans hsame, fun o ho => ?_⟩
      rcases List.mem_append.mp ho with hlater | hearlier
      · exact hquiet' o hlater
      · exact hquiet o hearlier
    · exact Or.inr ⟨hnone', fun l hl => List.mem_append_left _ (htaken' l (hsame.trans hl))⟩
  · -- Once the client has no link it gets none while it waits.
    have hnone'' : w''.self.client = none := by
      rcases h'.client with ⟨hsame', _⟩ | ⟨hnone', _⟩
      · exact hsame'.trans hnone
      · exact hnone'
    exact Or.inr ⟨hnone'', fun l hl => List.mem_append_right _ (htaken l hl)⟩

instance : Std.Refl (Tends (κ := κ)) := ⟨refl⟩

instance : IsTrans (World κ) Tends := ⟨fun _ _ _ => trans⟩

/-- Steps that leave the trace, the client's link and the links as they are. -/
theorem congr (htrace : w'.trace = w.trace) (hopened : w'.opened = w.opened)
    (hlinks : w'.links = w.links) (hclient : w'.self.client = w.self.client) : Tends w w' := by
  apply of_quiet [] htrace (by simp) hopened ?_ hclient
  intro l hl
  rwa [World.isUp, hlinks] at hl

theorem log (w : World κ) {o : Obs} (h : o.isHandover = false) (hlost : ∀ l, o ≠ .lost l) :
    Tends w (w.log o) :=
  of_quiet [o] rfl (by simpa using ⟨h, hlost⟩) rfl (fun _ h => h) rfl

theorem subscribe (w : World κ) (l : Nat) (on : Bool) : Tends w (w.subscribe l on) :=
  of_quiet [] rfl (by simp) rfl (SameSession.subscribe w l on).up rfl

theorem close (w : World κ) (l : Nat) : Tends w (w.close l) :=
  of_quiet [] rfl (by simp) rfl (SameSession.close w l).up rfl

theorem putNowait (w : World κ) (a : Arrival) : Tends w (w.putNowait a) := by
  unfold World.putNowait
  split
  · exact congr rfl rfl rfl rfl
  · exact log w rfl (by simp)

theorem lose (w : World κ) (l : Nat) (hup : w.isUp l = true) :
    Tends w ((w.close l).log (.lost l)) := by
  have heq : w.newTrace ((w.close l).log (.lost l)) = [.lost l] := World.newTrace_eq rfl
  refine ⟨List.suffix_cons _ _, rfl, (close w l).up, ?_, Or.inl ⟨rfl, ?_⟩⟩
  · intro m hm
    rw [heq, List.mem_singleton] at hm
    cases hm
    exact ⟨hup, by simp [World.isUp, World.close, World.setLink, World.log]⟩
  · rw [heq]
    simp [Obs.isHandover]

theorem hears : Hears (Tends (κ := κ)) where
  state _ _ := congr rfl rfl rfl rfl
  receive w _ _ _ := (log w rfl (by simp)).trans (putNowait _ _)
  buffer _ _ := congr rfl rfl rfl rfl
  lose := lose
  tick _ _ := congr rfl rfl rfl rfl

/-- Another task takes the client's link. -/
theorem detach (w : World κ) : Tends w ((w.setClient none).log (.detached w.self.client)) := by
  have hnew : w.newTrace ((w.setClient none).log (.detached w.self.client)) =
      [.detached w.self.client] := World.newTrace_eq rfl
  refine ⟨List.suffix_cons _ _, rfl, fun _ h => h, ?_, Or.inr ⟨rfl, fun l hl => ?_⟩⟩
  · simp [hnew]
  · rw [hnew, hl]
    exact List.mem_singleton_self _

/-- What the client does while it waits. -/
theorem plain (w : World κ) {o : Obs} (hplain : o.isPlain = true) (hfate : o.isFate = false) :
    Tends w (w.log o) := by
  have hhandover : o.isHandover = false := by
    cases o with
    | opened l => cases hfate
    | detached l => cases hplain
    | _ => rfl
  apply log w hhandover
  rintro l rfl
  cases hfate

variable [Cipher κ]

theorem apply (e : Event) (w : World κ) : Tends w (w.apply e) :=
  hears.apply e w fun _ => detach w

theorem reset (w : World κ) : Tends w w.resetTransport :=
  of_quiet [.cleared] rfl (by simp [Obs.isHandover]) rfl (fun _ h => h) rfl

theorem asks : Asks (Tends (κ := κ)) where
  event e w _ := apply e w
  script _ _ _ := congr rfl rfl rfl rfl
  note w o hplain _ hfate := plain w hplain hfate
  take {w a w'} h := by
    obtain ⟨rest, _, rfl⟩ := popResponse_eq h
    have hqueue : Tends w (w.setResponses rest) := congr rfl rfl rfl rfl
    exact hqueue.trans (log _ rfl (by simp))
  deed w o hplain hfate := plain w hplain hfate
  cipher _ _ := congr rfl rfl rfl rfl
  answer _ h _ _ := h.trans (log _ rfl (by simp))

theorem greets : Greets (Tends (κ := κ)) :=
  asks.greets (fun _ _ => congr rfl rfl rfl rfl) (fun _ => congr rfl rfl rfl rfl)
    fun w _ => log w rfl (by simp)

end Tends

/-! ## Who has the links -/

/-- Since `w₀`, a link that is up is `held`, or somebody has let go of it; one
    that was lost is down; and the client has no link once another task has had
    its turn. -/
structure Kept (w₀ w : World κ) (held : Option Nat) : Prop where
  trace : w₀.trace <:+ w.trace
  numbered : w.Numbered
  up : ∀ l, w.isUp l = true → held = some l ∨ Loose w₀ w l
  lost : ∀ l, .lost l ∈ w₀.newTrace w → l < w.opened ∧ w.isUp l = false
  client : letGo (w₀.newTrace w) = true → w.self.client = none

namespace Kept

variable {w₀ w w' : World κ} {held : Option Nat} {l : Nat}

theorem start (h : ∀ l, w.isUp l = false) : Kept w w held := by
  refine ⟨List.suffix_refl _, fun l _ => h l, fun l hup => ?_, ?_, ?_⟩
  · rw [h l] at hup
    cases hup
  · simp [w.newTrace_self]
  · rw [w.newTrace_self]
    intro hgo
    cases hgo

/-- Somebody else holds the links. -/
theorem held_by {held' : Option Nat} (h : Kept w₀ w held)
    (hup : ∀ l, w.isUp l = true → held = some l → held' = some l ∨ Loose w₀ w l) :
    Kept w₀ w held' := by
  refine ⟨h.trace, h.numbered, fun l hl => ?_, h.lost, h.client⟩
  rcases h.up l hl with hheld | hloose
  · exact hup l hl hheld
  · exact Or.inr hloose

/-- A link that is nobody's may be anybody's. -/
theorem any (h : Kept w₀ w none) : Kept w₀ w held := by
  apply h.held_by
  rintro l _ ⟨⟩

/-- The link that is held is down. -/
theorem down (h : Kept w₀ w held) (hdown : ∀ l, held = some l → w.isUp l = false) :
    Kept w₀ w none := by
  apply h.held_by
  intro l hup hl
  rw [hdown l hl] at hup
  cases hup

theorem client_later (h : Kept w₀ w held) (ht : Tends w w') :
    letGo (w₀.newTrace w') = true → w'.self.client = none := by
  rw [World.newTrace_trans h.trace ht.trace]
  rcases ht.client with ⟨hsame, hquiet⟩ | ⟨hnone, _⟩
  · rw [letGo_append hquiet, hsame]
    exact h.client
  · exact fun _ => hnone

theorem tends (h : Kept w₀ w held) (ht : Tends w w') : Kept w₀ w' held := by
  have hdown : ∀ l, w.isUp l = false → w'.isUp l = false := by
    intro l hl
    rw [World.down_iff] at hl ⊢
    exact fun hup => hl (ht.up l hup)
  refine ⟨h.trace.trans ht.trace, fun l hl => ?_, fun l hup => ?_, fun l hl => ?_,
    h.client_later ht⟩
  · rw [ht.opened] at hl
    exact hdown l (h.numbered l hl)
  · rcases h.up l (ht.up l hup) with hl | hl
    · exact Or.inl hl
    · exact Or.inr (hl.later h.trace ht.trace)
  · rw [World.newTrace_trans h.trace ht.trace] at hl
    rw [ht.opened]
    rcases List.mem_append.mp hl with hlater | hearlier
    · -- It was up, so it has a number.
      obtain ⟨hup, hlost⟩ := ht.lost l hlater
      refine ⟨?_, hlost⟩
      by_contra hlt
      exact World.down_iff.mp (h.numbered l (Nat.le_of_not_lt hlt)) hup
    · obtain ⟨hlt, hlost⟩ := h.lost l hearlier
      exact ⟨hlt, hdown l hlost⟩

/-- When another task takes the client's link, it lets go of it. -/
theorem tends_client (h : Kept w₀ w w.self.client) (ht : Tends w w') :
    Kept w₀ w' w'.self.client := by
  rcases ht.client with ⟨hsame, _⟩ | ⟨hnone, htaken⟩
  · rw [hsame]
    exact h.tends ht
  · apply (h.tends ht).held_by
    intro l _ hl
    refine Or.inr ⟨.detached (some l), ?_, rfl⟩
    rw [World.newTrace_trans h.trace ht.trace]
    exact List.mem_append_left _ (htaken l hl)

theorem setClient_none (h : Kept w₀ w held) : Kept w₀ (w.setClient none) held :=
  ⟨h.trace, h.numbered, h.up, h.lost, fun _ => rfl⟩

theorem log (h : Kept w₀ w held) {o : Obs} (ho : o.isHandover = false)
    (hlost : ∀ l, o ≠ .lost l) : Kept w₀ (w.log o) held := h.tends (Tends.log w ho hlost)

/-- The link that was held has become loose. -/
theorem loosed (h : Kept w₀ w (some l)) {o : Obs} (ho : o.isHandover = false)
    (hlost : ∀ l, o ≠ .lost l) (hl : o.looses = some l) : Kept w₀ (w.log o) none := by
  apply (h.log ho hlost).held_by
  intro m _ hm
  exact Or.inr ⟨o, (World.mem_newTrace_log h.trace).mpr (Or.inl rfl), hl.trans hm⟩

theorem closed (h : Kept w₀ w (some l)) : Kept w₀ ((w.close l).log (.disconnected l)) none := by
  have hclosed := (h.tends (Tends.close w l)).log (o := .disconnected l) rfl (by simp)
  apply hclosed.down
  rintro m ⟨⟩
  show (w.close l).isUp l = false
  simp [World.isUp, World.close, World.setLink]

/-- The client takes the link that was opened. -/
theorem linked (h : Kept w₀ w none) (rx : RxChar) :
    Kept w₀ ((w.linked rx).setClient (some w.opened)) (some w.opened) := by
  have hsuffix : w.trace <:+ ((w.linked rx).setClient (some w.opened)).trace :=
    List.suffix_cons _ _
  have hnew : w.newTrace ((w.linked rx).setClient (some w.opened)) = [.opened w.opened] :=
    World.newTrace_eq rfl
  -- The other links are as they were.
  have hother : ∀ l, l ≠ w.opened →
      ((w.linked rx).setClient (some w.opened)).isUp l = w.isUp l := by
    intro l hl
    simp [World.isUp, World.linked, World.setClient, World.setLink, World.log, hl]
  have hopened : ((w.linked rx).setClient (some w.opened)).opened = w.opened + 1 := rfl
  refine ⟨h.trace.trans hsuffix, fun l hl => ?_, fun l hup => ?_, fun l hl => ?_, ?_⟩
  · rw [hopened] at hl
    rw [hother l (by omega)]
    exact h.numbered l (by omega)
  · by_cases hl : l = w.opened
    · exact Or.inl (congrArg some hl.symm)
    · rw [hother l hl] at hup
      rcases h.up l hup with hm | hm
      · cases hm
      · exact Or.inr (hm.later h.trace hsuffix)
  · rw [World.newTrace_trans h.trace hsuffix, hnew] at hl
    obtain ⟨hlt, hlost⟩ := h.lost l (by simpa using hl)
    rw [hopened, hother l (by omega)]
    exact ⟨by omega, hlost⟩
  · rw [World.newTrace_trans h.trace hsuffix, hnew]
    intro hgo
    cases hgo

end Kept

/-! ## Closing a link -/

section Calls

variable [Cipher κ] {w₀ w : World κ} {l : Nat}

/-- What `disconnect()` does with the link that it has taken out of the client. -/
def tearDown (taken : Option Nat) : M κ Unit := do
  match taken with
  | none => return ()
  | some l =>
      if (← Coro.get).isUp l then
        let _ ← Coro.attempt (·.isInstance [.bleakError, .osError]) (stopNotify l)
        let _ ← Coro.attempt (·.isInstance [.bleakError, .osError]) (closeLink l)
        return ()
      else return ()

/-- `disconnect()` first takes the link out of the client. -/
def World.released (w : World κ) : World κ :=
  match w.self.client with
  | none => w.setClient none
  | some l => (w.setClient none).log (.disconnecting l)

/-- What follows is what another task goes on with when it has entered it. -/
theorem disconnect_eq (w : World κ) : disconnect w = tearDown w.self.client w.released := by
  unfold disconnect tearDown World.released
  rw [get_bind, modify_bind]
  cases w.self.client with
  | none => rfl
  | some l => rfl

/-- `stop_notify`, then bleak's `disconnect()`, unless the link is down already. -/
theorem tearDown_triple {A B C : World κ → Prop} {E : Exc → World κ → Prop}
    (hdown : w.isUp l = false → B w)
    (hstop : Triple (Coro.attempt (·.isInstance [.bleakError, .osError]) (stopNotify l)) w
      (fun _ => A) E C)
    (hclose : ∀ w₁, A w₁ →
      Triple (Coro.attempt (·.isInstance [.bleakError, .osError]) (closeLink l)) w₁
        (fun _ => B) E C) :
    Triple (tearDown (some l)) w (fun _ => B) E C := by
  apply Triple.get_bind
  by_cases hup : w.isUp l = true
  · simp only [hup, if_true]
    apply Triple.bind hstop
    intro _ w₁ h₁
    apply Triple.bind (hclose w₁ h₁)
    intro _ w₂ h₂
    exact Triple.pure h₂
  · simp only [hup]
    exact Triple.pure (hdown (Bool.eq_false_iff.mpr hup))

theorem Kept.tearDown {taken : Option Nat} (h : Kept w₀ w taken) :
    Triple (Ninebot.tearDown taken) w (fun _ w' => Kept w₀ w' none) (fun _ w' => Kept w₀ w' none)
      (fun _ => True) := by
  cases taken with
  | none => exact Triple.pure h
  | some l =>
    have hstop : Triple (Coro.attempt (·.isInstance [.bleakError, .osError]) (stopNotify l)) w
        (fun _ w' => Kept w₀ w' (some l)) (fun _ w' => Kept w₀ w' none) (fun _ => True) := by
      apply Tends.asks.toWaits.attemptCall_triple
      · intro w₁ ht
        exact h.tends (ht.trans (Tends.subscribe w₁ l false))
      · intro e w₁ ht _
        exact (h.tends ht).log rfl (by simp)
      · -- The exception passes, and the link is not closed.
        intro e w₁ ht hraised
        exact (h.tends ht).loosed rfl (by simp) (if_neg (Bool.eq_false_iff.mp hraised))
    have hclose : ∀ w₁, Kept w₀ w₁ (some l) →
        Triple (Coro.attempt (·.isInstance [.bleakError, .osError]) (closeLink l)) w₁
          (fun _ w' => Kept w₀ w' none) (fun _ w' => Kept w₀ w' none) (fun _ => True) := by
      intro w₁ h₁
      -- Bleak's `disconnect()` is called once, whatever it raises.
      have hloosed : ∀ {w₂ : World κ}, Tends w₁ w₂ →
          Kept w₀ (w₂.log (.disconnectFailed l)) none :=
        fun ht => (h₁.tends ht).loosed rfl (by simp) rfl
      apply Tends.asks.toWaits.attemptCall_triple
      · intro w₂ ht
        exact (h₁.tends ht).closed
      · exact fun _ _ ht _ => hloosed ht
      · exact fun _ _ ht _ => hloosed ht
    apply tearDown_triple _ hstop hclose
    intro hdown
    apply h.down
    rintro m ⟨⟩
    exact hdown

/-- The client's own `disconnect()` leaves no link that is the client's. -/
theorem Kept.disconnect (h : Kept w₀ w w.self.client) :
    Triple disconnect w (fun _ w' => Kept w₀ w' none) (fun _ w' => Kept w₀ w' none)
      (fun _ => True) := by
  unfold Triple
  rw [disconnect_eq]
  have hreleased : Kept w₀ w.released w.self.client := by
    unfold World.released
    cases hc : w.self.client with
    | none =>
      rw [hc] at h
      exact h.setClient_none
    | some l =>
      rw [hc] at h
      exact h.setClient_none.log rfl (by simp)
  exact hreleased.tearDown

/-- When it returns, it has closed the link, or bleak's `disconnect()` has raised. -/
theorem tearDown_closes (l : Nat) (w : World κ) :
    Triple (tearDown (some l)) w
      (fun _ w' => w.trace <:+ w'.trace ∧
        (w'.isUp l = false ∨ .disconnectFailed l ∈ w.newTrace w'))
      (fun e _ => e.isInstance [.bleakError, .osError] = false) (fun _ => True) := by
  have hstop : Triple (Coro.attempt (·.isInstance [.bleakError, .osError]) (stopNotify l)) w
      (fun _ w' => w.trace <:+ w'.trace)
      (fun e _ => e.isInstance [.bleakError, .osError] = false) (fun _ => True) := by
    apply SameSession.waits.attemptCall_triple
    · exact fun _ hs => hs.trace
    · exact fun _ _ hs _ => hs.trace.trans (List.suffix_cons _ _)
    · exact fun _ _ _ hraised => hraised
  have hclose : ∀ w₁, w.trace <:+ w₁.trace →
      Triple (Coro.attempt (·.isInstance [.bleakError, .osError]) (closeLink l)) w₁
        (fun _ w' => w.trace <:+ w'.trace ∧
          (w'.isUp l = false ∨ .disconnectFailed l ∈ w.newTrace w'))
        (fun e _ => e.isInstance [.bleakError, .osError] = false) (fun _ => True) := by
    intro w₁ h₁
    apply SameSession.waits.attemptCall_triple
    · intro w₂ hs
      refine ⟨(h₁.trans hs.trace).trans (List.suffix_cons _ _), Or.inl ?_⟩
      simp [World.isUp, World.close, World.setLink, World.log]
    · intro e w₂ hs _
      have hfailed : .disconnectFailed l ∈ w.newTrace (w₂.log (.disconnectFailed l)) :=
        (World.mem_newTrace_log (h₁.trans hs.trace)).mpr (Or.inl rfl)
      exact ⟨(h₁.trans hs.trace).trans (List.suffix_cons _ _), Or.inr hfailed⟩
    · exact fun _ _ _ hraised => hraised
  exact tearDown_triple (fun hdown => ⟨List.suffix_refl _, Or.inl hdown⟩) hstop hclose

/-! ## Opening a link -/

theorem Kept.establish (h : Kept w₀ w none) :
    Triple establishConnection w
      (fun l w' => ∃ w₁ rx, Kept w₀ w₁ none ∧ l = w₁.opened ∧ w' = w₁.linked rx)
      (fun _ w' => Kept w₀ w' none) (fun _ => True) := by
  apply (Tends.asks.toWaits.establish w).mono _ _ (fun _ _ => trivial)
  · intro l w' hopened
    obtain ⟨w₁, rx, ht, heq⟩ := hopened
    exact ⟨w₁, rx, h.tends ht, heq⟩
  · intro _ w' hnot
    obtain ⟨_, w₁, ht, rfl⟩ := hnot
    exact (h.tends ht).log rfl (by simp)

/-- `start_notify`, on the link that the client has just taken. -/
theorem Kept.startNotify (h : Kept w₀ w w.self.client) (hl : w.self.client = some l) :
    Triple (startNotify l) w (fun _ w' => Kept w₀ w' w'.self.client)
      (fun _ w' => Kept w₀ w' none) (fun _ => True) := by
  apply Tends.asks.toWaits.call_triple
  · intro w₁ ht
    exact h.tends_client (ht.trans (Tends.subscribe w₁ l true))
  · intro e w₁ ht
    rw [hl] at h
    exact (h.tends ht).loosed rfl (by simp) rfl

theorem Kept.connectTransport (h : Kept w₀ w none) :
    Triple connectTransport w (fun _ w' => Kept w₀ w' w'.self.client)
      (fun _ w' => Kept w₀ w' w'.self.client) (fun _ => True) := by
  apply Triple.modify_bind
  have hreset : Kept w₀ w.resetTransport none := h.tends (Tends.reset w)
  apply Triple.attempt_bind (Q := fun _ w' => Kept w₀ w' w'.self.client)
    (X := fun _ w' => Kept w₀ w' none)
  · -- Nothing can come between the link and its assignment.
    have hopen : Triple (do
        let l ← establishConnection
        Coro.modify (·.setClient (some l))
        Ninebot.startNotify l) w.resetTransport (fun _ w' => Kept w₀ w' w'.self.client)
        (fun _ w' => Kept w₀ w' none) (fun _ => True) := by
      apply Triple.bind hreset.establish
      intro l w' hopened
      obtain ⟨w₁, rx, h₁, rfl, rfl⟩ := hopened
      apply Triple.modify_bind
      exact (h₁.linked rx).startNotify rfl
    apply hopen.mono_raised
    intro e w' hnone
    split
    · exact hnone
    · exact hnone.any
  · -- A lookup that raises leaves the link with the client.
    intro _ w₁ h₁
    have hrx : Triple getRxCharacteristic w₁ (fun _ w' => w' = w₁)
        (fun _ w' => Kept w₀ w' w'.self.client) (fun _ => True) := by
      apply Triple.get_bind
      cases w₁.self.client with
      | none => exact Triple.raise h₁
      | some l =>
        dsimp only
        cases (w₁.links l).rx with
        | raises f => exact Triple.raise h₁
        | missing => exact Triple.pure rfl
        | found size => exact Triple.pure rfl
    apply Triple.bind hrx
    rintro size w₂ rfl
    cases size with
    | none =>
      apply Triple.bind (h₁.disconnect.mono_raised fun _ _ hnone => hnone.any)
      intro _ w₃ h₃
      exact Triple.raise h₃.any
    | some size => exact Triple.modify (h₁.tends (Tends.congr rfl rfl rfl rfl))
  · -- Here the link is forgotten; if it is up, `start_notify` has failed on it.
    intro err w₁ h₁
    exact Triple.modify_bind (Triple.raise h₁.setClient_none)

theorem Kept.connect (h : Kept w₀ w none) :
    Triple connect w (fun _ w' => Kept w₀ w' w'.self.client)
      (fun _ w' => Kept w₀ w' w'.self.client) (fun _ => True) := by
  have hgreet : ∀ w', Kept w₀ w' w'.self.client → Triple handshake w'
      (fun _ w'' => Kept w₀ w'' w''.self.client) (fun _ w'' => Kept w₀ w'' w''.self.client)
      (fun _ => True) := by
    intro w' h'
    have htends := Tends.greets.handshake.triple w'
    exact htends.mono (fun _ _ ht => h'.tends_client ht) (fun _ _ ht => h'.tends_client ht)
      (fun _ _ => trivial)
  apply connect_triple (A := fun w' => Kept w₀ w' w'.self.client)
    (B := fun w' => Kept w₀ w' w'.self.client) h.connectTransport
  · intro w₁ h₁
    apply (hgreet w₁ h₁).mono_raised
    intro e w₂ h₂
    split
    · -- The key is given up, and with it nothing of the link.
      have hdiscarded : Tends w₂ w₂.discarded :=
        World.discarded_of (fun w _ => Tends.log w rfl (by simp))
          (fun _ _ => Tends.congr rfl rfl rfl rfl) w₂
      exact h₂.tends_client hdiscarded
    · exact h₂
  · -- The second attempt begins with no link, whoever has closed the first one.
    intro w₁ h₁
    apply Triple.bind (h₁.disconnect.mono_raised fun _ _ hnone => hnone.any)
    intro _ w₂ h₂
    apply Triple.bind h₂.connectTransport
    intro _ w₃ h₃
    exact hgreet w₃ h₃

/-! ## Polls -/

theorem kept_tries (w₀ : World κ) :
    Tries (fun w _ => Kept w₀ w w.self.client) (fun w _ => Kept w₀ w w.self.client)
      (fun _ _ => True) where
  log _ _ _ _ h := h.log rfl (by simp)
  logged _ _ _ _ h := h.log rfl (by simp)
  connect w c h hdown := by
    have hnone : Kept w₀ w none := by
      apply h.down
      intro l hl
      rwa [World.isConnected, hl] at hdown
    exact hnone.connect
  poll w c includeStatic h := by
    have hmoves : Moves Tends (asyncPoll includeStatic : M κ ScooterState) :=
      asyncPoll_moves (fun _ _ _ => Tends.asks.request _ _) includeStatic
    exact (hmoves.triple w).mono (fun _ _ ht => h.tends_client ht)
      (fun _ _ ht => h.tends_client ht) (fun _ _ => trivial)
  drop w c h := h.disconnect.mono (fun _ _ hnone => hnone.any) (fun _ _ hnone => hnone.any)
    (fun _ _ => trivial)

theorem polls_kept {home₀ home : Home κ} (h : Polls home₀ home)
    (hstart : ∀ l, home₀.world.isUp l = false) :
    Kept home₀.world home.world home.world.self.client := by
  induction h with
  | start => exact Kept.start hstart
  | between _ hb ih =>
    cases hb with
    | event e => exact ih.tends_client (Tends.apply e _)
    | supply => exact ih.tends_client (Tends.congr rfl rfl rfl rfl)
    | advertised => exact ih
  | poll _ hrun ih => exact ((kept_tries _).coordinatorPoll ih).ret_of hrun

end Calls

/-! ## Unloading -/

/-- A call on a link failed, and the client forgot the link without closing it. -/
def Obs.isStray : Obs → Bool
  | .notifyFailed .. => true
  | .stopFailed _ e => !e.isInstance [.bleakError, .osError]
  | _ => false

variable [Cipher κ]

/-- `async_unload_entry`.  Home Assistant unloads the platforms first. -/
def asyncUnloadEntry (unloadPlatforms : H κ Bool) : H κ Bool := do
  let unloaded ← unloadPlatforms
  if unloaded then H.client disconnect
  return unloaded

/-- An unload of the entry entered `disconnect()` when a run had come as far as
    `entered`, and has returned.  By `w` no link has come up again that was down
    when it returned; the run may have gone on meanwhile. -/
structure Unloaded (unloadPlatforms : H κ Bool) (entered left : Home κ) (w : World κ) : Prop where
  platforms : unloadPlatforms entered = (.ret true, entered)
  took : .detached entered.world.self.client :: entered.world.trace <:+ w.trace
  returned : asyncUnloadEntry unloadPlatforms entered = (.ret true, left)
  closes : DisconnectCloses entered.world left.world
  later : ∀ l, entered.world.self.client = some l → w.isUp l = true → left.world.isUp l = true

/-- Once the platforms are unloaded, the unload does what `disconnect()` does
    with the link that it takes. -/
theorem asyncUnloadEntry_closes {unloadPlatforms : H κ Bool} {home home' : Home κ} {l : Nat}
    (hplatforms : unloadPlatforms home = (.ret true, home)) (hl : home.world.self.client = some l)
    (hrun : asyncUnloadEntry unloadPlatforms home = (.ret true, home')) :
    home'.world.isUp l = false ∨ .disconnectFailed l ∈ home.world.newTrace home'.world := by
  have hclosed : Triple disconnect home.world
      (fun _ w' => w'.isUp l = false ∨ .disconnectFailed l ∈ home.world.newTrace w')
      (fun _ _ => True) (fun _ => True) := by
    unfold Triple
    rw [disconnect_eq, hl]
    have hreleased : home.world.released = (home.world.setClient none).log (.disconnecting l) := by
      unfold World.released
      rw [hl]
    have hsuffix : home.world.trace <:+ home.world.released.trace := by
      rw [hreleased]
      exact List.suffix_cons _ _
    apply (tearDown_closes l home.world.released).mono ?_ (fun _ _ _ => trivial)
      (fun _ _ => trivial)
    rintro _ w' ⟨hlater, hdown | hfailed⟩
    · exact Or.inl hdown
    · right
      rw [World.newTrace_trans hsuffix hlater]
      exact List.mem_append_left _ hfailed
  have hunload : Triple (asyncUnloadEntry unloadPlatforms) home
      (fun _ home' => home'.world.isUp l = false ∨
        .disconnectFailed l ∈ home.world.newTrace home'.world)
      (fun _ _ => True) (fun _ => True) := by
    unfold Triple asyncUnloadEntry
    rw [bind_of_ret hplatforms]
    simp only [if_true]
    apply Triple.bind (client_triple (Q := fun _ w' _ => w'.isUp l = false ∨
        .disconnectFailed l ∈ home.world.newTrace w')
      (E := fun _ _ => True) (C := fun _ _ => True) hclosed)
    intro _ home' h'
    exact Triple.pure h'
  exact hunload.ret_of hrun

/-- The link that the unload took is down. -/
theorem Unloaded.down {unloadPlatforms : H κ Bool} {entered left : Home κ} {w : World κ}
    (h : Unloaded unloadPlatforms entered left w) {l : Nat}
    (hl : entered.world.self.client = some l) : w.isUp l = false := by
  have hleft : left.world.isUp l = false := by
    rcases asyncUnloadEntry_closes h.platforms hl h.returned with hdown | hfailed
    · exact hdown
    · exact h.closes l hfailed
  rw [World.down_iff] at hleft ⊢
  exact fun hup => hleft (h.later l hl hup)

theorem setupEntry_down {home home' : Home κ} {deviceName : Option String}
    (h : setupEntry home deviceName = .ok home') (l : Nat) : home'.world.isUp l = false := by
  obtain ⟨_, _, rfl⟩ := setupEntry_eq h
  rfl

/-- In every run of an entry, whenever its unload enters `disconnect()`, also in
    the middle of a poll: once the polls and the unload have finished no link
    is open, provided that none was opened after the unload entered, and that
    one that was forgotten on a failing call was lost. -/
theorem unload_leavesNone {before home₀ home : Home κ} {deviceName : Option String}
    {unloadPlatforms : H κ Bool}
    (hsetup : setupEntry before deviceName = .ok home₀) (h : Polls home₀ home)
    (hunloaded : ∀ l, .detached (some l) ∈ home₀.world.newTrace home.world →
      ∃ entered left, entered.world.self.client = some l ∧
        Unloaded unloadPlatforms entered left home.world)
    (hcloses : DisconnectCloses home₀.world home.world)
    (hgo : letGo (home₀.world.newTrace home.world) = true)
    (hstray : ∀ o ∈ home₀.world.newTrace home.world, o.isStray = true →
      ∀ l, o.looses = some l → .lost l ∈ home₀.world.newTrace home.world)
    (l : Nat) : home.world.isUp l = false := by
  have hkept := polls_kept h (setupEntry_down hsetup)
  have hnone : home.world.self.client = none := hkept.client hgo
  by_contra hup
  -- A link that is up is the client's, or somebody has let go of it.
  have hloose : Loose home₀.world home.world l := by
    rcases hkept.up l (Bool.not_eq_false _ ▸ hup) with hheld | hloose
    · rw [hnone] at hheld
      cases hheld
    · exact hloose
  -- Who has let go of it?
  obtain ⟨o, ho, hl⟩ := hloose
  by_cases hstrays : o.isStray = true
  · exact hup (hkept.lost l (hstray o ho hstrays l hl)).2
  · cases o with
    | detached taken =>
      -- The unload has: it has closed the link.
      obtain rfl : taken = some l := hl
      obtain ⟨entered, left, htook, hended⟩ := hunloaded l ho
      exact hup (hended.down htook)
    | disconnectFailed m =>
      obtain rfl : m = l := Option.some.inj hl
      exact hup (hcloses m ho)
    | notifyFailed m e => exact hstrays rfl
    | stopFailed m e =>
      have hcaught : e.isInstance [.bleakError, .osError] = true := by
        simpa [Obs.isStray] using hstrays
      simp [Obs.looses, hcaught] at hl
    | _ => cases hl

/-! ## Two unloads -/

/-- Nothing of the platforms has to be unloaded. -/
def noPlatforms : H StubCrypto Bool := return true

/-- The poll waits for `write_gatt_char`, with which it sends INIT. -/
def writingInit : List Step := [.answer (.linked (.found 20)), .answer .ok]

/-- The unload takes the link meanwhile, and closes it. -/
def unloadedDuringInit : List Step :=
  writingInit ++ [.event .detach, .event (.linkLost 0), .answer (.fail linkFault)]

def unloadedHome : Home StubCrypto :=
  (coordinatorPoll (restarted (pairedHome unloadedDuringInit))).2

/-- What the unload finds when it enters, and how its own calls will end. -/
def unloadEntered (script own : List Step) : Home StubCrypto :=
  let entered := (coordinatorPoll (restarted (pairedHome script))).2
  { entered with world := entered.world.setScript own }

/-- `stop_notify` and bleak's `disconnect()` return. -/
def unloadLeft : Home StubCrypto :=
  (asyncUnloadEntry noPlatforms (unloadEntered writingInit [.answer .ok, .answer .ok])).2

theorem unloaded_leavesNone : unloadedHome.world.isUp 0 = false := by
  have hpoll : (coordinatorPoll (restarted (pairedHome unloadedDuringInit))).1 = .ret () := by
    decide +kernel
  have hsetup : setupEntry (pairedHome unloadedDuringInit) none =
      .ok (restarted (pairedHome unloadedDuringInit)) := rfl
  -- The only link that somebody lets go of is the one that the unload takes.
  have hlooses : ∀ o ∈
      (restarted (pairedHome unloadedDuringInit)).world.newTrace unloadedHome.world,
      o.isStray = false ∧ (o.looses = none ∨ o = .detached (some 0)) := by decide +kernel
  have hunload : (unloadEntered writingInit [.answer .ok, .answer .ok]).world.self.client = some 0 ∧
      (asyncUnloadEntry noPlatforms (unloadEntered writingInit [.answer .ok, .answer .ok])).1 =
        .ret true ∧
      (∀ o ∈ (unloadEntered writingInit [.answer .ok, .answer .ok]).world.newTrace unloadLeft.world,
        o.looses = none) ∧
      .detached (some 0) :: (unloadEntered writingInit [.answer .ok, .answer .ok]).world.trace <:+
        unloadedHome.world.trace ∧
      unloadedHome.world.isUp 0 = false := by decide +kernel
  obtain ⟨hclient, hreturned, hnone, htook, hdown⟩ := hunload
  have hended : Unloaded noPlatforms (unloadEntered writingInit [.answer .ok, .answer .ok])
      unloadLeft unloadedHome.world := by
    refine ⟨rfl, ?_, run_eq hreturned, ?_, ?_⟩
    · rw [hclient]
      exact htook
    · intro l hl
      cases hnone _ hl
    · intro l hl hup
      obtain rfl : 0 = l := Option.some.inj (hclient.symm.trans hl)
      rw [hdown] at hup
      cases hup
  have hunloaded : ∀ l, .detached (some l) ∈
      (restarted (pairedHome unloadedDuringInit)).world.newTrace unloadedHome.world →
      ∃ entered left, entered.world.self.client = some l ∧
        Unloaded noPlatforms entered left unloadedHome.world := by
    intro l hl
    rcases (hlooses _ hl).2 with hnot | heq
    · cases hnot
    · cases heq
      exact ⟨_, _, hclient, hended⟩
  refine unload_leavesNone hsetup (Polls.start.poll (completed hpoll)) hunloaded ?_
    (by decide +kernel) ?_ 0
  · intro l hl
    rcases (hlooses _ hl).2 with hnot | heq
    · cases hnot
    · cases heq
  · intro o ho hstray
    rw [(hlooses o ho).1] at hstray
    cases hstray

/-- The unload finds no link, because the poll is still waiting for it. -/
def unloadedTooEarly : List Step := .event .detach :: answered

def leftHome : Home StubCrypto := (coordinatorPoll (restarted (pairedHome unloadedTooEarly))).2

/-- Both have finished, no call has failed, and the link that the poll opened
    is open. -/
theorem unloadedTooEarly_leavesLink :
    coordinatorPoll (restarted (pairedHome unloadedTooEarly)) = (.ret (), leftHome) ∧
    (∀ o ∈ (restarted (pairedHome unloadedTooEarly)).world.newTrace leftHome.world,
      o.looses = none) ∧
    (unloadEntered [] []).world.self.client = none ∧
    Unloaded noPlatforms (unloadEntered [] [])
      (asyncUnloadEntry noPlatforms (unloadEntered [] [])).2 leftHome.world ∧
    leftHome.coordinator.lastPollSuccessful = true ∧ leftHome.world.isUp 0 = true := by
  have hrun : (coordinatorPoll (restarted (pairedHome unloadedTooEarly))).1 = .ret () ∧
      (∀ o ∈ (restarted (pairedHome unloadedTooEarly)).world.newTrace leftHome.world,
        o.looses = none) ∧
      leftHome.coordinator.lastPollSuccessful = true ∧ leftHome.world.isUp 0 = true := by
    decide +kernel
  have hunload : (unloadEntered [] []).world.self.client = none ∧
      (asyncUnloadEntry noPlatforms (unloadEntered [] [])).1 = .ret true ∧
      (∀ o ∈ (unloadEntered [] []).world.newTrace
        (asyncUnloadEntry noPlatforms (unloadEntered [] [])).2.world, o.looses = none) ∧
      .detached none :: (unloadEntered [] []).world.trace <:+ leftHome.world.trace := by
    decide +kernel
  obtain ⟨hpoll, hlooses, hsuccess, hup⟩ := hrun
  obtain ⟨hclient, hreturned, hnone, htook⟩ := hunload
  refine ⟨completed hpoll, hlooses, hclient, ⟨rfl, ?_, run_eq hreturned, ?_, ?_⟩, hsuccess, hup⟩
  · rw [hclient]
    exact htook
  · intro l hl
    cases hnone _ hl
  · intro l hl
    rw [hclient] at hl
    cases hl

end Ninebot
