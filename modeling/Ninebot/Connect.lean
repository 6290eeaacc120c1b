import Ninebot.Handshake

/-! # Rules for `connect`

    `connect` opens a link and greets the scooter; after an authentication
    error with a stored key it does both a second time.

    This file defines:
    - `Transported`: what opening a link does, whatever its outcome
    - `connect_triple`: `connect` from its two attempts
    - `Connects`: relations that every step of `connect` keeps -/

namespace Ninebot

open Coro

variable {κ : Type}

/-! ## Exceptions from outside -/

theorem Exc.foreign_not_auth {e : Exc} (h : e.isInstance [.ninebotError] = false) :
    e.isInstance [.ninebotAuthError] = false := by
  rcases e with ⟨cls, msg⟩
  cases cls <;> first | rfl | simp [Exc.isInstance, ErrorClass.mro] at h

section Foreign

variable [Cipher κ]

/-- An awaited call of the BLE stack raises what the BLE stack raises. -/
theorem awaitCall_raises (done : World κ → World κ) (failed : Exc → World κ → World κ)
    (w : World κ) : Triple (awaitCall done failed) w (fun _ _ => True)
      (fun e _ => e.isInstance [.ninebotError] = false) (fun _ => True) :=
  (SameSession.waits.awaitCall_triple done failed w).mono (fun _ _ _ => trivial)
    (fun _ _ h => h.1) (fun _ _ => trivial)

theorem disconnect_raises (w : World κ) :
    Triple disconnect w (fun _ _ => True) (fun e _ => e.isInstance [.ninebotError] = false)
      (fun _ => True) := by
  have hcall : ∀ (done : World κ → World κ) (failed : Exc → World κ → World κ) (w' : World κ),
      Triple (attempt (·.isInstance [.bleakError, .osError]) (awaitCall done failed)) w'
        (fun _ _ => True) (fun e _ => e.isInstance [.ninebotError] = false) (fun _ => True) := by
    intro done failed w'
    refine Triple.attempt ((awaitCall_raises done failed w').mono_raised ?_)
    intro e _ he
    split
    · trivial
    · exact he
  refine Triple.get_bind (Triple.modify_bind ?_)
  cases w.self.client with
  | none => exact Triple.pure trivial
  | some l =>
    apply Triple.modify_bind
    by_cases hup : w.isUp l
    · simp only [hup, if_true]
      exact Triple.bind (hcall _ _ _) fun _ _ _ =>
        Triple.bind (hcall _ _ _) fun _ _ _ => Triple.pure trivial
    · simp only [hup]
      exact Triple.pure trivial

end Foreign

/-! ## Opening a link -/

theorem World.resetTransport_suffix [Cipher κ] (w : World κ) :
    w.trace <:+ w.resetTransport.trace :=
  List.suffix_cons _ _

/-- `establish_connection` returns a link, and the client takes it. -/
def World.linked (w : World κ) (rx : RxChar) : World κ :=
  ({ w.setLink w.opened ⟨true, false, rx⟩ with opened := w.opened + 1 }).log (.opened w.opened)

/-- A link is opened, or it is not, at a moment that waiting leads to. -/
theorem Suspends.establish [Cipher κ] {R : World κ → World κ → Prop} [Std.Refl R]
    [IsTrans (World κ) R] (h : Suspends R) (w : World κ) :
    Triple establishConnection w
      (fun l w' => ∃ w₁ rx, R w w₁ ∧ l = w₁.opened ∧ w' = w₁.linked rx)
      (fun e w' => e.isInstance [.ninebotError] = false ∧ ∃ w₁, R w w₁ ∧ w' = w₁.log .notOpened)
      (R w) := by
  apply h.await_ends
  intro a w₁ r w' hR heq
  cases a with
  | linked rx => cases heq; exact ⟨w₁, rx, hR, rfl, rfl⟩
  | fail f => cases heq; exact ⟨f.2, w₁, hR, rfl⟩
  | ok => cases heq

/-- What is done to a link as a whole. -/
def Obs.isLinkDeed : Obs → Bool
  | .opened _ | .disconnected _ | .disconnectFailed _ => true
  | _ => false

/-- The cipher's keys when a link is opened. -/
def World.nameKeys (w : World κ) : Keys := { name := w.self.name.toUTF8.data.toList }

/-- What opening a link does.  The keys are the name key's, and no packet is sent. -/
structure Transported (w w' : World κ) : Prop where
  does : Does (·.isLinkDeed = true) w w'
  opened : w'.opened = w.opened ∨ w'.opened = w.opened + 1
  session : w'.session = { w.session with
    keys := w.nameKeys, opened := w'.opened, chunkSize := w'.self.chunkSize }

namespace Transported

variable {w w' w'' : World κ}

/-- Before a link is there. -/
theorem of_idle [Cipher κ] (h : Idle w.resetTransport w') : Transported w w' := by
  have hsession := h.session.session
  have hopened : w'.opened = w.opened := congrArg Session.opened hsession
  have hchunk : w'.self.chunkSize = w.self.chunkSize := congrArg Session.chunkSize hsession
  refine ⟨Does.of_same (w.resetTransport_suffix.trans h.session.trace) h.deeds, Or.inl hopened, ?_⟩
  rw [hsession, hopened, hchunk]
  rfl

theorem after (h : Transported w w') (hs : SameSession w' w'')
    (hd : Does (·.isLinkDeed = true) w' w'') : Transported w w'' := by
  have hopened : w''.opened = w'.opened := congrArg Session.opened hs.session
  have hchunk : w''.self.chunkSize = w'.self.chunkSize := congrArg Session.chunkSize hs.session
  refine ⟨h.does.trans hd, ?_, ?_⟩
  · rw [hopened]
    exact h.opened
  · rw [hs.session, h.session, hopened, hchunk]

theorem appKey (h : Transported w w') : w'.self.appKey = w.self.appKey :=
  congrArg Session.appKey h.session

theorem appKeyWasSupplied (h : Transported w w') :
    w'.self.appKeyWasSupplied = w.self.appKeyWasSupplied :=
  congrArg Session.appKeyWasSupplied h.session

theorem keys (h : Transported w w') : w'.self.crypto.keys = w.nameKeys :=
  congrArg Session.keys h.session

end Transported

/-- The client holds the link that it opened since `w`, or has lost hold of it,
    and nothing else was done. -/
structure Opened (w w' : World κ) : Prop where
  transported : Transported w w'
  opened : w'.opened = w.opened + 1
  client : ∀ l, w'.self.client = some l → l = w.opened
  deeds : w'.deeds = .opened w.opened :: w.deeds

theorem Opened.of_linked [Cipher κ] {w w₁ w' : World κ} {rx : RxChar}
    (h₁ : Idle w.resetTransport w₁)
    (h : Idle ((w₁.linked rx).setClient (some w₁.opened)) w') : Opened w w' := by
  have hs₁ := h₁.session.session
  have hs := h.session.session
  have hopened₁ : w₁.opened = w.opened := congrArg Session.opened hs₁
  have hopened : w'.opened = w.opened + 1 := by
    have heq : w'.opened = w₁.opened + 1 := congrArg Session.opened hs
    rw [heq, hopened₁]
  have hdeeds : w'.deeds = .opened w.opened :: w.deeds := by
    rw [h.deeds, ← hopened₁]
    show (World.log _ _).deeds = _
    rw [World.deeds_log_deed rfl]
    exact congrArg (Obs.opened w₁.opened :: ·) h₁.deeds
  have htrace : w.trace <:+ w'.trace :=
    ((w.resetTransport_suffix.trans h₁.session.trace).trans (List.suffix_cons _ _)).trans
      h.session.trace
  refine ⟨⟨Does.of_deeds [_] htrace hdeeds (by simp [Obs.isLinkDeed]), Or.inr hopened, ?_⟩,
    hopened, ?_, hdeeds⟩
  · have hchunk : w'.self.chunkSize = w.self.chunkSize :=
      (congrArg Session.chunkSize hs).trans (congrArg Session.chunkSize hs₁)
    have hsession : w'.session = { w₁.session with opened := w₁.opened + 1 } := hs
    rw [hsession, hs₁, hopened, hchunk, hopened₁]
    rfl
  · -- Waiting gives the client no other link.
    intro l hl
    rcases h.session.client with hc | hc
    · have hsome : w'.self.client = some w₁.opened := hc
      rw [hl] at hsome
      rw [Option.some.inj hsome, hopened₁]
    · rw [hl] at hc
      cases hc

section Transport

variable [Cipher κ]

theorem disconnect_linkDeeds : Moves (Does (·.isLinkDeed = true)) (disconnect : M κ Unit) := by
  refine (Does.waits _).disconnect (fun w => Does.of_same (List.suffix_refl _) rfl)
    (fun w l => Does.of_same (List.suffix_cons _ _) rfl)
    (fun w l => Does.of_same (List.suffix_refl _) rfl)
    (fun w l e => Does.of_same (List.suffix_cons _ _) rfl) ?_ fun w l => Does.log w fun _ => rfl
  intro w l
  have hclose : Does (·.isLinkDeed = true) w (w.close l) :=
    Does.of_same (List.suffix_refl _) rfl
  exact hclose.trans (Does.log _ fun _ => rfl)

theorem startNotify_idle (l : Nat) : Moves Idle (startNotify l : M κ Unit) :=
  Idle.waits.awaitCall (fun w => ⟨SameSession.subscribe w l true, rfl⟩) fun _ w =>
    Idle.log w _ rfl

/-- Before or after the link is there. -/
def Opening (w w' : World κ) : Prop := Idle w.resetTransport w' ∨ Opened w w'

theorem Opening.transported {w w' : World κ} (h : Opening w w') : Transported w w' := by
  rcases h with h | h
  · exact Transported.of_idle h
  · exact h.transported

theorem establish_opening (w : World κ) :
    Triple (do
        let l ← establishConnection
        Coro.modify (·.setClient (some l))
        startNotify l) w.resetTransport (fun _ => Opened w)
      (fun e w' => e.isInstance [.ninebotError] = false ∧ Opening w w') (Opening w) := by
  have hestablish : Triple establishConnection w.resetTransport
      (fun l w' => ∃ w₁ rx, Idle w.resetTransport w₁ ∧ l = w₁.opened ∧ w' = w₁.linked rx)
      (fun e w' => e.isInstance [.ninebotError] = false ∧ Opening w w') (Opening w) := by
    apply (Idle.waits.establish w.resetTransport).mono (fun _ _ h => h) _ (fun _ h => Or.inl h)
    intro e w' h
    obtain ⟨hforeign, w₁, hidle, rfl⟩ := h
    exact ⟨hforeign, Or.inl (hidle.trans (Idle.log _ _ rfl))⟩
  apply Triple.bind hestablish
  intro l w' h
  obtain ⟨w₁, rx, hidle, rfl, rfl⟩ := h
  apply Triple.modify_bind
  apply (((startNotify_idle w₁.opened).triple _).and (awaitCall_raises _ _ _)).mono
  · intro _ w'' h
    exact Opened.of_linked hidle h.1
  · intro e w'' h
    exact ⟨h.2, Or.inr (Opened.of_linked hidle h.1)⟩
  · intro w'' h
    exact Or.inr (Opened.of_linked hidle h.1)

theorem connectTransport_ends (w : World κ) :
    Triple connectTransport w (fun _ => Opened w)
      (fun e w' => e.isInstance [.ninebotAuthError] = false ∧ Transported w w')
      (Transported w) := by
  refine Triple.modify_bind (Triple.attempt_bind (X := fun _ => Opening w)
    ((establish_opening w).mono (fun _ _ h => h) ?_ (fun _ h => h.transported)) ?_ ?_)
  · intro e w' h
    split
    · exact h.2
    · exact ⟨Exc.foreign_not_auth h.1, h.2.transported⟩
  · intro _ w₁ hopened
    have hrx : Triple getRxCharacteristic w₁ (fun _ w' => w' = w₁)
        (fun e w' => e.isInstance [.ninebotAuthError] = false ∧ Transported w w')
        (Transported w) := by
      apply Triple.get_bind
      cases w₁.self.client with
      | none => exact Triple.raise ⟨rfl, hopened.transported⟩
      | some l =>
        dsimp only
        cases (w₁.links l).rx with
        | raises f => exact Triple.raise ⟨Exc.foreign_not_auth f.2, hopened.transported⟩
        | missing => exact Triple.pure rfl
        | found size => exact Triple.pure rfl
    apply Triple.bind hrx
    intro size w₂ h₂
    subst h₂
    cases size with
    | none =>
      have hclosed : Triple disconnect w₂ (fun _ => Transported w)
          (fun e w' => e.isInstance [.ninebotAuthError] = false ∧ Transported w w')
          (Transported w) :=
        (((disconnect_sameSession.triple w₂).and (disconnect_linkDeeds.triple w₂)).and
          (disconnect_raises w₂)).mono (fun _ _ h => hopened.transported.after h.1.1 h.1.2)
          (fun e _ h => ⟨Exc.foreign_not_auth h.2, hopened.transported.after h.1.1 h.1.2⟩)
          (fun _ h => hopened.transported.after h.1.1 h.1.2)
      exact Triple.bind hclosed fun _ w₃ h₃ => Triple.raise ⟨rfl, h₃⟩
    | some size =>
      obtain ⟨⟨hdoes, hone, hsession⟩, htwo, hclient, hdeeds⟩ := hopened
      have hsame : ∀ w' : World κ, w'.session = { w₂.session with chunkSize := w'.self.chunkSize } →
          w'.opened = w₂.opened →
          w'.session = { w.session with
            keys := w.nameKeys, opened := w'.opened, chunkSize := w'.self.chunkSize } := by
        intro w' hw' heq
        rw [hw', hsession, heq]
      exact Triple.modify ⟨⟨⟨hdoes.trace, hdoes.deeds⟩, hone, hsame _ rfl rfl⟩, htwo, hclient,
        hdeeds⟩
  · -- The link, if it was opened, is forgotten.
    intro err w₁ h
    refine Triple.modify_bind (Triple.raise ⟨rfl, ?_⟩)
    exact h.transported.after (SameSession.detach w₁) (Does.of_same (List.suffix_refl _) rfl)

end Transport

/-! ## Both attempts -/

/-- The stored key is given up for a fresh one. -/
def World.discarded (w : World κ) : World κ :=
  let w := w.log (.log .info (w.self.name ++ ": " ++
    "stored pairing key rejected, re-pairing from scratch"))
  { w with
    self := { w.self with appKey := (w.secrets w.drawn).1, appKeyWasSupplied := false }
    drawn := w.drawn + 1 }

/-- To give up a key is to say so and to draw another one. -/
theorem World.discarded_of {R : World κ → World κ → Prop} [IsTrans (World κ) R]
    (hsay : ∀ w text, R w (w.log (.log .info text)))
    (hkey : ∀ (w : World κ) key, R w { w with
      self := { w.self with appKey := key, appKeyWasSupplied := false }, drawn := w.drawn + 1 })
    (w : World κ) : R w w.discarded :=
  trans_of R (hsay w _) (hkey _ _)

section Connect

variable [Cipher κ] {w : World κ} {Q : Unit → World κ → Prop} {E : Exc → World κ → Prop}
  {C : World κ → Prop}

/-- What `connect` does after it has discarded a key. -/
def connectAgain : M κ Unit := do
  disconnect
  connectTransport
  handshake

theorem connect_triple {A B : World κ → Prop}
    (hopen : Triple connectTransport w (fun _ => A) E C)
    (hgreet : ∀ w', A w' → Triple handshake w' Q (fun e w'' =>
      if e.isInstance [.ninebotAuthError] ∧ w''.self.appKeyWasSupplied then B w''.discarded
      else E e w'') C)
    (hagain : ∀ w', B w' → Triple connectAgain w' Q E C) : Triple connect w Q E C := by
  refine Triple.bind hopen fun _ w₁ h₁ => ?_
  refine Triple.attempt_bind (Q := Q)
    (X := fun e w' => if w'.self.appKeyWasSupplied then B w'.discarded else E e w')
    ((hgreet w₁ h₁).mono_raised ?_) ?_ ?_
  · intro e w' h
    by_cases hauth : e.isInstance [.ninebotAuthError]
    · simpa [hauth] using h
    · simpa [hauth] using h
  · intro _ w₂ h₂
    exact Triple.pure h₂
  · intro err w₂ h₂
    apply Triple.get_bind
    by_cases hsupplied : w₂.self.appKeyWasSupplied
    · simp only [hsupplied, if_true] at h₂ ⊢
      exact hagain _ h₂
    · simp only [hsupplied] at h₂ ⊢
      exact Triple.raise h₂

end Connect

/-! ## Relations that `connect` keeps -/

/-- That a call on a link raised, or that `disconnect()` was called. -/
def Obs.isLinkNote : Obs → Bool
  | .notOpened | .notifyFailed .. | .stopFailed .. => true
  | .disconnecting _ | .disconnectFailed _ => true
  | _ => false

/-- What a relation must allow for the opening and closing of links to move
    along it, when the client takes a link as soon as it is there. -/
structure Transports [Cipher κ] (R : World κ → World κ → Prop) : Prop extends Waits R where
  reset : ∀ w, R w w.resetTransport
  opened : ∀ w rx, R w ((w.linked rx).setClient (some w.opened))
  detach : ∀ w, R w (w.setClient none)
  subscribe : ∀ w l on, R w (w.subscribe l on)
  close : ∀ w l, R w ((w.close l).log (.disconnected l))
  noted : ∀ w o, o.isLinkNote = true → R w (w.log o)
  chunkSize : ∀ w n, R w { w with self := { w.self with chunkSize := n } }

/-- The same for a relation that looks at no more than one step at a time. -/
structure Connects [Cipher κ] (R : World κ → World κ → Prop) : Prop extends Waits R where
  deed : ∀ w o, o.isPlain = true → R w (w.log o)
  reset : ∀ w, R w w.resetTransport
  linked : ∀ w rx, R w (w.linked rx)
  client : ∀ w c, R w (w.setClient c)
  subscribe : ∀ w l on, R w (w.subscribe l on)
  close : ∀ w l, R w ((w.close l).log (.disconnected l))
  chunkSize : ∀ w n, R w { w with self := { w.self with chunkSize := n } }

namespace Transports

variable [Cipher κ] {R : World κ → World κ → Prop} [Std.Refl R] [IsTrans (World κ) R]

theorem disconnect (h : Transports R) : Moves R (disconnect : M κ Unit) :=
  h.toWaits.disconnect h.detach (fun w _ => h.noted w _ rfl) (h.subscribe · · false)
    (fun w _ _ => h.noted w _ rfl) h.close fun w _ => h.noted w _ rfl

/-- What follows once the buffer and the queue are empty. -/
theorem connectTransport_reset (h : Transports R) (w : World κ) :
    R w.resetTransport (Ninebot.connectTransport w).2 := by
  have hnotify : ∀ l, Moves R (startNotify l : M κ Unit) := fun l =>
    h.awaitCall (h.subscribe · l true) fun _ w => h.noted w _ rfl
  -- Nothing can happen between the call that opens the link and its assignment.
  have hopen : Moves R (do
      let l ← establishConnection
      Coro.modify (·.setClient (some l))
      startNotify l) := by
    intro w
    have hestablish : Triple establishConnection w
        (fun l w' => ∃ w₁ rx, R w w₁ ∧ l = w₁.opened ∧ w' = w₁.linked rx)
        (fun _ => R w) (R w) := by
      apply (h.toWaits.establish w).mono_raised
      intro _ w' hnot
      obtain ⟨_, w₁, hR, rfl⟩ := hnot
      exact trans_of R hR (h.noted w₁ _ rfl)
    apply Triple.iff_last.mp
    apply Triple.bind hestablish
    intro l w' hlinked
    obtain ⟨w₁, rx, hR, rfl, rfl⟩ := hlinked
    apply Triple.modify_bind
    exact Triple.of_last (trans_of R (trans_of R hR (h.opened w₁ rx)) (hnotify _ _))
  refine Moves.bind (Moves.attempt hopen) (fun out => ?_) w.resetTransport
  cases out with
  | error err => exact Moves.bind (Moves.modify h.detach) fun _ => Moves.raise _
  | ok _ =>
    have hrx : Moves R (getRxCharacteristic : M κ (Option Nat)) := by
      intro w
      show R w (Ninebot.getRxCharacteristic w).2
      rw [getRxCharacteristic, get_bind]
      cases w.self.client with
      | none => exact refl_of R w
      | some l =>
        dsimp only
        cases (w.links l).rx <;> exact refl_of R w
    refine Moves.bind hrx fun size => ?_
    cases size with
    | none => exact Moves.bind h.disconnect fun _ => Moves.raise _
    | some size => exact Moves.modify (h.chunkSize · _)

theorem connectTransport (h : Transports R) : Moves R (connectTransport : M κ Unit) := fun w =>
  trans_of R (h.reset w) (h.connectTransport_reset w)

theorem connect (h : Transports R) (hgreet : Moves R (handshake : M κ Unit))
    (hdiscard : ∀ w, R w w.discarded) : Moves R (connect : M κ Unit) := by
  have hagain : Moves R (connectAgain : M κ Unit) :=
    Moves.bind h.disconnect fun _ => Moves.bind h.connectTransport fun _ => hgreet
  intro w
  refine Triple.iff_last.mp (connect_triple (A := R w) (B := R w) (h.connectTransport.triple w)
    ?_ ?_)
  · intro w₁ h₁
    refine (hgreet.triple w₁).mono (fun _ _ h' => trans_of R h₁ h') ?_
      (fun _ h' => trans_of R h₁ h')
    intro e w₂ h₂
    split
    · exact trans_of R (trans_of R h₁ h₂) (hdiscard w₂)
    · exact trans_of R h₁ h₂
  · intro w₁ h₁
    exact Triple.of_last (trans_of R h₁ (hagain w₁))

end Transports

namespace Connects

variable [Cipher κ] {R : World κ → World κ → Prop} [Std.Refl R] [IsTrans (World κ) R]

omit [Std.Refl R] in
theorem transports (h : Connects R) : Transports R where
  toWaits := h.toWaits
  reset := h.reset
  opened w rx := trans_of R (h.linked w rx) (h.client _ _)
  detach w := h.client w none
  subscribe := h.subscribe
  close := h.close
  noted w o ho := h.deed w o (by cases o <;> first | rfl | cases ho)
  chunkSize := h.chunkSize

theorem disconnect (h : Connects R) : Moves R (disconnect : M κ Unit) := h.transports.disconnect

theorem connect (h : Connects R) (hgreets : Greets R) (hdiscard : ∀ w, R w w.discarded) :
    Moves R (connect : M κ Unit) := h.transports.connect hgreets.handshake hdiscard

end Connects

/-! ## The queue -/

section Order

variable [Cipher κ]

theorem KeepsOrder.greets (start : Nat) : Greets (KeepsOrder (κ := κ) start) :=
  (KeepsOrder.asks start).greets (fun _ _ => KeepsOrder.congr rfl rfl)
    (fun _ => KeepsOrder.congr rfl rfl) fun w _ => KeepsOrder.log w rfl

theorem KeepsOrder.connects (start : Nat) : Connects (KeepsOrder (κ := κ) start) where
  toWaits := (KeepsOrder.asks start).toWaits
  deed w _ h := KeepsOrder.log w h
  reset _ := ⟨List.suffix_cons _ _, fun h => h.clear rfl rfl⟩
  linked w rx := by
    have hopen : KeepsOrder start w { w.setLink w.opened ⟨true, false, rx⟩ with
        opened := w.opened + 1 } := KeepsOrder.congr rfl rfl
    exact hopen.trans (KeepsOrder.log _ rfl)
  client _ _ := KeepsOrder.congr rfl rfl
  subscribe _ _ _ := KeepsOrder.congr rfl rfl
  close w l := by
    have hclose : KeepsOrder start w (w.close l) := KeepsOrder.congr rfl rfl
    exact hclose.trans (KeepsOrder.log _ rfl)
  chunkSize _ _ := KeepsOrder.congr rfl rfl

theorem connect_keepsOrder (start : Nat) : Moves (KeepsOrder start) (connect : M κ Unit) := by
  apply (KeepsOrder.connects start).connect (KeepsOrder.greets start)
  exact World.discarded_of (fun w _ => KeepsOrder.log w rfl) fun _ _ => KeepsOrder.congr rfl rfl

end Order

end Ninebot
