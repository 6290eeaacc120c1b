import Ninebot.Queue

/-! # Rules for the handshake

    One rule for each method of the handshake: what its requests promise is
    what the method promises.  The intermediate predicates are the states in
    which the next request is sent.

    This file defines:
    - `handshake_triple`: pre- and postconditions, request by request
    - `Greets`: relations that every step of a handshake keeps
    - `SameLink`: a session up to its keys, which a handshake changes -/

namespace Ninebot

open Coro

variable {κ : Type}

section Rules

variable [Cipher κ] {w : World κ} {Q : Unit → World κ → Prop} {E : Exc → World κ → Prop}
  {C : World κ → Prop}

theorem send_triple (p : Packet) (w : World κ) :
    Triple (send p) w (fun _ w' => SendEnds w p (.ret ()) w')
      (fun e w' => SendEnds w p (.raised e) w') (fun w' => SendEnds w p .pending w') :=
  Triple.iff_result (P := fun res w' => SendEnds w p res w').mpr (send_ends p w)

theorem request_triple (p : Packet) (t : Option Nat) (w : World κ) :
    Triple (request p t) w (fun r w' => SameSession w w' ∧ RequestEnds w p (.ret r) w')
      (fun e w' => SameSession w w' ∧ RequestEnds w p (.raised e) w')
      (fun w' => SameSession w w' ∧ RequestEnds w p .pending w') :=
  Triple.iff_result (P := fun res w' => SameSession w w' ∧ RequestEnds w p res w').mpr
    ⟨SameSession.asks.request p t w, request_ends p t w⟩

/-! ## One rule for each method -/

/-- The loop of `_await_pairing`: `I` holds before each PAIR and `J` after it,
    and a packet that accepts the pairing leads to `Q`. -/
theorem awaitPairingLoop_triple {I J : World κ → Prop} {deadline : Nat}
    (hsend : ∀ w', I w' → w'.now < deadline →
      Triple (send (pairRequest w'.self.serialChallenge)) w' (fun _ => J) E C)
    (hhear : ∀ w', J w' → Triple (receive pairingRetryInterval) w'
      (fun a w'' => if acceptsPairing a.packet then Q () w'' else I w'') (fun _ => I) C)
    (hrefused : ∀ w', I w' → E pairingRequired w') (hC : ∀ w', I w' → C w')
    (gas : Nat) (hI : I w) :
    Triple (awaitPairingLoop deadline gas) w Q E C := by
  induction gas generalizing w with
  | zero => exact Triple.pend (hC w hI)
  | succ gas ih =>
    unfold Triple
    rw [awaitPairingLoop, get_bind]
    by_cases htime : w.now < deadline
    · simp only [htime, if_true]
      refine Triple.bind (hsend w hI htime) fun _ w₁ hI₁ => ?_
      refine Triple.attempt_bind (X := fun _ => I) (((hhear w₁ hI₁).and (receive_took _ w₁)).mono
        (fun _ _ h => h.1) ?_ (fun _ h => h.1)) ?_ ?_
      · -- A timeout of one PAIR is not an error here.
        rintro ⟨cls, msg⟩ w' ⟨hI', (rfl : cls = _)⟩
        exact hI'
      · intro response w₂ h₂
        by_cases haccept : acceptsPairing response.packet
        · simp only [haccept, if_true] at h₂ ⊢
          exact Triple.pure h₂
        · simp only [haccept] at h₂ ⊢
          exact ih h₂
      · intro _ w₂ h₂
        exact ih h₂
    · simp only [htime, if_false]
      exact hrefused w hI

theorem awaitPairing_triple {I : World κ → Prop} (hI : I w)
    (hsay : ∀ w' text, I w' → I (w'.log (.log .info text)))
    (hsend : ∀ w', I w' → Triple (send (pairRequest w'.self.serialChallenge)) w' (fun _ => I) E C)
    (hhear : ∀ w', I w' → Triple (receive pairingRetryInterval) w'
      (fun a w'' => if acceptsPairing a.packet then Q () w'' else I w'') (fun _ => I) C)
    (hrefused : ∀ w', I w' → E pairingRequired w') (hC : ∀ w', I w' → C w') :
    Triple awaitPairing w Q E C :=
  Triple.bind (Q := fun _ => I) (hsay w _ hI) fun _ _ hI₁ =>
    Triple.get_bind (awaitPairingLoop_triple (fun w' h _ => hsend w' h) hhear hrefused hC _ hI₁)

/-- What is kept by sending and by hearing is kept by waiting for the user. -/
theorem awaitPairing_keeps {I : World κ → Prop} (hI : I w)
    (hsay : ∀ w' text, I w' → I (w'.log (.log .info text)))
    (hsend : ∀ w', I w' → Triple (send (pairRequest w'.self.serialChallenge)) w' (fun _ => I) E C)
    (hhear : ∀ w', I w' → I (receive pairingRetryInterval w').2)
    (hrefused : ∀ w', I w' → E pairingRequired w') (hC : ∀ w', I w' → C w') :
    Triple awaitPairing w (fun _ => I) E C := by
  refine awaitPairing_triple hI hsay hsend ?_ hrefused hC
  intro w' hI'
  refine (Triple.of_last (I := I) (hhear w' hI')).mono ?_ (fun _ _ h => h) hC
  intro a w'' hI''
  split <;> exact hI''

/-- The verification turns two classes of errors into another one. -/
theorem verifySession_triple {I : World κ → Prop}
    (hread : Triple (readRegister serialNumber) w (fun _ => I)
      (fun e w' => if e.isInstance [.ninebotTimeoutError, .ninebotProtocolError] then
        E ⟨.ninebotAuthError, "Session key rejected: " ++ e.msg⟩ w' else E e w') C) :
    Triple verifySession w (fun _ => I) E C :=
  Triple.attempt_bind hread (fun _ _ h => Triple.pure h) fun _ _ h => Triple.raise h

def initTooShort (n : Nat) : Exc :=
  ⟨.ninebotAuthError, "INIT response too short: " ++ toString n ++ " bytes"⟩

/-- The handshake, request by request.  `B` holds while the client waits for
    the user, `D` once the session key is set. -/
theorem handshake_triple {A B D F : World κ → Prop}
    (hinit : Triple (request initRequest) w (fun r w' =>
      if r.data.length < appKeyLength then E (initTooShort r.data.length) w'
      else A (w'.setBleData r.data)) E C)
    (hping : ∀ w', A w' → Triple (request (pingRequest w'.self.appKey)) w'
      (fun r w'' => if r.index = 0 then B w'' else D w''.setAppData) E C)
    (hwait : ∀ w', B w' → Triple awaitPairing w' (fun _ w'' => D w''.setAppData) E C)
    (hpair : ∀ w', D w' → Triple (request (pairRequest w'.self.serialChallenge)) w'
      (fun _ => F) E C)
    (hverify : ∀ w', F w' → Triple verifySession w'
      (fun _ w'' => Q () (w''.log (.handshaken w''.self.client))) E C) :
    Triple handshake w Q E C := by
  refine Triple.bind hinit fun init w₁ h₁ => ?_
  by_cases hshort : init.data.length < appKeyLength
  · simp only [hshort, if_true] at h₁ ⊢
    exact Triple.raise h₁
  · simp only [hshort, if_false] at h₁ ⊢
    -- From here on the cipher has the key of this link's INIT reply.
    refine Triple.modify_bind (Triple.get_bind ?_)
    refine Triple.bind (hping _ h₁) fun ping w₃ h₃ => ?_
    have hclose : ∀ w', D w'.setAppData → Triple (do
        Coro.modify World.setAppData
        let _ ← request (pairRequest (← Coro.get).self.serialChallenge)
        verifySession
        M.log (.handshaken (← Coro.get).self.client)) w' Q E C := by
      intro w' h
      refine Triple.modify_bind (Triple.get_bind ?_)
      refine Triple.bind (hpair _ h) fun _ w₅ h₅ => ?_
      exact Triple.bind (hverify w₅ h₅) fun _ w₆ h₆ => h₆
    by_cases hzero : ping.index = 0
    · simp only [hzero, if_true] at h₃ ⊢
      exact Triple.bind (hwait w₃ h₃) fun _ w' h => hclose w' h
    · simp only [hzero, if_false] at h₃ ⊢
      exact hclose w₃ h₃

end Rules

/-! ## Relations that a handshake keeps -/

/-- What a relation must allow for a handshake to move along it. -/
structure Joins [Cipher κ] (R : World κ → World κ → Prop) : Prop where
  init : ∀ w, R w (request initRequest none w).2
  ping : ∀ w, R w (request (pingRequest w.self.appKey) none w).2
  wait : ∀ w, R w (send (pairRequest w.self.serialChallenge) w).2
  hear : ∀ w, R w (receive pairingRetryInterval w).2
  /-- The closing PAIR is sent under the session key. -/
  pair : ∀ w, w.self.crypto.keys.appData ≠ none →
    R w (request (pairRequest w.self.serialChallenge) none w).2
  read : ∀ w, R w (readRegister serialNumber w).2
  bleData : ∀ w init, R w (w.setBleData init)
  appData : ∀ w, R w w.setAppData
  say : ∀ w text, R w (w.log (.log .info text))

/-- And for its end to be noted. -/
structure Greets [Cipher κ] (R : World κ → World κ → Prop) : Prop extends Joins R where
  done : ∀ w l, R w (w.log (.handshaken l))

section Greets

variable [Cipher κ] {R : World κ → World κ → Prop} [Std.Refl R] [IsTrans (World κ) R]

theorem Joins.handshake_ends (h : Joins R) (w : World κ) :
    Triple handshake w
      (fun _ w' => ∃ w₁, R w w₁ ∧ w' = w₁.log (.handshaken w₁.self.client))
      (fun _ w' => R w w') (fun w' => R w w') := by
  -- Whatever the outcome of a step, its last state is a later one.
  have hstep : ∀ {α : Type} {m : M κ α} {w' : World κ}, R w w' → R w' (m w').2 →
      Triple m w' (fun _ w'' => R w w'') (fun _ w'' => R w w'') (fun w'' => R w w'') :=
    fun h₁ h₂ => Triple.of_last (trans_of R h₁ h₂)
  refine handshake_triple (A := R w) (B := R w) (F := R w)
    (D := fun w' => R w w' ∧ w'.self.crypto.keys.appData ≠ none)
    ((hstep (refl_of R w) (h.init w)).mono_ret ?_) ?_ ?_ ?_ ?_
  · intro r w₁ h₁
    split
    · exact h₁
    · exact trans_of R h₁ (h.bleData w₁ r.data)
  · intro w₁ h₁
    apply (hstep h₁ (h.ping w₁)).mono_ret
    intro r w₂ h₂
    split
    · exact h₂
    · exact ⟨trans_of R h₂ (h.appData w₂), Option.some_ne_none _⟩
  · intro w₁ h₁
    refine (awaitPairing_keeps h₁ (fun w' _ h' => trans_of R h' (h.say w' _))
      (fun w' h' => hstep h' (h.wait w')) (fun w' h' => trans_of R h' (h.hear w'))
      (fun _ h' => h') (fun _ h' => h')).mono_ret ?_
    intro _ w₂ h₂
    exact ⟨trans_of R h₂ (h.appData w₂), Option.some_ne_none _⟩
  · intro w₁ h₁
    exact hstep h₁.1 (h.pair w₁ h₁.2)
  · intro w₁ h₁
    refine (verifySession_triple (I := R w) ?_).mono_ret ?_
    · apply (hstep h₁ (h.read w₁)).mono_raised
      intro e w₂ h₂
      split <;> exact h₂
    · intro _ w₂ h₂
      exact ⟨w₂, h₂, rfl⟩

theorem Greets.handshake (h : Greets R) : Moves R (handshake : M κ Unit) := by
  intro w
  refine (h.handshake_ends w).last ?_ (fun _ _ h => h) (fun _ h => h)
  intro _ w' hended
  obtain ⟨w₁, h₁, rfl⟩ := hended
  exact trans_of R h₁ (h.done w₁ _)

/-- A relation that allows every request allows a handshake that may change the keys. -/
theorem Asks.joins (h : Asks R) (hble : ∀ w init, R w (w.setBleData init))
    (happ : ∀ w, R w w.setAppData) : Joins R where
  init := h.request _ _
  ping w := h.request _ _ w
  wait w := h.send _ w
  hear := h.receive _
  pair w _ := h.request _ _ w
  read := readRegister_moves (fun _ => h.request _ _) fun _ => h.request _ _
  bleData := hble
  appData := happ
  say w _ := h.deed w _ rfl rfl

theorem Asks.greets (h : Asks R) (hble : ∀ w init, R w (w.setBleData init))
    (happ : ∀ w, R w w.setAppData) (hdone : ∀ w l, R w (w.log (.handshaken l))) : Greets R where
  toJoins := h.joins hble happ
  done := hdone

end Greets

/-! ## One link -/

/-- A later moment with the same link: a session up to its keys. -/
structure SameLink (w w' : World κ) : Prop where
  trace : w.trace <:+ w'.trace
  client : w'.self.client = w.self.client ∨ w'.self.client = none
  up : ∀ l, w'.isUp l = true → w.isUp l = true
  session : w.session = { w'.session with
    keys := w.session.keys, serialChallenge := w.session.serialChallenge }

namespace SameLink

variable {w w' w'' : World κ}

theorem of_session (h : SameSession w w') : SameLink w w' :=
  ⟨h.trace, h.client, h.up, by rw [h.session]⟩

theorem refl (w : World κ) : SameLink w w := of_session (SameSession.refl w)

theorem trans (h : SameLink w w') (h' : SameLink w' w'') : SameLink w w'' := by
  refine ⟨h.trace.trans h'.trace, ?_, fun l hl => h.up l (h'.up l hl), ?_⟩
  · rcases h'.client with hc | hc
    · rw [hc]
      exact h.client
    · exact Or.inr hc
  · have h₁ := h.session
    rw [h'.session] at h₁
    exact h₁

instance : Std.Refl (SameLink (κ := κ)) := ⟨refl⟩

instance : IsTrans (World κ) SameLink := ⟨fun _ _ _ => trans⟩

theorem appKey (h : SameLink w w') : w'.self.appKey = w.self.appKey :=
  (congrArg Session.appKey h.session).symm

theorem appKeyWasSupplied (h : SameLink w w') :
    w'.self.appKeyWasSupplied = w.self.appKeyWasSupplied :=
  (congrArg Session.appKeyWasSupplied h.session).symm

theorem opened (h : SameLink w w') : w'.opened = w.opened :=
  (congrArg Session.opened h.session).symm

variable [Cipher κ]

theorem asks : Asks (SameLink (κ := κ)) where
  event e w _ := of_session (SameSession.apply e w)
  script w s _ := of_session (SameSession.setScript w s)
  note w o _ _ _ := of_session (SameSession.log w o)
  take h := of_session (popResponse_sameSession h)
  deed w o _ _ := of_session (SameSession.log w o)
  cipher w s := of_session (SameSession.setState w s)
  answer _ h _ _ := h.trans (of_session (SameSession.log _ _))

theorem greets : Greets (SameLink (κ := κ)) :=
  asks.greets (fun _ _ => ⟨List.suffix_refl _, Or.inl rfl, fun _ h => h, rfl⟩)
    (fun _ => ⟨List.suffix_refl _, Or.inl rfl, fun _ h => h, rfl⟩)
    fun w _ => of_session (SameSession.log w _)

end SameLink

end Ninebot
