import Ninebot.Connect

/-! # The pairing key

    What becomes of the stored key.  `connect` gives it up after an
    authentication error of the first handshake, so everything turns on which
    failures of a handshake are authentication errors: `Rejects` lists them.

    This file defines:
    - `Rejects`: the three ways in which a handshake rejects the key
    - `connect_result`: the key is kept unless the first handshake rejects it -/

namespace Ninebot

open Coro

variable {κ : Type}

/-! ## Errors that are no authentication errors -/

theorem SendEnds.not_auth {w w' : World κ} {p : Packet} {e : Exc}
    (h : SendEnds w p (.raised e) w') : e.isInstance [.ninebotAuthError] = false := by
  rcases e with ⟨cls, msg⟩
  cases h with
  | down _ hcls _ =>
    obtain rfl : cls = _ := hcls
    rfl
  | tooLong hpack _ =>
    unfold Packet.pack at hpack
    split at hpack
    · cases hpack
      rfl
    · cases hpack
  | failed _ hcls _ =>
    obtain rfl : cls = _ := hcls
    rfl
  | foreign _ hforeign _ => exact Exc.foreign_not_auth hforeign

/-- No request ends in an authentication error. -/
theorem RequestEnds.not_auth {w w' : World κ} {p : Packet} {e : Exc}
    (h : RequestEnds w p (.raised e) w') : e.isInstance [.ninebotAuthError] = false := by
  cases h with
  | refused hsend => exact hsend.not_auth
  | unanswered _ hcls _ =>
    rcases e with ⟨cls, msg⟩
    obtain rfl : cls = _ := hcls
    rfl

/-! ## Giving up a read -/

/-- The errors that the verification takes for a rejected key. -/
def Exc.isVerdict (e : Exc) : Bool := e.isInstance [.ninebotTimeoutError, .ninebotProtocolError]

/-- A READ can be packed, so one that ends in such an error was not answered. -/
theorem RequestEnds.verdict_unanswered {w w' : World κ} {register : Register} {word : Nat}
    {n : UInt8} {e : Exc} (h : RequestEnds w (readRequest register word n) (.raised e) w')
    (he : e.isVerdict = true) : e.isInstance [.ninebotTimeoutError] = true ∧
      ∃ l, w'.deeds.head? = some (.unanswered l (readRequest register word n)) := by
  rcases e with ⟨cls, msg⟩
  cases h with
  | refused hsend =>
    cases hsend with
    | down _ hcls _ =>
      obtain rfl : cls = _ := hcls
      cases he
    | tooLong hpack _ => cases hpack
    | failed _ hcls _ =>
      obtain rfl : cls = _ := hcls
      cases he
    | foreign _ hforeign _ =>
      cases cls <;> simp [Exc.isVerdict, Exc.isInstance, ErrorClass.mro] at he hforeign
  | unanswered _ hcls hd =>
    obtain rfl : cls = _ := hcls
    exact ⟨rfl, _, by rw [hd, List.head?_cons]⟩

/-- How a register read fails: not with an authentication error, and with a
    verdict only if a word of the register was not answered. -/
structure GivesUp (register : Register) (e : Exc) (w' : World κ) : Prop where
  not_auth : e.isInstance [.ninebotAuthError] = false
  unanswered : e.isVerdict = true →
    ∃ l word, w'.deeds.head? = some (.unanswered l (readRequest register word 2))

section Verdict

variable [Cipher κ]

theorem walk_givesUp (register : Register) (words : List Nat) (payload : Bytes) (w : World κ) :
    Triple (walk register words payload) w (fun _ _ => True) (GivesUp register)
      (fun _ => True) := by
  induction words generalizing payload w with
  | nil => exact Triple.pure trivial
  | cons word rest ih =>
    refine Triple.bind ((request_triple _ none w).mono (fun _ _ h => h) ?_ (fun _ _ => trivial))
      fun _ w₁ _ => ih _ w₁
    intro e w₁ h
    refine ⟨h.2.not_auth, fun he => ?_⟩
    obtain ⟨_, l, hl⟩ := h.2.verdict_unanswered he
    exact ⟨l, word, hl⟩

/-- When a longer register cannot be read for want of an answer, it was the
    answer for one of its words. -/
theorem readRegister_givesUp (register : Register) (hlong : wordSize < register.length)
    (hshort : register.length < 256) (w : World κ) :
    Triple (readRegister register) w (fun _ _ => True) (GivesUp register) (fun _ => True) := by
  have hwalk : ∀ w₁ : World κ, Triple (walkRegister register) w₁ (fun _ _ => True)
      (GivesUp register) (fun _ => True) := fun w₁ =>
    Triple.bind (walk_givesUp register _ _ w₁) fun _ _ _ => Triple.pure trivial
  refine readRegister_triple (T := fun _ => True) ?_ fun w₁ _ => hwalk w₁
  unfold bulkRead
  rw [if_pos hshort]
  refine (request_triple _ none w).mono (fun _ _ _ => by split <;> trivial) ?_
    (fun _ _ => trivial)
  intro e w₁ h
  by_cases htime : e.isInstance [.ninebotTimeoutError]
  · rw [if_pos ⟨htime, hlong⟩]
    trivial
  · rw [if_neg fun he => htime he.1]
    -- A bulk read that is not answered times out, and that is caught.
    exact ⟨h.2.not_auth, fun he => absurd (h.2.verdict_unanswered he).1 htime⟩

end Verdict

/-! ## A handshake with a key -/

/-- The beginning of a link's use, and the end of its handshake. -/
def Obs.isMark : Obs → Bool
  | .opened _ | .handshaken _ => true
  | _ => false

/-- A PING that offers another key than `key`. -/
def Obs.offersOther (key : Bytes) : Obs → Bool
  | .sent _ _ _ p => p.command = .ping ∧ p.data ≠ key
  | _ => false

/-- What is done during a handshake with `key`. -/
def Obs.OffersOnly (key : Bytes) (o : Obs) : Prop :=
  o.isMark = false ∧ o.offersOther key = false

/-- A later moment of a handshake: the link and the app key are the same, and
    no other key was offered. -/
structure Greeting (w w' : World κ) : Prop where
  link : SameLink w w'
  does : Does (Obs.OffersOnly w.self.appKey) w w'
  order : ∀ start, KeepsOrder start w w'

/-- The PING of a handshake that began at `w` has been answered with index 0. -/
def Unpaired (w w' : World κ) : Prop :=
  ∃ l key r i, .answered l (pingRequest key) r i ∈ w.newDeeds w' ∧ r.index = 0

/-- A handshake that began at `w` has rejected its key at `w'`. -/
inductive Rejects (w w' : World κ) : Prop where
  | shortInit {l : Option Nat} {r : Packet} {i : Nat} :
      .answered l initRequest r i ∈ w.newDeeds w' → r.data.length < appKeyLength → Rejects w w'
  | unpaired : Unpaired w w' → Rejects w w'
  /-- The closing PAIR was answered, a word of the verification was not. -/
  | unverified {l l' : Option Nat} {challenge : Bytes} {r : Packet} {i word : Nat} :
      .answered l (pairRequest challenge) r i ∈ w.newDeeds w' →
      w'.deeds.head? = some (.unanswered l' (readRequest serialNumber word 2)) → Rejects w w'

namespace Greeting

variable {w w' w'' : World κ}

theorem refl (w : World κ) : Greeting w w :=
  ⟨SameLink.refl w, Does.refl w, fun start => KeepsOrder.refl start w⟩

theorem trans (h : Greeting w w') (h' : Greeting w' w'') : Greeting w w'' := by
  refine ⟨h.link.trans h'.link, h.does.trans ?_,
    fun start => (h.order start).trans (h'.order start)⟩
  rw [← h.link.appKey]
  exact h'.does

instance : Std.Refl (Greeting (κ := κ)) := ⟨refl⟩

instance : IsTrans (World κ) Greeting := ⟨fun _ _ _ => trans⟩

/-- A step that neither does anything nor touches the queue. -/
theorem of_congr (hlink : SameLink w w') (htrace : w'.trace = w.trace)
    (hqueue : w'.self.responses = w.self.responses) : Greeting w w' := by
  refine ⟨hlink, Does.of_same hlink.trace ?_, fun _ => KeepsOrder.congr htrace hqueue⟩
  rw [World.deeds, World.deeds, htrace]

variable [Cipher κ]

theorem bleData (w : World κ) (init : Bytes) : Greeting w (w.setBleData init) :=
  of_congr (SameLink.greets.bleData w init) rfl rfl

theorem appData (w : World κ) : Greeting w w.setAppData :=
  of_congr (SameLink.greets.appData w) rfl rfl

theorem say (w : World κ) (text : String) : Greeting w (w.log (.log .info text)) :=
  ⟨SameLink.greets.say w text, Does.log w (by simp [Obs.isDeed]), fun _ => KeepsOrder.log w rfl⟩

theorem hear (w : World κ) : Greeting w (receive pairingRetryInterval w).2 :=
  ⟨SameLink.asks.receive _ w, (Does.waits _).receive _ w, fun start =>
    (KeepsOrder.asks start).receive _ w⟩

end Greeting

section Handshake

variable [Cipher κ]

theorem send_greeting {p : Packet} {w : World κ}
    (hp : p.command = .ping → p.data = w.self.appKey) : Greeting w (send p w).2 := by
  refine ⟨SameLink.asks.send p w, (send_ends p w).does (SameLink.asks.send p w).trace ⟨rfl, rfl⟩ ?_,
    fun start => (KeepsOrder.asks start).send p w⟩
  intro l _
  exact ⟨rfl, by simpa [World.sentObs, Obs.offersOther] using hp⟩

theorem request_greeting {p : Packet} {w : World κ}
    (hp : p.command = .ping → p.data = w.self.appKey) : Greeting w (request p none w).2 := by
  refine ⟨SameLink.asks.request p none w, (request_ends p none w).does
    (SameLink.asks.request p none w).trace ⟨rfl, rfl⟩ ?_ (fun _ => ⟨rfl, rfl⟩)
    (fun _ _ _ _ => ⟨rfl, rfl⟩), fun start => (KeepsOrder.asks start).request p none w⟩
  intro l _
  exact ⟨rfl, by simpa [World.sentObs, Obs.offersOther] using hp⟩

/-- A request of a handshake: its answer is noted, and its errors are no
    authentication errors. -/
theorem request_greets {w₀ w : World κ} {p : Packet} (h : Greeting w₀ w)
    (hp : p.command = .ping → p.data = w.self.appKey) :
    Triple (request p) w
      (fun r w' => Greeting w₀ w' ∧ ∃ l i, .answered l p r i ∈ w₀.newDeeds w')
      (fun e w' => Greeting w₀ w' ∧ e.isInstance [.ninebotAuthError] = false)
      (Greeting w₀) := by
  have hgreet := request_greeting (w := w) hp
  refine ((request_triple p none w).and (Triple.of_last hgreet)).mono ?_ ?_
    (fun _ h' => h.trans h'.2)
  · intro r w' h'
    refine ⟨h.trans h'.2, ?_⟩
    cases h'.1.2 with
    | @answered _ l' _ i _ _ _ _ hd =>
      have hmem : .answered l' p r i ∈ w.newDeeds w' := by
        rw [World.newDeeds_eq [_, _] hd]
        exact List.mem_cons_self
      exact ⟨l', i, World.mem_newDeeds_of_later h.does.trace h'.2.does.trace hmem⟩
  · intro e w' h'
    exact ⟨h.trans h'.2, h'.1.2.not_auth⟩

theorem readRegister_greeting (register : Register) (w : World κ) :
    Greeting w (readRegister register w).2 := by
  have hread : ∀ word n, Moves Greeting (request (readRequest register word n) : M κ Packet) :=
    fun _ _ _ => request_greeting (by simp [readRequest])
  exact readRegister_moves (fun _ => hread 0 _) (fun word => hread word 2) w

/-- The verification fails with an authentication error only if a word of the
    serial number is not answered. -/
theorem verifySession_verdict (w : World κ) :
    Triple verifySession w (fun _ => Greeting w)
      (fun e w' => Greeting w w' ∧ (e.isInstance [.ninebotAuthError] = true →
        ∃ l word, w'.deeds.head? = some (.unanswered l (readRequest serialNumber word 2))))
      (Greeting w) := by
  have hread := (Triple.of_last (readRegister_greeting serialNumber w)).and
    (readRegister_givesUp serialNumber (by decide) (by decide) w)
  refine verifySession_triple (hread.mono (fun _ _ h => h.1) ?_ (fun _ h => h.1))
  intro e w' h
  by_cases hverdict : e.isVerdict
  · unfold Exc.isVerdict at hverdict
    rw [if_pos hverdict]
    exact ⟨h.1, fun _ => h.2.unanswered hverdict⟩
  · unfold Exc.isVerdict at hverdict
    rw [if_neg hverdict]
    exact ⟨h.1, fun hauth => absurd (h.2.not_auth.symm.trans hauth) (by decide)⟩

/-- A handshake that ends in an authentication error has rejected its key; one
    that returns has had its closing PAIR answered. -/
theorem handshake_rejects (w : World κ) :
    Triple handshake w
      (fun _ w' => ∃ w₁ l challenge r i, Greeting w w₁ ∧ w' = w₁.log (.handshaken w₁.self.client) ∧
        .answered l (pairRequest challenge) r i ∈ w.newDeeds w₁)
      (fun e w' => Greeting w w' ∧ (e.isInstance [.ninebotAuthError] = true → Rejects w w'))
      (Greeting w) := by
  -- An error that is no authentication error says nothing about the key.
  have hother : ∀ {e : Exc} {w' : World κ},
      Greeting w w' ∧ e.isInstance [.ninebotAuthError] = false →
      Greeting w w' ∧ (e.isInstance [.ninebotAuthError] = true → Rejects w w') := by
    intro e w' h
    exact ⟨h.1, fun hauth => absurd (h.2.symm.trans hauth) (by decide)⟩
  have hpaired : ∀ {w' : World κ}, Greeting w w' → Triple (request (pairRequest
      w'.self.serialChallenge)) w'
      (fun _ w₁ => Greeting w w₁ ∧ ∃ l challenge r i,
        .answered l (pairRequest challenge) r i ∈ w.newDeeds w₁)
      (fun e w₁ => Greeting w w₁ ∧ (e.isInstance [.ninebotAuthError] = true → Rejects w w₁))
      (Greeting w) := by
    intro w' h'
    refine (request_greets h' (by simp [pairRequest])).mono ?_ (fun _ _ => hother) (fun _ h => h)
    intro r w₁ h₁
    obtain ⟨hgreet, l, i, hmem⟩ := h₁
    exact ⟨hgreet, l, _, r, i, hmem⟩
  refine handshake_triple (A := Greeting w)
    (B := fun w' => Greeting w w' ∧ Unpaired w w')
    (D := Greeting w) ?_ ?_ ?_ (fun w' h' => hpaired h') ?_
  · refine (request_greets (Greeting.refl w) (by simp [initRequest])).mono ?_ (fun _ _ => hother)
      (fun _ h => h)
    intro r w₁ h₁
    obtain ⟨hgreet, l, i, hmem⟩ := h₁
    by_cases hshort : r.data.length < appKeyLength
    · rw [if_pos hshort]
      exact ⟨hgreet, fun _ => Rejects.shortInit hmem hshort⟩
    · rw [if_neg hshort]
      exact hgreet.trans (Greeting.bleData w₁ r.data)
  · intro w₁ h₁
    refine (request_greets h₁ (fun _ => rfl)).mono ?_ (fun _ _ => hother) (fun _ h => h)
    intro r w₂ h₂
    obtain ⟨hgreet, l, i, hmem⟩ := h₂
    by_cases hzero : r.index = 0
    · rw [if_pos hzero]
      exact ⟨hgreet, l, _, r, i, hmem, hzero⟩
    · rw [if_neg hzero]
      exact hgreet.trans (Greeting.appData w₂)
  · -- While it waits for the user the client knows that the scooter is not paired.
    intro w₁ h₁
    have hstay : ∀ {w' w'' : World κ}, Greeting w w' ∧ Unpaired w w' → Greeting w' w'' →
        Greeting w w'' ∧ Unpaired w w'' := by
      intro w' w'' h' hstep
      obtain ⟨hgreet, l, key, r, i, hmem, hzero⟩ := h'
      exact ⟨hgreet.trans hstep, l, key, r, i,
        World.mem_newDeeds_of_earlier hgreet.does.trace hstep.does.trace hmem, hzero⟩
    refine (awaitPairing_keeps h₁ (fun w' text h' => hstay h' (Greeting.say w' text)) ?_
      (fun w' h' => hstay h' (Greeting.hear w')) ?_ (fun _ h' => h'.1)).mono
      (fun _ w' h' => h'.1.trans (Greeting.appData w')) (fun _ _ h => h) (fun _ h => h)
    · intro w' h'
      have hsend := send_greeting (p := pairRequest w'.self.serialChallenge) (w := w')
        (by simp [pairRequest])
      refine ((Triple.of_last hsend).and (send_triple _ w')).mono (fun _ _ h => hstay h' h.1)
        ?_ (fun _ h => (hstay h' h.1).1)
      intro e w'' h
      exact hother ⟨(hstay h' h.1).1, h.2.not_auth⟩
    · intro w' h'
      obtain ⟨hgreet, l, key, r, i, hmem, hzero⟩ := h'
      exact ⟨hgreet, fun _ => Rejects.unpaired ⟨l, key, r, i, hmem, hzero⟩⟩
  · intro w₁ h₁
    obtain ⟨hgreet, l, challenge, r, i, hmem⟩ := h₁
    refine (verifySession_verdict w₁).mono ?_ ?_ (fun _ h => hgreet.trans h)
    · intro _ w₂ h₂
      exact ⟨w₂, l, challenge, r, i, hgreet.trans h₂, rfl,
        World.mem_newDeeds_of_earlier hgreet.does.trace h₂.does.trace hmem⟩
    · intro e w₂ h₂
      refine ⟨hgreet.trans h₂.1, fun hauth => ?_⟩
      obtain ⟨l', word, hhead⟩ := h₂.2 hauth
      have hearlier := World.mem_newDeeds_of_earlier hgreet.does.trace h₂.1.does.trace hmem
      exact Rejects.unverified hearlier hhead

end Handshake

/-! ## `connect` with a stored key -/

/-- A moment of a `connect` that began at `w` and has not given up its key. -/
structure Trying (w w' : World κ) : Prop where
  order : ∀ start, KeepsOrder start w w'
  appKey : w'.self.appKey = w.self.appKey
  appKeyWasSupplied : w'.self.appKeyWasSupplied = w.self.appKeyWasSupplied
  opened : w'.opened ≤ w.opened + 1
  does : Does (fun o => o.offersOther w.self.appKey = false) w w'

/-- The first handshake of a `connect` that began at `w` has rejected the key. -/
def Rejected (w w' : World κ) : Prop :=
  ∃ w₁ w₂, Opened w w₁ ∧ Trying w w₁ ∧ Greeting w₁ w₂ ∧ Rejects w₁ w₂ ∧ w₂.trace <:+ w'.trace

namespace Trying

variable {w w' w'' : World κ}

theorem of_transported (h : Transported w w') (horder : ∀ start, KeepsOrder start w w') :
    Trying w w' := by
  refine ⟨horder, h.appKey, h.appKeyWasSupplied, ?_, h.does.mono ?_⟩
  · rcases h.opened with hsame | hone <;> omega
  · intro o ho
    cases o <;> first | rfl | cases ho

theorem greeting (h : Trying w w') (h' : Greeting w' w'') : Trying w w'' := by
  refine ⟨fun start => (h.order start).trans (h'.order start), h'.link.appKey.trans h.appKey,
    h'.link.appKeyWasSupplied.trans h.appKeyWasSupplied, ?_, h.does.trans ?_⟩
  · rw [h'.link.opened]
    exact h.opened
  · rw [← h.appKey]
    exact h'.does.mono fun _ ho => ho.2

theorem handshaken (h : Trying w w') (l : Option Nat) : Trying w (w'.log (.handshaken l)) := by
  refine ⟨fun start => (h.order start).trans (KeepsOrder.log w' rfl), h.appKey,
    h.appKeyWasSupplied, h.opened, h.does.trans (Does.log w' fun _ => rfl)⟩

end Trying

section Connect

variable [Cipher κ]

theorem connectTransport_order (w : World κ) :
    Triple connectTransport w (fun _ w' => Opened w w' ∧ Trying w w')
      (fun e w' => e.isInstance [.ninebotAuthError] = false ∧ Trying w w') (Trying w) := by
  have horder : ∀ start, KeepsOrder start w (connectTransport w).2 := fun start =>
    (KeepsOrder.connects start).transports.connectTransport w
  have hlast := Triple.of_last (I := fun w' => ∀ start, KeepsOrder start w w') horder
  apply ((connectTransport_ends w).and hlast).mono
  · intro _ w' h
    exact ⟨h.1, Trying.of_transported h.1.transported h.2⟩
  · intro e w' h
    exact ⟨h.1.1, Trying.of_transported h.1.2 h.2⟩
  · intro w' h
    exact Trying.of_transported h.1 h.2

theorem connectAgain_trace (w : World κ) : w.trace <:+ (connectAgain w).2.trace := by
  have hmoves : Moves (KeepsOrder 0) (connectAgain : M κ Unit) :=
    Moves.bind (KeepsOrder.connects 0).disconnect fun _ =>
      Moves.bind (KeepsOrder.connects 0).transports.connectTransport fun _ =>
        (KeepsOrder.greets 0).handshake
  exact (hmoves w).trace

/-- Unless the first handshake rejects the key, `connect` keeps it, offers no
    other one, opens at most one link and raises no authentication error. -/
theorem connect_result (w : World κ) :
    Triple connect w
      (fun _ w' => (Trying w w' ∧ ∃ l challenge r i,
        .answered l (pairRequest challenge) r i ∈ w.newDeeds w') ∨ Rejected w w')
      (fun e w' => (Trying w w' ∧ e.isInstance [.ninebotAuthError] = false) ∨ Rejected w w')
      (fun w' => Trying w w' ∨ Rejected w w') := by
  refine connect_triple (A := fun w₁ => Opened w w₁ ∧ Trying w w₁) (B := Rejected w)
    ((connectTransport_order w).mono (fun _ _ h => h) (fun _ _ h => Or.inl h.symm)
      (fun _ h => Or.inl h)) ?_ ?_
  · intro w₁ h₁
    obtain ⟨hopened, htrying⟩ := h₁
    refine (handshake_rejects w₁).mono ?_ ?_ (fun _ h => Or.inl (htrying.greeting h))
    · intro _ w₃ h₃
      obtain ⟨w₂, l, challenge, r, i, hgreet, rfl, hmem⟩ := h₃
      refine Or.inl ⟨(htrying.greeting hgreet).handshaken _, l, challenge, r, i, ?_⟩
      have hlog : w₂.trace <:+ (w₂.log (.handshaken w₂.self.client)).trace := List.suffix_cons _ _
      exact World.mem_newDeeds_of_later htrying.does.trace (hgreet.does.trace.trans hlog)
        (World.mem_newDeeds_of_earlier hgreet.does.trace hlog hmem)
    · intro e w₂ h₂
      obtain ⟨hgreet, hauth⟩ := h₂
      by_cases he : e.isInstance [.ninebotAuthError] = true
      · -- The key goes, here or in the second attempt.
        have hrejected : ∀ w₃ : World κ, w₂.trace <:+ w₃.trace → Rejected w w₃ := fun w₃ hw =>
          ⟨w₁, w₂, hopened, htrying, hgreet, hauth he, hw⟩
        split
        · exact hrejected _ (List.suffix_cons _ _)
        · exact Or.inr (hrejected _ (List.suffix_refl _))
      · simp only [he]
        exact Or.inl ⟨htrying.greeting hgreet, by simp⟩
  · -- Whatever the second attempt does, the first one was rejected.
    intro w₃ h₃
    obtain ⟨w₁, w₂, hopened, htrying, hgreet, hrejects, hw⟩ := h₃
    have hlast : Rejected w (connectAgain w₃).2 :=
      ⟨w₁, w₂, hopened, htrying, hgreet, hrejects, hw.trans (connectAgain_trace w₃)⟩
    exact (Triple.of_last hlast).mono (fun _ _ h => Or.inr h) (fun _ _ h => Or.inr h)
      (fun _ h => Or.inr h)

/-- Whatever its outcome, a `connect` keeps its key or has rejected it. -/
theorem trying_or_rejected (w : World κ) :
    Trying w (Ninebot.connect w).2 ∨ Rejected w (Ninebot.connect w).2 :=
  (connect_result w).last (I := fun w' => Trying w w' ∨ Rejected w w')
    (fun _ _ h => h.imp And.left id) (fun _ _ h => h.imp And.left id) (fun _ h => h)

end Connect

end Ninebot
