import Ninebot.Sensors

/-! # The power button

    A scooter that does not know the client's key accepts no PAIR before its
    power button is pressed.  In the closed loop the client asks once every
    second until its time is up; the coordinator asks for the button, drops the
    link and stores nothing.  However often that happens, the first poll after
    the button was pressed shows the scooter.

    This file defines:
    - `FakeScooter.asked`: a scooter that was asked to pair in vain
    - `Strangers`: a coordinator that has never paired, and a scooter
    - `Unpressed`: polls of a scooter that waits for its button -/

namespace Ninebot

open Coro FakeScooter

variable {l : Nat} {e : Air} {w : World StubCrypto}

/-! ## Waiting -/

/-- The scooter that has been asked to pair, and waits for its button. -/
def FakeScooter.asked (self : FakeScooter) (n : Nat) (challenge : Bytes) : FakeScooter :=
  { self with
    requests := self.requests ++ List.replicate n (pairRequest challenge)
    pairAttempts := self.pairAttempts + n }

theorem asked_zero (S : FakeScooter) (challenge : Bytes) : S.asked 0 challenge = S := by
  unfold FakeScooter.asked
  rw [List.replicate_zero, List.append_nil]
  rfl

theorem handled_asked {S : FakeScooter} (hbutton : S.requireButtonPress = true) (n : Nat)
    (challenge : Bytes) :
    (S.handled (pairRequest challenge)).asked n challenge = S.asked (n + 1) challenge := by
  have hreply : S.reply (pairRequest challenge) = none := by
    simp [FakeScooter.reply, pairRequest, hbutton]
  have hnoted : S.noted (pairRequest challenge) =
      (S.setRequest (pairRequest challenge)).attempted := by
    simp [noted, pairRequest, hbutton]
  unfold handled
  rw [hreply, hnoted]
  unfold FakeScooter.asked FakeScooter.notify FakeScooter.attempted FakeScooter.setRequest
    FakeScooter.chunks
  dsimp only [Option.elim]
  rw [List.append_nil, List.append_assoc, List.replicate_succ, Nat.add_assoc, Nat.add_comm 1 n]
  rfl

theorem handled_requireButtonPress {S : FakeScooter} {p : Packet} :
    (S.handled p).requireButtonPress = S.requireButtonPress := by
  unfold handled noted
  split
  · split <;> rfl
  · rfl

/-- How often `_await_pairing` asks when nobody answers: once for each second
    that has begun before the deadline. -/
def pairingAsks (deadline now : Nat) : Nat :=
  (deadline - now + (pairingRetryInterval - 1)) / pairingRetryInterval

theorem pairingAsks_late {deadline now : Nat} (h : ¬ now < deadline) :
    pairingAsks deadline now = 0 := by
  unfold pairingAsks pairingRetryInterval
  omega

theorem pairingAsks_early {deadline now : Nat} (h : now < deadline) :
    pairingAsks deadline now = pairingAsks deadline (now + pairingRetryInterval) + 1 := by
  unfold pairingAsks pairingRetryInterval
  omega

/-- Nothing comes before the timer of `_receive` fires. -/
theorem receive_expires {S : FakeScooter} (hrx : S.rxBuffer = []) (written : List Bytes)
    (hqueue : w.self.responses = []) (timeout : Nat) :
    Meets (air l) (receive timeout) ⟨S, written, true⟩ w (.raised timedOut) ⟨S, written, true⟩
      (w.since (w.now + timeout) w.trace) := by
  refine ⟨_, .silence timeout rfl hrx .done, fun rest => ?_⟩
  exact receive_silent hqueue timeout rest

/-- Nobody presses the button until the time is up. -/
theorem awaitPairingLoop_waits {deadline gas : Nat} (h : Meeting l e w)
    (hbutton : e.scooter.requireButtonPress = true)
    (hchallenge : w.self.serialChallenge.length ≤ maxDataLength)
    (hgas : pairingAsks deadline w.now < gas) :
    ∃ e' now trace, Meets (air l) (awaitPairingLoop deadline gas) e w (.raised pairingRequired) e'
        (w.since now trace) ∧
      e'.scooter = e.scooter.asked (pairingAsks deadline w.now) w.self.serialChallenge ∧
      Meeting l e' (w.since now trace) := by
  induction gas generalizing e w with
  | zero => omega
  | succ gas ih =>
    by_cases hearly : w.now < deadline
    · -- One more PAIR, and no answer to it.
      obtain ⟨quiet, written, trace, responses, hsend, hquiet, hresponses, hwritten⟩ :=
        send_meets h (pairRequest_fits hchallenge)
      have hreply : e.scooter.reply (pairRequest w.self.serialChallenge) = none := by
        simp [FakeScooter.reply, pairRequest, hbutton]
      rw [hreply] at hresponses
      obtain rfl : responses = [] := List.map_eq_nil_iff.mp hresponses
      obtain rfl := hquiet hreply
      have hnil : w.queued [] trace = w.since w.now trace :=
        World.queued_setResponses h.queue [] trace
      rw [hnil] at hsend hwritten
      have hrx : (e.scooter.handled (pairRequest w.self.serialChallenge)).rxBuffer = [] := by
        rw [handled_rxBuffer]
        exact h.rxBuffer
      have hwait := receive_expires (l := l) (w := w.since w.now trace) hrx written h.queue
        pairingRetryInterval
      have hmeeting : Meeting l ⟨e.scooter.handled (pairRequest w.self.serialChallenge), written,
          true⟩ (w.since (w.now + pairingRetryInterval) trace) := by
        apply h.since
        · rw [handled_subscribed]
          exact h.peer
        · exact hrx
        · exact hwritten
      obtain ⟨e', now', trace', hloop, hscooter, hmeeting'⟩ :=
        ih (w := w.since (w.now + pairingRetryInterval) trace) hmeeting
          (handled_requireButtonPress.trans hbutton) hchallenge (by
          rw [pairingAsks_early hearly] at hgas
          exact Nat.lt_of_succ_lt_succ hgas)
      refine ⟨e', now', trace', ?_, ?_, hmeeting'⟩
      · rw [awaitPairingLoop]
        apply Meets.get_bind (fun _ => rfl)
        simp only [hearly, if_true]
        apply Meets.bind hsend
        exact Meets.bind (Meets.attempt_caught hwait rfl) hloop
      · rw [hscooter, pairingAsks_early hearly]
        exact handled_asked hbutton _ _
    · refine ⟨e, w.now, w.trace, ?_, ?_, h⟩
      · rw [awaitPairingLoop]
        apply Meets.get_bind (fun _ => rfl)
        simp only [hearly, if_false]
        exact Meets.raise
      · rw [pairingAsks_late hearly, asked_zero]

theorem awaitPairing_waits (h : Meeting l e w) (hbutton : e.scooter.requireButtonPress = true)
    (hchallenge : w.self.serialChallenge.length ≤ maxDataLength)
    (hgas : pairingAsks (w.now + w.self.pairingTimeout) w.now < w.gas) :
    ∃ e' now trace,
      Meets (air l) awaitPairing e w (.raised pairingRequired) e' (w.since now trace) ∧
      e'.scooter = e.scooter.asked (pairingAsks (w.now + w.self.pairingTimeout) w.now)
        w.self.serialChallenge ∧
      Meeting l e' (w.since now trace) := by
  let line : Obs := .log .info (w.self.name ++ ": " ++ "press the scooter's power button to pair")
  have hsaid : Meets (air l) (M.info "press the scooter's power button to pair") e w (.ret ()) e
      (w.log line) := Meets.of_eq fun _ => rfl
  have hlog : Meeting l e (w.log line) := h.log (by simp [line])
  obtain ⟨e', now, trace, hloop, hscooter, hmeeting⟩ :=
    awaitPairingLoop_waits (w := w.log line) hlog hbutton hchallenge hgas
  exact ⟨e', now, trace, Meets.bind hsaid (Meets.get_bind (fun _ => rfl) hloop), hscooter, hmeeting⟩

/-- How often the client asks in one attempt to pair. -/
def World.pairings (w : World StubCrypto) : Nat := pairingAsks w.self.pairingTimeout 0

theorem pairingAsks_add (now span : Nat) : pairingAsks (now + span) now = pairingAsks span 0 := by
  unfold pairingAsks
  rw [Nat.add_sub_cancel_left, Nat.sub_zero]

/-- A client whose key was made up by itself, and a scooter that does not know
    the key.  Nothing is under way. -/
structure Unknown (e : Air) (w : World StubCrypto) : Prop where
  requestTimeout : 0 < w.self.requestTimeout
  appKey : w.self.appKey.length ≤ maxDataLength
  supplied : w.self.appKeyWasSupplied = false
  unpaired : e.scooter.pairedAppKey ≠ some w.self.appKey
  rxBuffer : e.scooter.rxBuffer = []
  written : e.written = w.written
  gas : w.pairings < w.gas

/-- What `n` requests to pair leave on a scooter whose button nobody presses. -/
structure InVain (key : Bytes) (n : Nat) (S S' : FakeScooter) : Prop where
  memory : S.SameMemory S'
  button : S'.requireButtonPress = S.requireButtonPress
  chunkSize : S'.chunkSize = S.chunkSize
  pairedAppKey : S'.pairedAppKey = S.pairedAppKey
  pairAttempts : S'.pairAttempts = S.pairAttempts + n
  requests : S'.requests = S.requests ++ [initRequest, pingRequest key] ++
    List.replicate n (pairRequest serialChallenge)

theorem InVain.of_asked (key : Bytes) (n : Nat) (S : FakeScooter) :
    InVain key n S
      (((S.handled initRequest).handled (pingRequest key)).asked n serialChallenge) := by
  have hmemory : S.SameMemory ((S.handled initRequest).handled (pingRequest key)) :=
    sameMemory_handled.trans sameMemory_handled
  refine ⟨⟨hmemory.registers, hmemory.unreadable, hmemory.supportsBulkReads⟩, ?_, ?_, rfl, rfl, ?_⟩
  · show ((S.handled initRequest).handled (pingRequest key)).requireButtonPress = _
    rw [handled_requireButtonPress, handled_requireButtonPress]
  · show ((S.handled initRequest).handled (pingRequest key)).chunkSize = _
    rw [handled_chunkSize, handled_chunkSize]
  · show ((S.handled initRequest).handled (pingRequest key)).requests ++ _ = _
    rw [handled_requests, handled_requests, List.append_assoc S.requests]
    rfl

theorem handshake_waits (h : Meeting l e w) (hbutton : e.scooter.requireButtonPress = true)
    (hkey : w.self.appKey.length ≤ maxDataLength)
    (hunpaired : e.scooter.pairedAppKey ≠ some w.self.appKey) (hgas : w.pairings < w.gas) :
    ∃ e' w', Meets (air l) handshake e w (.raised pairingRequired) e' w' ∧
      InVain w.self.appKey w.pairings e.scooter e'.scooter ∧ Meeting l e' w' ∧ w.SameClient w' ∧
      w'.self.appKeyWasSupplied = w.self.appKeyWasSupplied := by
  obtain ⟨e₁, w₁, hscooter₁, h₁, hsame₁, hchallenge₁, hsupplied₁, hstart⟩ := handshake_pinged h hkey
  have hbutton₁ : e₁.scooter.requireButtonPress = true := by
    rw [hscooter₁, handled_requireButtonPress, handled_requireButtonPress]
    exact hbutton
  have hfits : w₁.self.serialChallenge.length ≤ maxDataLength := by
    rw [hchallenge₁]
    decide
  have hturns : pairingAsks (w₁.now + w₁.self.pairingTimeout) w₁.now = w.pairings := by
    rw [pairingAsks_add, hsame₁.pairingTimeout]
    rfl
  obtain ⟨e₂, now, trace, hwait, hscooter₂, h₂⟩ := awaitPairing_waits h₁ hbutton₁ hfits (by
    rw [hturns, hsame₁.gas]
    exact hgas)
  -- PING says that the key is unknown, so the handshake asks for the button.
  refine ⟨e₂, w₁.since now trace, hstart _ _ _ ?_, ?_, h₂,
    hsame₁.trans ⟨rfl, rfl, rfl, rfl, rfl, rfl⟩, hsupplied₁⟩
  · rw [pingedRest, if_pos hunpaired]
    exact Meets.bind_raised hwait
  · rw [hscooter₂, hscooter₁, hturns, hchallenge₁]
    exact InVain.of_asked _ _ _

/-- `connect` gives up, and leaves the link open. -/
theorem connect_waits (h : Unknown e w) (hbutton : e.scooter.requireButtonPress = true) :
    ∃ e' w', Meets (air w.opened) connect e w (.raised pairingRequired) e' w' ∧
      InVain w.self.appKey w.pairings e.scooter e'.scooter ∧ Meeting w.opened e' w' ∧
      w.SameClient w' ∧ w'.self.appKeyWasSupplied = false := by
  have hmeeting : Meeting w.opened e.subscribe (w.joined e.scooter.chunkSize) :=
    Meeting.joined h.requestTimeout (Nat.zero_lt_of_lt h.gas) h.rxBuffer h.written
  obtain ⟨e', w', hwait, hvain, hmeeting', hsame, hsupplied⟩ :=
    handshake_waits hmeeting hbutton h.appKey h.unpaired h.gas
  have hsupplied' : w'.self.appKeyWasSupplied = false := hsupplied.trans h.supplied
  refine ⟨e', w', ?_, ?_, hmeeting', ?_, hsupplied'⟩
  · -- The key was not supplied, so that it is not given up for another.
    apply Meets.bind connectTransport_meets
    apply Meets.bind (Meets.attempt_caught hwait rfl)
    apply Meets.get_bind (fun _ => rfl)
    simp only [hsupplied']
    exact Meets.raise
  · exact ⟨⟨hvain.memory.registers, hvain.memory.unreadable, hvain.memory.supportsBulkReads⟩,
      hvain.button, hvain.chunkSize, hvain.pairedAppKey, hvain.pairAttempts, hvain.requests⟩
  · exact ⟨hsame.address, hsame.name, hsame.appKey, hsame.requestTimeout, hsame.pairingTimeout,
      hsame.gas⟩

/-! ## The coordinator asks for the button -/

section Poll

variable {home home' : Home StubCrypto} {mirror : Mirror}

/-- A poll that asks for the button drops its link. -/
theorem coordinatorPoll_asks {e' : Air}
    (hupdate : Meets (air l) asyncUpdate e home (.raised pairingRequired) e' home')
    (hmeeting : Meeting l e' home'.world) :
    ∃ home'' trace, Meets (air l) coordinatorPoll e home (.ret ()) e'.unsubscribe home'' ∧
      home''.world = (home'.world.since home'.world.now trace).parted l ∧
      (home'.world.since home'.world.now trace).written = home'.world.written ∧
      home''.coordinator = home'.coordinator.failed pairingRequired ∧
      home''.entry = home'.entry := by
  let flagged : Home StubCrypto := { home' with
    coordinator := { home'.coordinator with pairingRequired := true } }
  let text := " needs pairing: " ++ pairingRequired.msg
  obtain ⟨trace, hworld, hwritten⟩ := Home.mark_world flagged .warning text
  have hmeeting' : Meeting l e' (flagged.mark .warning text).world := by
    rw [hworld]
    exact hmeeting.since hmeeting.peer hmeeting.rxBuffer (hmeeting.written.trans hwritten.symm)
  have hflag : Meets (air l) (H.setCoordinator fun c => { c with pairingRequired := true }) e'
      home' (.ret ()) e' flagged := Meets.modify fun _ => rfl
  refine ⟨{ flagged.mark .warning text with
    world := (flagged.mark .warning text).world.parted l }, trace, ?_, ?_, hwritten, ?_, ?_⟩
  · apply Meets.bind (Meets.attempt_caught hupdate (Exc.isInstance_exception _))
    have hpairing : pairingRequired.isInstance [.ninebotPairingRequiredError] = true := rfl
    simp only [hpairing, if_true]
    -- The flag is set first, then the poll is marked as failed and the link is dropped.
    apply Meets.bind hflag
    exact Meets.bind (markFailed_meets _ _) (dropConnection_meets hmeeting')
  · show (flagged.mark .warning text).world.parted l = _
    rw [hworld]
  · show (flagged.mark .warning text).coordinator = _
    rw [Home.mark_coordinator]
    unfold Coordinator.failed
    have hpairing : pairingRequired.isInstance [.ninebotPairingRequiredError] = true := rfl
    rw [hpairing, Bool.or_true]
  · show (flagged.mark .warning text).entry = _
    unfold Home.mark
    split <;> rfl

/-- Between two polls: the client has no link, and has never paired. -/
structure Strangers (e : Air) (home : Home StubCrypto) : Prop where
  unknown : Unknown e home.world
  pairingTimeout : 0 < home.world.self.pairingTimeout
  down : home.world.isConnected = false

/-- What a poll of a scooter that waits for its button changes. -/
structure AskedInVain (e e' : Air) (home home' : Home StubCrypto) : Prop where
  scooter : InVain home.world.self.appKey home.world.pairings e.scooter e'.scooter
  coordinator : home'.coordinator = home.coordinator.failed pairingRequired
  entry : home'.entry = home.entry
  appKey : home'.world.self.appKey = home.world.self.appKey
  pairings : home'.world.pairings = home.world.pairings

theorem asyncUpdate_asks {e' : Air} {w' : World StubCrypto} (hdown : home.world.isConnected = false)
    (hconnect : Meets (air l) connect e home.world (.raised pairingRequired) e' w') :
    Meets (air l) asyncUpdate e home (.raised pairingRequired) e' { home with world := w' } := by
  apply Meets.bind_raised
  apply Meets.get_bind (fun _ => rfl)
  simp only [hdown]
  exact Meets.bind_raised (client_meets hconnect)

/-- Step lemma: the button was not pressed, and it is as before. -/
theorem Strangers.poll (h : Strangers e home) (hbutton : e.scooter.requireButtonPress = true) :
    ∃ l e' home', Meets (air l) coordinatorPoll e home (.ret ()) e' home' ∧ Strangers e' home' ∧
      AskedInVain e e' home home' := by
  obtain ⟨e₁, w₁, hconnect, hvain, hmeeting, hsame, hsupplied⟩ := connect_waits h.unknown hbutton
  obtain ⟨home', trace, hpoll, hworld, hwritten, hcoordinator, hentry⟩ :=
    coordinatorPoll_asks (asyncUpdate_asks h.down hconnect) hmeeting
  have hself : home'.world.self = { w₁.self with client := none } := by
    rw [hworld]
    rfl
  have happKey : home'.world.self.appKey = home.world.self.appKey := by
    rw [hself]
    exact hsame.appKey
  have hpairings : home'.world.pairings = home.world.pairings := by
    unfold World.pairings
    rw [hself]
    exact congrArg (pairingAsks · 0) hsame.pairingTimeout
  have hgas : home'.world.gas = home.world.gas := by
    rw [hworld]
    exact hsame.gas
  -- Nothing has changed that matters to the next poll, but for the number of PAIRs.
  refine ⟨_, e₁.unsubscribe, home', hpoll, ⟨⟨?_, ?_, ?_, ?_, ?_, ?_, ?_⟩, ?_, ?_⟩,
    ⟨⟨?_, ?_, ?_, ?_, ?_, ?_⟩, hcoordinator, hentry, happKey, hpairings⟩⟩
  · rw [hself]
    exact hsame.requestTimeout ▸ h.unknown.requestTimeout
  · rw [happKey]
    exact h.unknown.appKey
  · rw [hself]
    exact hsupplied
  · rw [happKey]
    show e₁.scooter.pairedAppKey ≠ _
    rw [hvain.pairedAppKey]
    exact h.unknown.unpaired
  · exact hmeeting.rxBuffer
  · rw [hworld, World.written_parted, hwritten]
    exact hmeeting.written
  · rw [hpairings, hgas]
    exact h.unknown.gas
  · rw [hself]
    exact hsame.pairingTimeout ▸ h.pairingTimeout
  · rw [World.isConnected, hself]
  · exact ⟨hvain.memory.registers, hvain.memory.unreadable, hvain.memory.supportsBulkReads⟩
  · exact hvain.button
  · exact hvain.chunkSize
  · exact hvain.pairedAppKey
  · exact hvain.pairAttempts
  · exact hvain.requests

/-! ## Until somebody presses it -/

/-- Polls of a scooter that waits for its button.  Before and after each of them
    it has taken the chunks that the client has written, and no others. -/
inductive Unpressed : Nat → Air → Home StubCrypto → Air → Home StubCrypto → Prop where
  | none {e : Air} {home : Home StubCrypto} : e.written = home.world.written →
      Unpressed 0 e home e home
  | poll {l k : Nat} {e e₁ e' : Air} {home home₁ home' : Home StubCrypto} :
      e.scooter.requireButtonPress = true → e.written = home.world.written →
      Meets (air l) coordinatorPoll e home (.ret ()) e₁ home₁ →
      Unpressed k e₁ home₁ e' home' → Unpressed (k + 1) e home e' home'

theorem failed_pairingRequired_twice (c : Coordinator) :
    (c.failed pairingRequired).failed pairingRequired = c.failed pairingRequired := by
  unfold Coordinator.failed
  have hpairing : pairingRequired.isInstance [.ninebotPairingRequiredError] = true := rfl
  simp [hpairing]

/-- Run lemma: each poll asks, and changes nothing else. -/
theorem Strangers.unpressed (h : Strangers e home) (hbutton : e.scooter.requireButtonPress = true)
    (k : Nat) : ∃ e' home', Unpressed (k + 1) e home e' home' ∧ Strangers e' home' ∧
      e.scooter.SameMemory e'.scooter ∧
      home'.coordinator = home.coordinator.failed pairingRequired ∧
      home'.entry = home.entry ∧
      e'.scooter.pairAttempts = e.scooter.pairAttempts + (k + 1) * home.world.pairings := by
  induction k generalizing e home with
  | zero =>
    obtain ⟨l, e', home', hpoll, hstrangers, hasked⟩ := h.poll hbutton
    refine ⟨e', home', .poll hbutton h.unknown.written hpoll (.none hstrangers.unknown.written),
      hstrangers, hasked.scooter.memory,
      hasked.coordinator, hasked.entry, ?_⟩
    rw [hasked.scooter.pairAttempts]
    omega
  -- The first of the polls, and then the others by induction.
  | succ k ih =>
    obtain ⟨l, e₁, home₁, hpoll, hstrangers, hasked⟩ := h.poll hbutton
    obtain ⟨e', home', hrest, hstrangers', hmemory, hcoordinator, hentry, hattempts⟩ :=
      ih hstrangers (hasked.scooter.button.trans hbutton)
    refine ⟨e', home', .poll hbutton h.unknown.written hpoll hrest, hstrangers',
      hasked.scooter.memory.trans hmemory, ?_, hentry.trans hasked.entry, ?_⟩
    · rw [hcoordinator, hasked.coordinator, failed_pairingRequired_twice]
    · rw [hattempts, hasked.scooter.pairAttempts, hasked.pairings]
      have hmul : (k + 1 + 1) * home.world.pairings =
          home.world.pairings + (k + 1) * home.world.pairings := by
        rw [Nat.succ_mul, Nat.add_comm]
      omega

end Poll

end Ninebot
