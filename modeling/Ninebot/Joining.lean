import Ninebot.Handshake
import Ninebot.Loop

/-! # Connecting to a scooter

    `connect()` in the closed loop: every request of the handshake is
    answered, and both sides keep what they have agreed on.

    This file defines:
    - `Willing`: a client and a scooter before they meet
    - `FakeScooter.Joined`: what a handshake leaves on the scooter -/

namespace Ninebot

open Coro FakeScooter

variable {l : Nat} {e : Air} {w : World StubCrypto}

/-! ## Connecting -/

/-- The client with a new link. -/
def World.joined (w : World StubCrypto) (size : Nat) : World StubCrypto :=
  { w with
    self := { w.resetTransport.self with
      client := some w.opened
      chunkSize := if size = 0 then defaultChunkSize else size }
    links := Function.update w.links w.opened ⟨true, true, .found size⟩
    opened := w.opened + 1
    trace := .opened w.opened :: .cleared :: w.trace }

theorem connectTransport_meets :
    Meets (air w.opened) connectTransport e w (.ret ()) e.subscribe
      (w.joined e.scooter.chunkSize) := by
  refine ⟨_, .connect .done, fun rest => ?_⟩
  let script : List Step :=
    .answer (.linked (.found e.scooter.chunkSize)) :: .answer .ok :: rest
  -- The world in which the link is open and subscribed.
  let w₁ : World StubCrypto := { w.resetTransport with
    self := { w.resetTransport.self with client := some w.opened }
    links := Function.update w.links w.opened ⟨true, true, .found e.scooter.chunkSize⟩
    opened := w.opened + 1
    script := rest
    trace := .opened w.opened :: .cleared :: w.trace }
  have hopen : (do
      let l ← establishConnection
      Coro.modify (·.setClient (some l))
      startNotify l : M StubCrypto Unit) ((w.setScript script).resetTransport) =
        (.ret (), w₁) := by
    have hlinks : Function.update (Function.update w.links w.opened
        ⟨true, false, .found e.scooter.chunkSize⟩) w.opened
        ⟨true, true, .found e.scooter.chunkSize⟩ =
        Function.update w.links w.opened ⟨true, true, .found e.scooter.chunkSize⟩ :=
      Function.update_idem _ _ _
    simp only [w₁, ← hlinks]
    simp only [bind_apply, establishConnection, startNotify, awaitCall, await, awaitFrom,
      World.resetTransport, World.setScript, script, World.setLink, World.log, World.setClient,
      World.subscribe, Function.update_self, modify_apply]
  have hrx : getRxCharacteristic w₁ = (.ret (some e.scooter.chunkSize), w₁) := by
    have hlink : (w₁.links w.opened).rx = .found e.scooter.chunkSize := by
      simp only [w₁, Function.update_self]
    have hclient : w₁.self.client = some w.opened := rfl
    rw [getRxCharacteristic, Coro.get_bind, hclient]
    simp only [hlink]
    rfl
  show connectTransport (w.setScript script) = _
  rw [connectTransport, Coro.modify_bind, bind_of_ret (attempt_of_ret hopen)]
  exact bind_of_ret hrx

theorem Meeting.joined (htimeout : 0 < w.self.requestTimeout) (hgas : 0 < w.gas)
    (hrx : e.scooter.rxBuffer = []) (hwritten : e.written = w.written) :
    Meeting w.opened e.subscribe (w.joined e.scooter.chunkSize) := by
  have hlink : (w.joined e.scooter.chunkSize).links w.opened =
      ⟨true, true, .found e.scooter.chunkSize⟩ := Function.update_self ..
  refine ⟨rfl, by rw [hlink], by rw [hlink], ?_, rfl, rfl, htimeout, hgas, rfl, hrx, ?_⟩
  · show 0 < if e.scooter.chunkSize = 0 then defaultChunkSize else e.scooter.chunkSize
    split
    · decide
    · omega
  · have hsame : (w.joined e.scooter.chunkSize).written = w.written := by
      simp [World.written, World.joined]
    exact hwritten.trans hsame.symm

theorem Meeting.setBleData (h : Meeting l e w) (init : Bytes) : Meeting l e (w.setBleData init) :=
  { h with }

theorem Meeting.setAppData (h : Meeting l e w) : Meeting l e w.setAppData := { h with }

theorem Meeting.log (h : Meeting l e w) {o : Obs} (ho : ∀ l c, o ≠ .wrote l c) :
    Meeting l e (w.log o) := by
  have hwritten : (w.since w.now (o :: w.trace)).written = w.written :=
    World.written_since ho
  exact { h with written := h.written.trans hwritten.symm }

/-! ## The handshake -/

theorem pairRequest_fits {challenge : Bytes} (h : challenge.length ≤ maxDataLength) :
    (pairRequest challenge).Fits := ⟨Int.le_refl 0, Int.zero_le_ofNat 255, h⟩

theorem pingRequest_fits {key : Bytes} (h : key.length ≤ maxDataLength) :
    (pingRequest key).Fits := ⟨Int.le_refl 0, Int.zero_le_ofNat 255, h⟩

theorem reply_pair {S : FakeScooter} (hbutton : S.requireButtonPress = false) (challenge : Bytes) :
    S.reply (pairRequest challenge) = some pairReply := by
  simp [FakeScooter.reply, pairRequest, hbutton]

/-- Nobody has to press anything: the first PAIR is accepted. -/
theorem awaitPairing_meets (h : Meeting l e w) (hbutton : e.scooter.requireButtonPress = false)
    (hpairing : 0 < w.self.pairingTimeout)
    (hchallenge : w.self.serialChallenge.length ≤ maxDataLength) :
    ∃ e' trace, Meets (air l) awaitPairing e w (.ret ()) e' (w.since w.now trace) ∧
      e'.scooter = e.scooter.handled (pairRequest w.self.serialChallenge) ∧
      Meeting l e' (w.since w.now trace) := by
  let line : Obs := .log .info (w.self.name ++ ": " ++ "press the scooter's power button to pair")
  have hsaid : Meets (air l) (M.info "press the scooter's power button to pair") e w (.ret ()) e
      (w.log line) := Meets.of_eq fun _ => rfl
  have hlog : Meeting l e (w.log line) := h.log (by simp [line])
  -- The loop is entered once: the first PAIR is accepted.
  obtain ⟨gas, hgas⟩ := Nat.exists_eq_succ_of_ne_zero (Nat.ne_zero_of_lt h.gas)
  obtain ⟨quiet, written, trace, responses, hsend, _, hresponses, hwritten⟩ :=
    send_meets hlog (pairRequest_fits hchallenge)
  rw [reply_pair hbutton] at hresponses
  obtain ⟨a, rfl, hpacket⟩ : ∃ a, responses = [a] ∧ a.packet = pairReply :=
    List.map_eq_singleton_iff.mp hresponses
  have haccepts : acceptsPairing a.packet = true := by
    rw [hpacket]
    decide
  have htaken := World.queued_setResponses (w := w.log line) h.queue [a] trace
  -- The answer is in the queue when the client comes to wait for it.
  have hreceive : Meets (air l) (Coro.attempt (·.isInstance [.ninebotTimeoutError])
      (receive pairingRetryInterval)) ⟨e.scooter.handled (pairRequest w.self.serialChallenge),
        written, quiet⟩ ((w.log line).queued [a] trace) (.ret (.ok a))
      ⟨e.scooter.handled (pairRequest w.self.serialChallenge), written, quiet⟩
      (w.since w.now (.taken w.now w.self.client a.packet a.receivedAt :: trace)) := by
    apply Meets.attempt
    apply Meets.of_eq
    intro rest
    have hrun := receive_queued (w := ((w.log line).queued [a] trace).setScript rest) rfl
      pairingRetryInterval
    have hsame : (((w.log line).queued [a] trace).setScript rest).setResponses [] =
        ((w.log line).since w.now trace).setScript rest := congrArg (·.setScript rest) htaken
    rw [hsame] at hrun
    exact hrun
  have hturn : Meets (air l) (awaitPairingLoop (w.now + w.self.pairingTimeout) (gas + 1)) e
      (w.log line) (.ret ()) ⟨e.scooter.handled (pairRequest w.self.serialChallenge), written,
        quiet⟩ (w.since w.now (.taken w.now w.self.client a.packet a.receivedAt :: trace)) := by
    have hopen : w.now < w.now + w.self.pairingTimeout := by omega
    have hnow : (w.log line).now = w.now := rfl
    rw [awaitPairingLoop]
    apply Meets.get_bind (fun _ => rfl)
    simp only [hnow, hopen, if_true]
    apply Meets.bind hsend
    apply Meets.bind hreceive
    simp only [haccepts, if_true]
    exact Meets.pure
  rw [← Nat.succ_eq_add_one, ← hgas] at hturn
  refine ⟨_, _, Meets.bind hsaid (Meets.get_bind (fun _ => rfl) hturn), rfl, ?_⟩
  · apply h.since
    · rw [handled_subscribed]
      exact h.peer
    · rw [handled_rxBuffer]
      exact h.rxBuffer
    · rw [World.written_since (by simp)]
      exact hwritten

/-- What the client was made with, and the budget of its loops. -/
structure World.SameClient (w w' : World StubCrypto) : Prop where
  address : w'.self.address = w.self.address
  name : w'.self.name = w.self.name
  appKey : w'.self.appKey = w.self.appKey
  requestTimeout : w'.self.requestTimeout = w.self.requestTimeout
  pairingTimeout : w'.self.pairingTimeout = w.self.pairingTimeout
  gas : w'.gas = w.gas

theorem World.SameClient.trans {w w' w'' : World StubCrypto} (h : w.SameClient w')
    (h' : w'.SameClient w'') : w.SameClient w'' :=
  ⟨h'.address.trans h.address, h'.name.trans h.name, h'.appKey.trans h.appKey,
    h'.requestTimeout.trans h.requestTimeout, h'.pairingTimeout.trans h.pairingTimeout,
    h'.gas.trans h.gas⟩

/-- What a handshake under this key leaves on the scooter. -/
structure FakeScooter.Joined (key : Bytes) (S S' : FakeScooter) : Prop where
  memory : S.SameMemory S'
  button : S'.requireButtonPress = S.requireButtonPress
  chunkSize : S'.chunkSize = S.chunkSize
  /-- A scooter that knows the key is not asked to pair again. -/
  requests : ∃ reads, (∀ p ∈ reads, p.command = .read) ∧ S'.requests = S.requests ++
    [initRequest, pingRequest key] ++
    (if S.pairedAppKey = some key then [] else [pairRequest serialChallenge]) ++
    [pairRequest serialChallenge] ++ reads
  pairAttempts : S'.pairAttempts =
    S.pairAttempts + if S.pairedAppKey = some key then 1 else 2
  pairedAppKey : S'.pairedAppKey = some (S.pairedAppKey.getD [])

/-- `_verify_session` on a scooter whose serial number can be read. -/
theorem verifySession_meets (h : Meeting l e w) {serial : Bytes}
    (hserial : e.scooter.outcome serialNumber = .ok serial) :
    ∃ e' now trace, Meets (air l) verifySession e w (.ret ()) e' (w.since now trace) ∧
      e.scooter.OnlyRead e'.scooter ∧ Meeting l e' (w.since now trace) := by
  obtain ⟨e', now, trace, hmeets, hread, hmeeting⟩ :=
    readRegister_meets (registers_areUsable serialNumber List.mem_cons_self) h
  rw [hserial] at hmeets
  exact ⟨e', now, trace, Meets.bind (Meets.attempt hmeets) Meets.pure, hread.only, hmeeting⟩

/-- A request that the scooter answers. -/
theorem answered_meets (h : Meeting l e w) (p answer : Packet) (hp : p.Fits)
    (hreply : e.scooter.reply p = some answer) (hmatch : answer.matchesRequest p = true) :
    ∃ e' now trace, Meets (air l) (request p) e w (.ret answer) e' (w.since now trace) ∧
      e'.scooter = e.scooter.handled p ∧ Meeting l e' (w.since now trace) := by
  have hhear : e.scooter.hear p = .ok answer := by
    unfold FakeScooter.hear
    rw [hreply]
  obtain ⟨e', now, trace, hmeets, hscooter, hmeeting⟩ := request_meets h hp (by
    rintro _ h
    rw [hreply] at h
    cases h
    exact hmatch)
  rw [hhear] at hmeets
  exact ⟨e', now, trace, hmeets, hscooter, hmeeting⟩

/-- The scooter after a PAIR that it accepts. -/
theorem handled_pair {S : FakeScooter} (hbutton : S.requireButtonPress = false)
    (challenge : Bytes) :
    (S.handled (pairRequest challenge)).pairedAppKey = some (S.pairedAppKey.getD []) ∧
      (S.handled (pairRequest challenge)).pairAttempts = S.pairAttempts + 1 ∧
      (S.handled (pairRequest challenge)).requireButtonPress = false := by
  have hnoted : S.noted (pairRequest challenge) =
      (S.setRequest (pairRequest challenge)).attempted.accepted := by
    simp [noted, pairRequest, hbutton]
  unfold handled
  rw [hnoted]
  exact ⟨rfl, rfl, hbutton⟩

/-- From the session key on. -/
theorem closing_meets (h : Meeting l e w) (hbutton : e.scooter.requireButtonPress = false)
    (hchallenge : w.self.serialChallenge.length ≤ maxDataLength) {serial : Bytes}
    (hserial : e.scooter.outcome serialNumber = .ok serial) :
    ∃ e' w', Meets (air l) (do
        Coro.modify World.setAppData
        let _ ← request (pairRequest (← Coro.get).self.serialChallenge)
        verifySession
        M.log (.handshaken (← Coro.get).self.client)) e w (.ret ()) e' w' ∧
      (e.scooter.handled (pairRequest w.self.serialChallenge)).OnlyRead e'.scooter ∧
      Meeting l e' w' ∧ w.SameClient w' := by
  obtain ⟨e₁, now₁, trace₁, hpair, hscooter₁, h₁⟩ := answered_meets h.setAppData _ _
    (pairRequest_fits hchallenge) (reply_pair hbutton _) (by simp [Packet.matchesRequest, pairReply,
      pairRequest, Command.response, Command.toByte])
  have hserial₁ : e₁.scooter.outcome serialNumber = .ok serial := by
    rw [hscooter₁, sameMemory_handled.outcome, hserial]
  obtain ⟨e₂, now₂, trace₂, hverify, hread₂, h₂⟩ := verifySession_meets h₁ hserial₁
  refine ⟨e₂, _, ?_, ?_, h₂.log (o := .handshaken w.self.client) (by simp), ?_⟩
  · apply Meets.modify_bind (fun _ => rfl)
    apply Meets.get_bind (fun _ => rfl)
    apply Meets.bind hpair
    apply Meets.bind hverify
    apply Meets.get_bind (fun _ => rfl)
    exact Meets.modify fun _ => rfl
  · rw [← hscooter₁]
    exact hread₂
  · exact ⟨rfl, rfl, rfl, rfl, rfl, rfl⟩

/-- What is left of a handshake by the requests that it is made of. -/
theorem FakeScooter.OnlyRead.joined {S S₃ S' : FakeScooter} {key : Bytes} (S₂ : FakeScooter)
    (hS₂ : S₂ = (S.handled initRequest).handled (pingRequest key))
    (hS₃ : S₃ = if S.pairedAppKey = some key then S₂
      else S₂.handled (pairRequest serialChallenge))
    (hbutton : S.requireButtonPress = false)
    (hread : (S₃.handled (pairRequest serialChallenge)).OnlyRead S') : S.Joined key S' := by
  have hmemory₂ : S.SameMemory S₂ := hS₂ ▸ sameMemory_handled.trans sameMemory_handled
  have hbutton₂ : S₂.requireButtonPress = false := hS₂ ▸ hbutton
  have hrequests₂ : S₂.requests = S.requests ++ [initRequest, pingRequest key] := by
    rw [hS₂, handled_requests, handled_requests, List.append_assoc]
    rfl
  have hpaired₂ : S₂.pairedAppKey = S.pairedAppKey := hS₂ ▸ rfl
  have hattempts₂ : S₂.pairAttempts = S.pairAttempts := hS₂ ▸ rfl
  have hchunk₂ : S₂.chunkSize = S.chunkSize := by
    rw [hS₂, handled_chunkSize, handled_chunkSize]
  obtain ⟨hkey₂, hattempt₂, hwaits₂⟩ := handled_pair hbutton₂ serialChallenge
  obtain ⟨reads, hreads, notes, rfl⟩ := hread
  -- A key that the scooter knows needs no PAIR but the closing one.
  by_cases hpaired : S.pairedAppKey = some key
  · rw [if_pos hpaired] at hS₃
    subst hS₃
    refine ⟨?_, hwaits₂.trans hbutton.symm, handled_chunkSize.trans hchunk₂,
      ⟨reads, hreads, ?_⟩, ?_, ?_⟩
    · exact hmemory₂.trans ⟨sameMemory_handled.registers, sameMemory_handled.unreadable,
        sameMemory_handled.supportsBulkReads⟩
    · show _ ++ reads = _
      rw [handled_requests, hrequests₂, if_pos hpaired, List.append_nil]
    · rw [if_pos hpaired, ← hattempts₂]
      exact hattempt₂
    · rw [← hpaired₂]
      exact hkey₂
  · rw [if_neg hpaired] at hS₃
    -- A new key is paired by the first PAIR, and the closing one follows.
    obtain ⟨hkey₃, hattempt₃, hwaits₃⟩ := handled_pair hwaits₂ serialChallenge
    subst hS₃
    refine ⟨?_, hwaits₃.trans hbutton.symm, ?_, ⟨reads, hreads, ?_⟩, ?_, ?_⟩
    · exact hmemory₂.trans ⟨(sameMemory_handled.trans sameMemory_handled).registers,
        (sameMemory_handled.trans sameMemory_handled).unreadable,
        (sameMemory_handled.trans sameMemory_handled).supportsBulkReads⟩
    · show FakeScooter.chunkSize ((S₂.handled _).handled _) = _
      rw [handled_chunkSize, handled_chunkSize, hchunk₂]
    · show _ ++ reads = _
      rw [handled_requests, handled_requests, hrequests₂, if_neg hpaired]
    · rw [if_neg hpaired, ← hattempts₂]
      show FakeScooter.pairAttempts ((S₂.handled _).handled _) = _
      rw [hattempt₃, hattempt₂]
    · show FakeScooter.pairedAppKey ((S₂.handled _).handled _) = _
      rw [hkey₃, hkey₂, ← hpaired₂]
      rfl

/-- What is left of the handshake after the answer to PING. -/
def pingedRest (known : Prop) [Decidable known] : M StubCrypto Unit :=
  if ¬ known then do
    awaitPairing
    Coro.modify World.setAppData
    let _ ← request (pairRequest (← Coro.get).self.serialChallenge)
    verifySession
    M.log (.handshaken (← Coro.get).self.client)
  else do
    Coro.modify World.setAppData
    let _ ← request (pairRequest (← Coro.get).self.serialChallenge)
    verifySession
    M.log (.handshaken (← Coro.get).self.client)

/-- The handshake up to the answer to PING, whatever comes after it. -/
theorem handshake_pinged (h : Meeting l e w) (hkey : w.self.appKey.length ≤ maxDataLength) :
    ∃ e' w', e'.scooter = (e.scooter.handled initRequest).handled (pingRequest w.self.appKey) ∧
      Meeting l e' w' ∧ w.SameClient w' ∧ w'.self.serialChallenge = serialChallenge ∧
      w'.self.appKeyWasSupplied = w.self.appKeyWasSupplied ∧
      ∀ res e'' w'',
        Meets (air l) (pingedRest (e.scooter.pairedAppKey = some w.self.appKey)) e' w' res e'' w'' →
        Meets (air l) handshake e w res e'' w'' := by
  obtain ⟨e₁, now₁, trace₁, hinit, hscooter₁, h₁⟩ := answered_meets h
    initRequest initReply ⟨by decide, by decide, by decide⟩ rfl (by decide)
  -- From here on the cipher has the key of this link's INIT reply.
  have h₁' := h₁.setBleData initReply.data
  obtain ⟨e₂, now₂, trace₂, hping, hscooter₂, h₂⟩ := answered_meets h₁'
    (pingRequest w.self.appKey)
    (pingReply (decide (e₁.scooter.pairedAppKey = some w.self.appKey)))
    (pingRequest_fits hkey) rfl (by
      unfold pingReply
      split <;> simp [Packet.matchesRequest, pingRequest, Command.response, Command.toByte])
  have hknown : (pingReply (decide (e₁.scooter.pairedAppKey = some w.self.appKey))).index = 0 ↔
      ¬ e.scooter.pairedAppKey = some w.self.appKey := by
    rw [hscooter₁]
    show (if decide (e.scooter.pairedAppKey = some w.self.appKey) then (1 : Int) else 0) = 0 ↔ _
    by_cases hpaired : e.scooter.pairedAppKey = some w.self.appKey <;> simp [hpaired]
  have hlong : ¬ initReply.data.length < appKeyLength := by decide
  refine ⟨e₂, _, hscooter₁ ▸ hscooter₂, h₂, ⟨rfl, rfl, rfl, rfl, rfl, rfl⟩, rfl, rfl, ?_⟩
  intro res e'' w'' hrest
  apply Meets.bind hinit
  rw [if_neg hlong]
  apply Meets.modify_bind (fun _ => rfl)
  apply Meets.get_bind (fun _ => rfl)
  apply Meets.bind hping
  simp only [hknown]
  exact hrest

/-- The handshake with a scooter that waits for no button. -/
theorem handshake_meets (h : Meeting l e w) (hbutton : e.scooter.requireButtonPress = false)
    (hpairing : 0 < w.self.pairingTimeout) (hkey : w.self.appKey.length ≤ maxDataLength)
    {serial : Bytes} (hserial : e.scooter.outcome serialNumber = .ok serial) :
    ∃ e' w', Meets (air l) handshake e w (.ret ()) e' w' ∧
      e.scooter.Joined w.self.appKey e'.scooter ∧ Meeting l e' w' ∧ w.SameClient w' := by
  obtain ⟨e₂, w₂, hscooter₂, h₂, hsame₂, hchallenge₂, _, hstart⟩ := handshake_pinged h hkey
  have hbutton₂ : e₂.scooter.requireButtonPress = false := by
    rw [hscooter₂]
    exact hbutton
  have hmemory₂ : e.scooter.SameMemory e₂.scooter := by
    rw [hscooter₂]
    exact sameMemory_handled.trans sameMemory_handled
  have hfits : w₂.self.serialChallenge.length ≤ maxDataLength := by
    rw [hchallenge₂]
    decide
  by_cases hpaired : e.scooter.pairedAppKey = some w.self.appKey
  · -- The key is known: straight to the session key.
    obtain ⟨e', w', hclose, hread, hmeeting, hsame⟩ := closing_meets h₂ hbutton₂ hfits
      (hmemory₂.outcome.trans hserial)
    refine ⟨e', w', hstart _ e' w' ?_, ?_, hmeeting, hsame₂.trans hsame⟩
    · rw [pingedRest, if_neg (not_not_intro hpaired)]
      exact hclose
    · apply OnlyRead.joined e₂.scooter hscooter₂ rfl hbutton
      rw [if_pos hpaired, ← hchallenge₂]
      exact hread
  · obtain ⟨e₃, trace₃, hwait, hscooter₃, h₃⟩ := awaitPairing_meets h₂ hbutton₂
      (hsame₂.pairingTimeout ▸ hpairing) hfits
    have hbutton₃ : e₃.scooter.requireButtonPress = false := by
      rw [hscooter₃]
      exact (handled_pair hbutton₂ _).2.2
    have hmemory₃ : e.scooter.SameMemory e₃.scooter := by
      rw [hscooter₃]
      exact hmemory₂.trans sameMemory_handled
    obtain ⟨e', w', hclose, hread, hmeeting, hsame⟩ := closing_meets h₃ hbutton₃ hfits
      (hmemory₃.outcome.trans hserial)
    refine ⟨e', w', hstart _ e' w' ?_, ?_, hmeeting, ?_⟩
    · rw [pingedRest, if_pos hpaired]
      exact Meets.bind hwait hclose
    · apply OnlyRead.joined e₂.scooter hscooter₂ rfl hbutton
      rw [hscooter₃] at hread
      rw [if_neg hpaired, ← hchallenge₂]
      exact hread
    · exact hsame₂.trans ⟨hsame.address, hsame.name, hsame.appKey, hsame.requestTimeout,
        hsame.pairingTimeout, hsame.gas⟩

/-- A client and a scooter that may meet: nothing is under way, and no button
    has to be pressed. -/
structure Willing (e : Air) (w : World StubCrypto) : Prop where
  requestTimeout : 0 < w.self.requestTimeout
  pairingTimeout : 0 < w.self.pairingTimeout
  gas : 0 < w.gas
  appKey : w.self.appKey.length ≤ maxDataLength
  button : e.scooter.requireButtonPress = false
  rxBuffer : e.scooter.rxBuffer = []
  written : e.written = w.written

/-- A scooter that waits for no button is connected to.  It is asked to pair
    before the closing PAIR if and only if it does not know the key. -/
theorem connect_meets (h : Willing e w) {serial : Bytes}
    (hserial : e.scooter.outcome serialNumber = .ok serial) :
    ∃ e' w', Meets (air w.opened) connect e w (.ret ()) e' w' ∧
      e.scooter.Joined w.self.appKey e'.scooter ∧ Meeting w.opened e' w' ∧ w.SameClient w' := by
  obtain ⟨e', w', hmeets, hjoined, hmeeting, hsame⟩ := handshake_meets
    (Meeting.joined h.requestTimeout h.gas h.rxBuffer h.written) h.button h.pairingTimeout h.appKey
    hserial
  have hmemory : e.scooter.SameMemory e'.scooter := ⟨hjoined.memory.registers,
    hjoined.memory.unreadable, hjoined.memory.supportsBulkReads⟩
  refine ⟨e', w', ?_, ?_, hmeeting, ?_⟩
  · apply Meets.bind connectTransport_meets
    exact Meets.bind (Meets.attempt hmeets) Meets.pure
  · exact ⟨hmemory, hjoined.button, hjoined.chunkSize, hjoined.requests, hjoined.pairAttempts,
      hjoined.pairedAppKey⟩
  · exact ⟨hsame.address, hsame.name, hsame.appKey, hsame.requestTimeout, hsame.pairingTimeout,
      hsame.gas⟩

end Ninebot
