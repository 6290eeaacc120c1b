import Ninebot.Histories

/-! # The flags of the coordinator

    A poll that fails leaves the state and the info of the coordinator alone
    and the client without a link.  `last_poll_successful` tells how the last
    poll ended; `pairing_required` stays up from the first poll that asked for
    the power button to the next one that succeeds. -/

namespace Ninebot

open Coro

variable {κ : Type} [Cipher κ]

/-- The exceptions with which polls have failed since the last one that succeeded. -/
def failuresSinceSuccess : List PollEnd → List Exc
  | .failed e :: older => e :: failuresSinceSuccess older
  | _ => []

/-- Some poll since the last successful one asked for the power button. -/
def PairingAsked (endings : List PollEnd) : Prop :=
  ∃ e ∈ failuresSinceSuccess endings, e.isInstance [.ninebotPairingRequiredError] = true

/-! ## One poll -/

section Step

variable {home home' : Home κ} {ending : PollEnd}

/-- A poll that fails leaves what was read before. -/
theorem Ended.keeps (h : Ended home ending home') {e : Exc}
    (he : (asyncUpdate home).1 = .raised e) :
    home'.coordinator.state = home.coordinator.state ∧
      home'.coordinator.info = home.coordinator.info ∧ home'.world.isConnected = false := by
  cases h with
  | failed _ _ heq hclient =>
    rw [heq]
    refine ⟨rfl, rfl, ?_⟩
    unfold World.isConnected
    rw [hclient]
  | succeeded _ _ _ _ hret =>
    rw [hret] at he
    cases he

theorem Ended.lastPollSuccessful_iff (h : Ended home ending home') :
    home'.coordinator.lastPollSuccessful = true ↔ (asyncUpdate home).1 = .ret () := by
  cases h with
  | failed _ hraised heq _ =>
    rw [heq, hraised]
    show false = true ↔ _
    simp
  | succeeded _ _ _ _ hret _ _ heq _ =>
    rw [heq, hret]
    show true = true ↔ _
    simp

/-- The sticky flag after one more poll. -/
theorem Ended.pairingRequired_iff {endings : List PollEnd} (h : Ended home ending home')
    (hbefore : home.coordinator.pairingRequired = true ↔ PairingAsked endings) :
    home'.coordinator.pairingRequired = true ↔ PairingAsked (ending :: endings) := by
  cases h with
  | failed e _ heq _ =>
    rw [heq]
    show (home.coordinator.pairingRequired ||
      e.isInstance [.ninebotPairingRequiredError]) = true ↔ _
    rw [Bool.or_eq_true, hbefore]
    show _ ↔ ∃ e' ∈ e :: failuresSinceSuccess endings, _
    simp only [List.mem_cons, exists_eq_or_imp]
    exact Or.comm
  | succeeded _ _ _ _ _ _ _ heq _ =>
    rw [heq]
    show false = true ↔ _
    simp [PairingAsked, failuresSinceSuccess]

end Step

/-! ## Every run -/

/-- Run lemma: the flag is up exactly while the button is asked for. -/
theorem History.pairingRequired_iff {home₀ home : Home κ} {endings : List PollEnd}
    (hstart : home₀.coordinator.pairingRequired = false) (h : History home₀ endings home) :
    home.coordinator.pairingRequired = true ↔ PairingAsked endings := by
  induction h with
  | start => simp [hstart, PairingAsked, failuresSinceSuccess]
  | between _ hb ih =>
    obtain ⟨_, heq⟩ := hb.coordinator
    rw [heq]
    exact ih
  | poll _ _ hended ih => exact hended.pairingRequired_iff ih

/-- At any moment between polls the sticky flag is right, and the next poll, if
    it completes, sets the other one and keeps everything else when it fails. -/
theorem polls_keep_flags {home₀ home : Home κ} {endings : List PollEnd}
    (hstart : home₀.coordinator.pairingRequired = false) (h : History home₀ endings home) :
    (home.coordinator.pairingRequired = true ↔ PairingAsked endings) ∧
    ∀ home', coordinatorPoll home = (.ret (), home') →
      (∀ e, (asyncUpdate home).1 = .raised e →
        home'.coordinator.state = home.coordinator.state ∧
        home'.coordinator.info = home.coordinator.info ∧ home'.world.isConnected = false) ∧
      (home'.coordinator.lastPollSuccessful = true ↔ (asyncUpdate home).1 = .ret ()) ∧
      ∃ ending, History home₀ (ending :: endings) home' ∧
        (∀ e, ending = .failed e ↔ (asyncUpdate home).1 = .raised e) := by
  refine ⟨h.pairingRequired_iff hstart, ?_⟩
  intro home' hpoll
  obtain ⟨ending, hended⟩ := coordinatorPoll_ended hpoll
  refine ⟨fun e he => hended.keeps he, hended.lastPollSuccessful_iff, ending,
    h.poll hpoll hended, ?_⟩
  intro e
  cases hended with
  | failed e' hraised _ _ =>
    rw [hraised]
    simp
  | succeeded _ _ _ _ hret =>
    rw [hret]
    simp

/-- Nobody presses the button; the link is closed after the poll. -/
def unpressed : List Step :=
  [.answer (.linked (.found 20)), .answer .ok,
    .answer .ok, respond 0 initReply, .answer .ok,
    .answer .ok, .answer .ok, respond 0 (pingReply false), .answer .ok,
    .answer .ok, .answer .ok, .event (.tick 30000), .answer (.fail timerFault),
    .answer .ok, .answer .ok]

def unpressedHome : Home StubCrypto where
  world := World.ofScript (fakeClient none) unpressed
  entry := ⟨"Scooter", "C0:FF:EE:00:00:01", none, none⟩
  coordinator := Coordinator.make "C0:FF:EE:00:00:01" "Scooter"

theorem unpressed_flags :
    (coordinatorPoll unpressedHome).2.coordinator.pairingRequired = true ↔
      PairingAsked [.failed pairingRequired] := by
  have hret : (coordinatorPoll unpressedHome).1 = .ret () := by decide +kernel
  have hpoll := completed hret
  have hended : Ended unpressedHome (.failed pairingRequired) (coordinatorPoll unpressedHome).2 :=
    .failed _ (by decide +kernel) (by decide +kernel) (by decide +kernel)
  exact (polls_keep_flags rfl (History.start.poll hpoll hended)).1

end Ninebot
