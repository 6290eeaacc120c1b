import Ninebot.Diagnostics
import Ninebot.Entities

/-! # Device attributes

    An entity copies `coordinator.info` when it is constructed, and setup
    constructs every entity before the first poll.  What the polls read later
    goes into `coordinator.info` alone: the device keeps the copy.

    This file defines:
    - `DeviceInfo.Carries`: a device that shows what an info has
    - `PollEnd.readsStatic`: the polls that replace `coordinator.info` -/

namespace Ninebot

variable {κ : Type} [Cipher κ]

/-! ## What is published -/

theorem setupEntry_coordinator {home home' : Home κ} {deviceName : Option String}
    (h : setupEntry home deviceName = .ok home') :
    home'.coordinator = Coordinator.make home.entry.address home.entry.title := by
  obtain ⟨_, _, rfl⟩ := setupEntry_eq h
  rfl

/-- A poll that replaces `coordinator.info`. -/
def PollEnd.readsStatic : PollEnd → Bool
  | .failed _ => false
  | .succeeded includeStatic _ => includeStatic

section Info

variable {home₀ home home' : Home κ} {endings : List PollEnd} {outcomes : List Outcome}

/-- Between two such polls the info stays. -/
theorem History.info (h : History home₀ endings home)
    (hdynamic : ∀ ending ∈ endings, ending.readsStatic = false) :
    home.coordinator.info = home₀.coordinator.info := by
  induction h with
  | start => rfl
  | between _ hb ih =>
    obtain ⟨_, heq⟩ := hb.coordinator
    rw [heq]
    exact ih hdynamic
  | poll _ _ hended ih =>
    have hbefore := ih fun ending hmem => hdynamic ending (List.mem_cons_of_mem _ hmem)
    have hthis := hdynamic _ List.mem_cons_self
    cases hended with
    | failed e _ heq _ =>
      rw [heq]
      exact hbefore
    | succeeded includeStatic outcomes _ _ _ _ _ heq _ =>
      obtain rfl : includeStatic = false := hthis
      rw [heq]
      exact hbefore

/-- A register whose payloads all decode has a value once it was read. -/
theorem findSome?_eq_none_iff {key : String} {read : List Bytes}
    (hdecodes : ∀ payload, (decodeKey key payload).isSome = true) :
    read.findSome? (decodeKey key) = none ↔ read = [] := by
  rw [List.findSome?_eq_none_iff]
  constructor
  · intro h
    apply List.eq_nil_iff_forall_not_mem.mpr
    intro payload hmem
    have hsome := hdecodes payload
    rw [h payload hmem] at hsome
    cases hsome
  · rintro rfl _ hmem
    cases hmem

end Info

/-! ## A scooter that answers everything -/

def addedHome : Home StubCrypto where
  world := World.ofScript (fakeClient none) answered
  entry := ⟨"Scooter", "C0:FF:EE:00:00:01", some "E2 Pro 0216", some (hexLower bleKey)⟩
  coordinator := Coordinator.make "C0:FF:EE:00:00:01" "Scooter"

def setUpHome : Home StubCrypto :=
  match setupEntry addedHome none with
  | .ok home => home
  | .error _ => addedHome

def answeredHome : Home StubCrypto := (coordinatorPoll setUpHome).2

theorem answered_ended : ∃ outcomes,
    coordinatorPoll setUpHome = (.ret (), answeredHome) ∧
    Ended setUpHome (.succeeded true outcomes) answeredHome := by
  have hrun : (coordinatorPoll setUpHome).1 = .ret () ∧ (asyncUpdate setUpHome).1 = .ret () := by
    decide +kernel
  obtain ⟨hret, hupdate⟩ := hrun
  have hpoll : coordinatorPoll setUpHome = (.ret (), answeredHome) := completed hret
  obtain ⟨ending, hended⟩ := coordinatorPoll_ended hpoll
  cases hended with
  | failed e hraised _ _ =>
    rw [hupdate] at hraised
    cases hraised
  | succeeded includeStatic outcomes w w' hret' hsupplies hlen heq hfirst =>
    cases includeStatic with
    | false => exact absurd rfl (hfirst rfl)
    | true => exact ⟨outcomes, hpoll, .succeeded true outcomes w w' hret' hsupplies hlen heq hfirst⟩

theorem answered_setUp : setupEntry addedHome none = .ok setUpHome := by
  unfold setUpHome
  rfl

end Ninebot
