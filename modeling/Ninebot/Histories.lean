import Ninebot.Outcomes
import Ninebot.Runs

/-! # Histories of polls

    What a completed poll has done to its coordinator, said once: it has failed
    and touched nothing but two flags, or it has merged one snapshot.  A
    history lists how the polls of a run have ended, newest first.

    This file defines:
    - `Ended`: the two ways in which a poll completes
    - `History`: the states between completed polls, with how these ended -/

namespace Ninebot

open Coro

variable {κ : Type} [Cipher κ]

/-! ## One completed poll -/

/-- How a completed poll ended. -/
inductive PollEnd where
  | failed (e : Exc)
  | succeeded (includeStatic : Bool) (outcomes : List Outcome)

/-- The snapshot that a poll returned. -/
def PollEnd.snapshot? : PollEnd → Option ScooterState
  | .failed _ => none
  | .succeeded includeStatic outcomes => some (snapshot (pollRegisters includeStatic) outcomes)

/-- `self._hardware_id or DEFAULT_HARDWARE_ID` -/
def Coordinator.hardwareIdOrDefault (self : Coordinator) : Nat :=
  match self.hardwareId with
  | none => defaultHardwareId
  | some id => if id = 0 then defaultHardwareId else id

/-- The coordinator after a poll that merged a snapshot. -/
def Coordinator.merged (self : Coordinator) (client : Client κ) (includeStatic : Bool)
    (read : ScooterState) : Coordinator :=
  let state := self.state.update read
  { self with
    state := state
    info := if includeStatic then client.buildInfo state self.hardwareIdOrDefault else self.info
    pairingRequired := false
    lastPollSuccessful := true }

/-- The coordinator after a poll that failed. -/
def Coordinator.failed (self : Coordinator) (e : Exc) : Coordinator :=
  { self with
    pairingRequired := self.pairingRequired || e.isInstance [.ninebotPairingRequiredError]
    lastPollSuccessful := false }

/-- What a completed poll has done. -/
inductive Ended (home : Home κ) : PollEnd → Home κ → Prop where
  | failed {home' : Home κ} (e : Exc) : (asyncUpdate home).1 = .raised e →
      home'.coordinator = home.coordinator.failed e → home'.world.self.client = none →
      Ended home (.failed e) home'
  | succeeded {home' : Home κ} (includeStatic : Bool) (outcomes : List Outcome)
      (w w' : World κ) : (asyncUpdate home).1 = .ret () →
      Supplies (pollRegisters includeStatic) w outcomes w' →
      outcomes.length = (pollRegisters includeStatic).length →
      home'.coordinator = home.coordinator.merged home'.world.self includeStatic
        (snapshot (pollRegisters includeStatic) outcomes) →
      (includeStatic = false → home.coordinator.state.values ≠ ∅) →
      Ended home (.succeeded includeStatic outcomes) home'

omit [Cipher κ] in
/-- A method of the client touches neither the entry nor the coordinator. -/
theorem client_run {α : Type} (m : M κ α) (home : Home κ) :
    Triple (H.client m) home
      (fun a home' => m home.world = (.ret a, home'.world) ∧
        home'.coordinator = home.coordinator ∧ home'.entry = home.entry)
      (fun e home' => m home.world = (.raised e, home'.world) ∧
        home'.coordinator = home.coordinator ∧ home'.entry = home.entry)
      (fun home' => home'.coordinator = home.coordinator ∧ home'.entry = home.entry) := by
  apply Triple.zoom
  unfold Triple
  rcases m home.world with ⟨_ | _ | _, w'⟩
  · exact ⟨rfl, rfl, rfl⟩
  · exact ⟨rfl, rfl, rfl⟩
  · exact ⟨rfl, rfl⟩

theorem ensureConnected_coordinator (home : Home κ) :
    Triple ensureConnected home
      (fun firstPoll home' => home'.coordinator = home.coordinator ∧
        (firstPoll = false → home.coordinator.state.values ≠ ∅))
      (fun _ home' => home'.coordinator = home.coordinator) (fun _ => True) := by
  apply Triple.get_bind
  by_cases hup : home.world.isConnected
  · simp only [hup, if_true]
    apply Triple.pure
    exact ⟨rfl, fun hfirst => of_decide_eq_false hfirst⟩
  · simp only [hup]
    have hconnect := (client_run connect home).mono (fun _ _ h => h.2.1) (fun _ _ h => h.2.1)
      (fun _ _ => trivial)
    apply Triple.bind hconnect
    intro _ home₁ h₁
    apply Triple.bind (Q := fun _ home' => home'.coordinator = home.coordinator)
    · unfold Triple
      rw [persistAppKey_eq]
      exact h₁
    · intro _ home₂ h₂
      exact Triple.pure ⟨h₂, fun hfirst => by cases hfirst⟩

/-- What `_async_update` has read and merged when it returns. -/
structure Merged (home home' : Home κ) (includeStatic : Bool) (outcomes : List Outcome) : Prop where
  supplies : ∃ w w' : World κ, Supplies (pollRegisters includeStatic) w outcomes w'
  length : outcomes.length = (pollRegisters includeStatic).length
  coordinator : home'.coordinator =
    { home.coordinator.merged home'.world.self includeStatic
        (snapshot (pollRegisters includeStatic) outcomes) with
      lastPollSuccessful := home.coordinator.lastPollSuccessful }
  first : includeStatic = false → home.coordinator.state.values ≠ ∅

/-- Nothing of the coordinator changes before the snapshot is complete. -/
theorem asyncUpdate_coordinator (home : Home κ) :
    Triple asyncUpdate home
      (fun _ home' => ∃ includeStatic outcomes, Merged home home' includeStatic outcomes)
      (fun _ home' => home'.coordinator = home.coordinator) (fun _ => True) := by
  apply Triple.bind (ensureConnected_coordinator home)
  intro firstPoll home₁ h₁
  obtain ⟨hsame₁, hfirst⟩ := h₁
  have hpoll := (client_run (asyncPoll firstPoll) home₁).mono (fun _ _ h => h)
    (fun _ _ h => h.2.1.trans hsame₁) (fun _ _ => trivial)
  apply Triple.bind hpoll
  intro state home₂ h₂
  obtain ⟨hrun, hsame₂, _⟩ := h₂
  have hsame : home₂.coordinator = home.coordinator := hsame₂.trans hsame₁
  obtain ⟨outcomes, hsupplies, hlen, rfl⟩ : ∃ outcomes,
      Supplies (pollRegisters firstPoll) home₁.world outcomes home₂.world ∧
      outcomes.length = (pollRegisters firstPoll).length ∧
      state = snapshot (pollRegisters firstPoll) outcomes :=
    (asyncPoll_supplies firstPoll home₁.world).ret_of hrun
  apply Triple.modify_bind
  -- The device information is built in the first poll of a connection only.
  cases firstPoll with
  | true =>
    apply Triple.modify
    refine ⟨true, outcomes, ⟨_, _, hsupplies⟩, hlen, ?_, hfirst⟩
    dsimp only
    rw [hsame]
    rfl
  | false =>
    apply Triple.pure
    refine ⟨false, outcomes, ⟨_, _, hsupplies⟩, hlen, ?_, hfirst⟩
    dsimp only
    rw [hsame]
    rfl

omit [Cipher κ] in
theorem Home.mark_coordinator (home : Home κ) (level : LogLevel) (text : String) :
    (home.mark level text).coordinator =
      { home.coordinator with lastPollSuccessful := false } := by
  unfold Home.mark
  split
  · rfl
  · -- The flag is down already.
    have hlast : home.coordinator.lastPollSuccessful = false := Bool.eq_false_iff.mpr ‹_›
    rw [← hlast]

omit [Cipher κ] in
theorem Home.flag_coordinator (home : Home κ) (e : Exc) :
    (home.flag e).coordinator = { home.coordinator with
      pairingRequired := home.coordinator.pairingRequired ||
        e.isInstance [.ninebotPairingRequiredError] } := by
  unfold Home.flag
  by_cases hpairing : e.isInstance [.ninebotPairingRequiredError] = true
  · rw [if_pos hpairing, hpairing, Bool.or_true]
  · rw [if_neg hpairing, Bool.eq_false_iff.mpr hpairing, Bool.or_false]

omit [Cipher κ] in
theorem Home.backOnline_coordinator (home : Home κ) :
    home.backOnline.coordinator = { home.coordinator with lastPollSuccessful := true } ∧
      home.backOnline.world.self = home.world.self := by
  unfold Home.backOnline
  by_cases hlast : home.coordinator.lastPollSuccessful = true
  · rw [if_pos hlast, ← hlast]
    exact ⟨rfl, rfl⟩
  · rw [if_neg hlast]
    exact ⟨rfl, rfl⟩

/-- Whatever `disconnect` makes of the link, the client has let go of it. -/
theorem dropConnection_coordinator (home : Home κ) :
    Triple dropConnection home
      (fun _ home' => home'.coordinator = home.coordinator ∧ home'.world.self.client = none)
      (fun _ _ => False) (fun _ => True) := by
  have hrun : Triple (H.client disconnect) home
      (fun _ home' => home'.coordinator = home.coordinator ∧ home'.world.self.client = none)
      (fun _ home' => home'.coordinator = home.coordinator ∧ home'.world.self.client = none)
      (fun _ => True) := by
    have hdetached := disconnect_detaches home.world
    apply (client_run disconnect home).mono ?_ ?_ (fun _ _ => trivial)
    · intro _ home' h
      rw [h.1] at hdetached
      exact ⟨h.2.1, hdetached⟩
    · intro _ home' h
      rw [h.1] at hdetached
      exact ⟨h.2.1, hdetached⟩
  apply Triple.attempt_bind (X := fun _ home' =>
    home'.coordinator = home.coordinator ∧ home'.world.self.client = none)
  · apply hrun.mono_raised
    intro e _ h
    rw [if_pos (Exc.isInstance_exception e)]
    exact h
  · exact fun _ _ h => Triple.pure h
  · exact fun _ _ h => Triple.pure h

/-- A poll raises nothing, and completes in one of two ways. -/
theorem coordinatorPoll_ends (home : Home κ) :
    Triple coordinatorPoll home (fun _ home' => ∃ ending, Ended home ending home')
      (fun _ _ => False) (fun _ => True) := by
  have hupdate : Triple asyncUpdate home
      (fun _ home₁ => (asyncUpdate home).1 = .ret () ∧
        ∃ includeStatic outcomes, Merged home home₁ includeStatic outcomes)
      (fun e home₁ => (asyncUpdate home).1 = .raised e ∧ home₁.coordinator = home.coordinator)
      (fun _ => True) := by
    have h := asyncUpdate_coordinator home
    unfold Triple at *
    rcases hrun : asyncUpdate home with ⟨a | e | _, home₁⟩
    · rw [hrun] at h
      exact ⟨rfl, h⟩
    · rw [hrun] at h
      exact ⟨rfl, h⟩
    · trivial
  apply coordinatorPoll_triple hupdate
  · intro home₁ h₁
    obtain ⟨hrun, includeStatic, outcomes, hmerged⟩ := h₁
    obtain ⟨w, w', hsupplies⟩ := hmerged.supplies
    obtain ⟨honline, hself⟩ := home₁.backOnline_coordinator
    refine ⟨_, .succeeded includeStatic outcomes w w' hrun hsupplies hmerged.length ?_
      hmerged.first⟩
    rw [honline, hself, hmerged.coordinator]
    rfl
  · intro e home₁ level text h₁
    obtain ⟨hrun, hsame⟩ := h₁
    -- Both flags are set before the link is dropped, which changes neither.
    apply (dropConnection_coordinator _).mono_ret
    intro _ home₂ h₂
    refine ⟨_, .failed e hrun ?_ h₂.2⟩
    rw [h₂.1, Home.mark_coordinator, Home.flag_coordinator, hsame]
    rfl

theorem coordinatorPoll_ended {home home' : Home κ} (h : coordinatorPoll home = (.ret (), home')) :
    ∃ ending, Ended home ending home' :=
  (coordinatorPoll_ends home).ret_of h

theorem completed {home : Home κ} (h : (coordinatorPoll home).1 = .ret ()) :
    coordinatorPoll home = (.ret (), (coordinatorPoll home).2) :=
  run_eq h

/-! ## Many polls -/

/-- The states between completed polls, with how these ended, newest first. -/
inductive History (home₀ : Home κ) : List PollEnd → Home κ → Prop where
  | start : History home₀ [] home₀
  | between {endings : List PollEnd} {home home' : Home κ} : History home₀ endings home →
      Between home home' → History home₀ endings home'
  | poll {endings : List PollEnd} {home home' : Home κ} {ending : PollEnd} :
      History home₀ endings home → coordinatorPoll home = (.ret (), home') →
      Ended home ending home' → History home₀ (ending :: endings) home'

/-- Every run of polls has a history. -/
theorem Polls.history {home₀ home : Home κ} (h : Polls home₀ home) :
    ∃ endings, History home₀ endings home := by
  induction h with
  | start => exact ⟨[], .start⟩
  | between _ hb ih =>
    obtain ⟨endings, h⟩ := ih
    exact ⟨endings, h.between hb⟩
  | poll _ hpoll ih =>
    obtain ⟨endings, h⟩ := ih
    obtain ⟨ending, hended⟩ := coordinatorPoll_ended hpoll
    exact ⟨ending :: endings, h.poll hpoll hended⟩

/-- Only an advertisement touches the coordinator between polls, and only its hardware ID. -/
theorem Between.coordinator {home home' : Home κ} (h : Between home home') :
    ∃ hardwareId, home'.coordinator = { home.coordinator with hardwareId := hardwareId } := by
  cases h with
  | event _ => exact ⟨_, rfl⟩
  | supply _ _ => exact ⟨_, rfl⟩
  | advertised manufacturerData =>
    show ∃ hardwareId, home.coordinator.advertised manufacturerData = _
    unfold Coordinator.advertised
    split
    · exact ⟨_, rfl⟩
    · exact ⟨_, rfl⟩

/-- The snapshots of the polls that succeeded, oldest first. -/
def snapshots (endings : List PollEnd) : List ScooterState :=
  endings.reverse.filterMap PollEnd.snapshot?

theorem snapshots_failed (e : Exc) (endings : List PollEnd) :
    snapshots (.failed e :: endings) = snapshots endings := by
  unfold snapshots
  rw [List.reverse_cons, List.filterMap_append]
  exact List.append_nil _

theorem snapshots_succeeded (includeStatic : Bool) (outcomes : List Outcome)
    (endings : List PollEnd) :
    snapshots (.succeeded includeStatic outcomes :: endings) =
      snapshots endings ++ [snapshot (pollRegisters includeStatic) outcomes] := by
  unfold snapshots
  rw [List.reverse_cons, List.filterMap_append]
  rfl

/-- The state is what the snapshots of the polls merge to. -/
theorem History.state {home₀ home : Home κ} {endings : List PollEnd}
    (h : History home₀ endings home) :
    home.coordinator.state =
      home₀.coordinator.state.update (ScooterState.merge (snapshots endings)) := by
  induction h with
  | start => exact (ScooterState.update_empty _).symm
  | between _ hb ih =>
    obtain ⟨_, heq⟩ := hb.coordinator
    rw [heq]
    exact ih
  | poll _ _ hended ih =>
    cases hended with
    | failed e _ heq _ =>
      rw [heq, snapshots_failed]
      exact ih
    | succeeded includeStatic outcomes _ _ _ _ _ heq _ =>
      rw [heq, snapshots_succeeded, ScooterState.merge_concat, ← ScooterState.update_assoc, ← ih]
      rfl

end Ninebot
