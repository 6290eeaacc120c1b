import Ninebot.FakeScooter
import Ninebot.Histories
import Ninebot.TwinConnect

/-! # What is said under different keys

    Whatever the client raises, the coordinator logs and the state records, it
    is the same under two keys as long as the same packets come in, and as long
    as no PING is given up at the top of its loop.  There the text is that of
    the whole packet, key included, and the coordinator logs it.

    This file defines:
    - `TwinHomes`: two homes in which only the key and what follows from it differ
    - `escapes`: the exceptions that leave the client in the course of a poll
    - `TwinPolls`: two runs that receive the same packets at the same times -/

namespace Ninebot

open Coro

variable {κ α : Type}

/-! ## Homes -/

def Obs.text? : Obs → Option (LogLevel × String)
  | .log level text => some (level, text)
  | _ => none

/-- The log lines, newest first. -/
def World.texts (w : World κ) : List (LogLevel × String) := w.trace.filterMap Obs.text?

theorem World.blur_texts (w : World κ) : w.blur.texts = w.texts := by
  show (w.trace.map Obs.blur).filterMap Obs.text? = _
  rw [List.filterMap_map]
  apply List.filterMap_congr
  intro o _
  cases o <;> rfl

/-- The entry without the pairing key. -/
def ConfigEntry.blur (self : ConfigEntry) : ConfigEntry := { self with appKey := none }

def Home.packets (home : Home κ) : List Packet := home.world.packets

/-- Two homes in which only the key and what follows from it differ. -/
structure TwinHomes (home home' : Home κ) : Prop where
  world : Twin home.world home'.world
  entry : home'.entry.blur = home.entry.blur
  coordinator : home'.coordinator = home.coordinator

instance : Taped (Home κ) Step where
  tape home := home.world.script
  setTape home t := { home with world := home.world.setScript t }
  tape_setTape _ _ := rfl
  setTape_setTape _ _ _ := rfl
  setTape_tape _ := rfl

namespace TwinHomes

variable {home home' : Home κ}

instance : Std.Refl (TwinHomes (κ := κ)) := ⟨fun home => ⟨Twin.refl home.world, rfl, rfl⟩⟩

instance : Tallies (TwinHomes (κ := κ)) := ⟨fun h => h.world.script.length_eq.symm⟩

theorem title (h : TwinHomes home home') : home'.entry.title = home.entry.title := by
  have hsame := congrArg ConfigEntry.title h.entry
  exact hsame

theorem texts (h : TwinHomes home home') : home'.world.texts = home.world.texts := by
  rw [← World.blur_texts, h.world.blur, World.blur_texts]

/-- A step of the world alone. -/
theorem setWorld (h : TwinHomes home home') {w w' : World κ} (hw : Twin w w') :
    TwinHomes { home with world := w } { home' with world := w' } :=
  ⟨hw, h.entry, h.coordinator⟩

theorem setCoordinator (h : TwinHomes home home') (f : Coordinator → Coordinator) :
    TwinHomes { home with coordinator := f home.coordinator }
      { home' with coordinator := f home'.coordinator } :=
  ⟨h.world, h.entry, congrArg f h.coordinator⟩

end TwinHomes

/-! ## Methods of the client -/

theorem client_reads {m : M κ α} (h : Reads m) : Reads (H.client m) := by
  intro home r home₁ hrun hr
  have hrun' : m home.world = (r, home₁.world) := by
    cases hrun
    rfl
  have hlast : home₁ = { home with world := home₁.world } := by
    cases hrun
    rfl
  obtain ⟨used, hused, hmore⟩ := h home.world r home₁.world hrun' hr
  refine ⟨used, hused, fun t => ?_⟩
  have hrest := hmore t
  rw [hlast]
  show ((m (setTape home.world (used ++ t))).1,
    { home with world := (m (setTape home.world (used ++ t))).2 }) = _
  rw [hrest]
  rfl

theorem InStep.of_client {m m' : M κ α} {home home' : Home κ}
    (h : InStep Home.packets (H.client m) (H.client m') home home') :
    InStep World.packets m m' home.world home'.world := h

theorem client_couples {m m' : M κ α} {home home' : Home κ} (hhomes : TwinHomes home home')
    (h : Couples Twin World.packets m m' home.world home'.world) :
    Couples TwinHomes Home.packets (H.client m) (H.client m') home home' := by
  intro hstep
  obtain ⟨hres, hlast⟩ := h (InStep.of_client hstep)
  exact ⟨hres, hhomes.setWorld hlast⟩

/-- The method ends alike in twin homes that receive the same. -/
abbrev TwinnedHomes (m m' : H κ α) : Prop := Alike TwinHomes Home.packets m m'

theorem twinned_client {m m' : M κ α} (h : Twinned m m') :
    TwinnedHomes (H.client m) (H.client m') where
  reads := client_reads h.reads
  reads' := client_reads h.reads'
  couples home home' hhomes := client_couples hhomes (h.couples home.world home'.world hhomes.world)

/-! ## One poll -/

theorem twinned_setCoordinator (f : Coordinator → Coordinator) :
    TwinnedHomes (H.setCoordinator f : H κ Unit) (H.setCoordinator f) := by
  apply Alike.modify
  exact ⟨fun _ _ => rfl, fun _ _ => rfl, fun _ _ h => h.setCoordinator f⟩

/-- Storing the key is silent, whether or not the entry has it already. -/
theorem twinned_persistAppKey : TwinnedHomes (persistAppKey : H κ Unit) persistAppKey := by
  have heq : (persistAppKey : H κ Unit) = Coro.modify fun home =>
      { home with entry := home.entry.persisted home.world.self.appKey } := by
    funext home
    exact persistAppKey_eq home
  rw [heq]
  apply Alike.modify
  exact ⟨fun _ _ => rfl, fun _ _ => rfl, fun _ _ h => ⟨h.world, h.entry, h.coordinator⟩⟩

theorem TwinHomes.say {home home' : Home κ} (h : TwinHomes home home') (level : LogLevel)
    (text : String) : TwinHomes (home.say level text) (home'.say level text) := by
  unfold Home.say
  rw [h.title]
  exact h.setWorld (((Shows.log rfl).alone).keeps _ _ h.world)

theorem TwinHomes.mark {home home' : Home κ} (h : TwinHomes home home') (level : LogLevel)
    (text : String) : TwinHomes (home.mark level text) (home'.mark level text) := by
  unfold Home.mark
  rw [h.coordinator]
  by_cases hlast : home.coordinator.lastPollSuccessful = true
  · rw [if_pos hlast, if_pos hlast]
    exact ⟨(h.say level text).world, h.entry, rfl⟩
  · rw [if_neg hlast, if_neg hlast]
    exact h

theorem TwinHomes.backOnline {home home' : Home κ} (h : TwinHomes home home') :
    TwinHomes home.backOnline home'.backOnline := by
  unfold Home.backOnline
  rw [h.coordinator]
  by_cases hlast : home.coordinator.lastPollSuccessful = true
  · rw [if_pos hlast, if_pos hlast]
    exact h
  · rw [if_neg hlast, if_neg hlast]
    exact ⟨(h.say _ _).world, h.entry, rfl⟩

/-- After an update that raised: the flags are set, and the failure is said. -/
def Home.failed (home : Home κ) (e : Exc) : Home κ :=
  if e.isInstance [.ninebotPairingRequiredError] then
    (home.flag e).mark .warning (" needs pairing: " ++ e.msg)
  else if e.isInstance [.ninebotError] then
    (home.flag e).mark .info (" is unavailable: " ++ e.msg)
  else (home.flag e).mark .error ": unexpected error while polling"

theorem TwinHomes.failed {home home' : Home κ} (h : TwinHomes home home') (e : Exc) :
    TwinHomes (home.failed e) (home'.failed e) := by
  have hflag : TwinHomes (home.flag e) (home'.flag e) := by
    unfold Home.flag
    split
    · exact h.setCoordinator fun c => { c with pairingRequired := true }
    · exact h
  unfold Home.failed
  split
  · exact hflag.mark _ _
  · split
    · exact hflag.mark _ _
    · exact hflag.mark _ _

theorem Home.mark_setTape (home : Home κ) (level : LogLevel) (text : String) (t : List Step) :
    (setTape home t).mark level text = setTape (home.mark level text) t := by
  have hcoordinator : (setTape home t).coordinator = home.coordinator := rfl
  unfold Home.mark
  rw [hcoordinator]
  split <;> rfl

theorem parallel_failed (e : Exc) :
    Parallel (TwinHomes (κ := κ)) (·.failed e) (·.failed e) := by
  have hfree : ∀ (home : Home κ) t, (setTape home t).failed e = setTape (home.failed e) t := by
    intro home t
    have hflag : (setTape home t).flag e = setTape (home.flag e) t := by
      unfold Home.flag
      split <;> rfl
    unfold Home.failed
    rw [hflag]
    split
    · exact Home.mark_setTape _ _ _ t
    · split
      · exact Home.mark_setTape _ _ _ t
      · exact Home.mark_setTape _ _ _ t
  exact ⟨hfree, hfree, fun _ _ h => h.failed e⟩

theorem parallel_backOnline : Parallel (TwinHomes (κ := κ)) Home.backOnline Home.backOnline := by
  have hfree : ∀ (home : Home κ) t, (setTape home t).backOnline = setTape home.backOnline t := by
    intro home t
    have hcoordinator : (setTape home t).coordinator = home.coordinator := rfl
    unfold Home.backOnline
    rw [hcoordinator]
    split <;> rfl
  exact ⟨hfree, hfree, fun _ _ h => h.backOnline⟩

section Poll

variable [Cipher κ]

/-- What `_async_update` does once it is connected. -/
def readAll (firstPoll : Bool) : H κ Unit := do
  let snapshot ← H.client (asyncPoll firstPoll)
  H.setCoordinator fun c => { c with state := c.state.update snapshot, pairingRequired := false }
  if firstPoll then
    Coro.modify fun home => { home with coordinator := { home.coordinator with
      info := home.world.self.buildInfo home.coordinator.state
        home.coordinator.hardwareIdOrDefault } }

theorem asyncUpdate_eq : (asyncUpdate : H κ Unit) = ensureConnected >>= readAll := rfl

/-- What `_async_poll` does after its update. -/
def afterUpdate : Except Exc Unit → H κ Unit
  | .error e => do
      Coro.modify (·.failed e)
      dropConnection
  | .ok () => Coro.modify Home.backOnline

theorem coordinatorPoll_eq : (coordinatorPoll : H κ Unit) =
    attempt (·.isInstance [.exception]) asyncUpdate >>= afterUpdate := by
  have hmarked : ∀ level text (home : Home κ), (do
      markFailed level text
      dropConnection) home = dropConnection (home.mark level text) := by
    intro level text home
    exact bind_of_ret (markFailed_eq level text home)
  unfold coordinatorPoll
  congr 1
  funext r
  -- After a success, and after each kind of exception.
  cases r with
  | ok _ =>
    funext home
    show (Coro.get >>= _) home = (Res.ret (), home.backOnline)
    rw [get_bind]
    unfold Home.backOnline
    split <;> rfl
  | error e =>
    funext home
    show _ = dropConnection (home.failed e)
    unfold Home.failed Home.flag
    by_cases hpairing : e.isInstance [.ninebotPairingRequiredError]
    · simp only [hpairing, if_true]
      exact hmarked _ _ _
    · by_cases hninebot : e.isInstance [.ninebotError]
      · simp only [hpairing, hninebot, if_true]
        exact hmarked _ _ home
      · simp only [hpairing, hninebot]
        exact hmarked _ _ home

/-- Is the deadline of a PING noticed at the top of its loop, in a poll from `home`? -/
def pollLapses (home : Home κ) : Bool :=
  !home.world.isConnected && connectLapses home.world

/-- The exceptions that leave the client in the course of a poll: the one that
    ends the update, and the one that ends the `disconnect` after it. -/
def escapes (home : Home κ) : List Exc :=
  match asyncUpdate home with
  | (.raised e, home₁) =>
      e :: match H.client disconnect (home₁.failed e) with
        | (.raised e', _) => [e']
        | _ => []
  | _ => []

/-- The condition is exact: a poll in which a PING lapses lets the key out. -/
theorem escapes_of_lapses {home : Home κ} (h : pollLapses home = true) :
    ∃ key rest, (key = home.world.self.appKey ∨ ∃ n, key = (home.world.secrets n).1) ∧
      escapes home = noResponse (pingRequest key) :: rest := by
  unfold pollLapses at h
  rw [Bool.and_eq_true, Bool.not_eq_true'] at h
  obtain ⟨hdown, hlapses⟩ := h
  obtain ⟨key, hkey, hraised⟩ := connect_of_lapses hlapses
  have hclient : (H.client connect home).1 = .raised (noResponse (pingRequest key)) := hraised
  have hupdate : (asyncUpdate home).1 = .raised (noResponse (pingRequest key)) := by
    rw [asyncUpdate_eq, bind_apply, ensureConnected, get_bind, hdown, if_neg Bool.false_ne_true,
      bind_apply, run_eq hclient]
  unfold escapes
  rw [run_eq hupdate]
  exact ⟨key, _, hkey, rfl⟩

variable (hκ : Cipher.Lengthens κ)
include hκ

theorem ensureConnected_reads : Reads (ensureConnected : H κ Bool) := by
  apply Reads.get_bind (fun _ _ => rfl)
  intro home
  by_cases hup : home.world.isConnected
  · rw [if_pos hup]
    exact Reads.pure _
  · rw [if_neg hup]
    apply Reads.bind (client_reads (connect_reads hκ))
    intro _
    apply Reads.bind twinned_persistAppKey.reads
    exact fun _ => Reads.pure true

theorem ensureConnected_couples {home home' : Home κ} (h : TwinHomes home home')
    (htime : pollLapses home = false) :
    Couples TwinHomes Home.packets (ensureConnected : H κ Bool) ensureConnected home home' := by
  apply Couples.get_bind (fun _ => rfl) (fun _ => rfl)
  rw [h.world.isConnected, h.coordinator]
  by_cases hup : home.world.isConnected = true
  · rw [if_pos hup]
    exact Couples.pure h _
  · rw [if_neg hup]
    have hconnect : connectLapses home.world = false := by
      rw [pollLapses, Bool.eq_false_iff.mpr hup] at htime
      exact htime
    apply Couples.bind h (client_reads (connect_reads hκ)) (client_reads (connect_reads hκ))
    · exact client_couples h (connect_couples hκ h.world hconnect)
    · intro _ home₁ home₁' _ _ h₁
      have hstored : TwinnedHomes (do
          persistAppKey
          return true : H κ Bool) (do
          persistAppKey
          return true) := Alike.bind twinned_persistAppKey fun _ => Alike.pure true
      exact hstored.couples home₁ home₁' h₁

theorem twinned_readAll (firstPoll : Bool) :
    TwinnedHomes (readAll firstPoll : H κ Unit) (readAll firstPoll) := by
  apply Alike.bind (twinned_client (twinned_asyncPoll hκ firstPoll))
  intro snapshot
  apply Alike.bind (twinned_setCoordinator _)
  intro _
  cases firstPoll with
  | false => exact Alike.pure ()
  | true =>
    apply Alike.modify
    refine ⟨fun _ _ => rfl, fun _ _ => rfl, ?_⟩
    intro home home' h
    refine ⟨h.world, h.entry, ?_⟩
    have hinfo : ∀ (state : ScooterState) (id : Nat),
        home'.world.self.buildInfo state id = home.world.self.buildInfo state id := by
      intro state id
      exact h.world.read fun b => b.self.buildInfo state id
    rw [h.coordinator, hinfo]

theorem asyncUpdate_reads : Reads (asyncUpdate : H κ Unit) := by
  rw [asyncUpdate_eq]
  apply Reads.bind (ensureConnected_reads hκ)
  exact fun firstPoll => (twinned_readAll hκ firstPoll).reads

theorem asyncUpdate_couples {home home' : Home κ} (h : TwinHomes home home')
    (htime : pollLapses home = false) :
    Couples TwinHomes Home.packets (asyncUpdate : H κ Unit) asyncUpdate home home' := by
  rw [asyncUpdate_eq]
  apply Couples.bind h (ensureConnected_reads hκ) (ensureConnected_reads hκ)
  · exact ensureConnected_couples hκ h htime
  · intro firstPoll home₁ home₁' _ _ h₁
    exact (twinned_readAll hκ firstPoll).couples home₁ home₁' h₁

omit hκ in
theorem twinned_afterUpdate (r : Except Exc Unit) :
    TwinnedHomes (afterUpdate r : H κ Unit) (afterUpdate r) := by
  cases r with
  | ok _ => exact Alike.modify parallel_backOnline
  | error e =>
    apply Alike.modify_bind (parallel_failed e)
    apply Alike.attempt_bind (twinned_client twinned_disconnect)
    · exact fun _ => Alike.pure ()
    · exact fun _ => Alike.pure ()

theorem coordinatorPoll_couples {home home' : Home κ} (h : TwinHomes home home')
    (htime : pollLapses home = false) :
    Couples TwinHomes Home.packets (coordinatorPoll : H κ Unit) coordinatorPoll home home' := by
  have hreads : Reads (attempt (·.isInstance [.exception]) (asyncUpdate : H κ Unit)) :=
    Reads.attempt (asyncUpdate_reads hκ)
  rw [coordinatorPoll_eq]
  apply Couples.bind h hreads hreads (Couples.attempt (asyncUpdate_couples hκ h htime))
  -- What the update has raised is the same, and so is what is made of it.
  intro r home₁ home₁' _ _ h₁
  exact (twinned_afterUpdate r).couples home₁ home₁' h₁

/-- The same exceptions leave the client in both polls. -/
theorem escapes_eq {home home' : Home κ} (h : TwinHomes home home')
    (htime : pollLapses home = false)
    (hstep : InStep Home.packets (coordinatorPoll : H κ Unit) coordinatorPoll home home') :
    escapes home' = escapes home := by
  have hreads : Reads (attempt (·.isInstance [.exception]) (asyncUpdate : H κ Unit)) :=
    Reads.attempt (asyncUpdate_reads hκ)
  rw [coordinatorPoll_eq] at hstep
  obtain ⟨hres, hlast⟩ := asyncUpdate_couples hκ h htime hstep.of_bind.of_attempt
  unfold escapes
  rcases hrun : asyncUpdate home with ⟨_ | e | _, home₁⟩
  · rw [hrun] at hres
    rw [run_eq hres]
  · rw [hrun] at hres hlast
    have hrun' := run_eq hres
    rw [hrun']
    -- The link is closed in step, too.
    have hcaught : ∀ {home home₁ : Home κ}, asyncUpdate home = (.raised e, home₁) →
        attempt (·.isInstance [.exception]) asyncUpdate home = (.ret (.error e), home₁) := by
      intro home home₁ hrun
      rw [attempt, hrun]
      exact if_pos e.isInstance_exception
    have hafter := Couples.inStep_after h hreads hreads (hcaught hrun) (hcaught hrun') hlast hstep
    -- Between the update and the closing there is only what `failed` does.
    have hdrop : InStep Home.packets (H.client disconnect) (H.client disconnect)
        (home₁.failed e) ((asyncUpdate home').2.failed e) :=
      (hafter.of_modify_bind ((parallel_failed e).free home₁)
        ((parallel_failed e).free (asyncUpdate home').2)).of_bind.of_attempt
    obtain ⟨hclosed, _⟩ := (twinned_client twinned_disconnect).couples _ _ (hlast.failed e) hdrop
    dsimp only
    generalize H.client disconnect (home₁.failed e) = out at hclosed ⊢
    generalize H.client disconnect ((asyncUpdate home').2.failed e) = out' at hclosed ⊢
    obtain ⟨r, _⟩ := out
    obtain ⟨r', _⟩ := out'
    obtain rfl : r' = r := hclosed
    cases r' <;> rfl
  · rw [hrun] at hres
    rw [run_eq hres]

end Poll

/-! ## Runs -/

section Runs

variable [Cipher κ]

/-- What is called: a method of the client, or a poll of the coordinator. -/
inductive Call where
  | connect
  | asyncPoll (includeStatic : Bool)
  | disconnect
  | coordinatorPoll
  deriving DecidableEq

/-- The call, with the snapshot that it returns, if it returns one. -/
def Call.run : Call → H κ (Option ScooterState)
  | .connect => do
      H.client Ninebot.connect
      return none
  | .asyncPoll includeStatic => do
      let snapshot ← H.client (Ninebot.asyncPoll includeStatic)
      return some snapshot
  | .disconnect => do
      H.client Ninebot.disconnect
      return none
  | .coordinatorPoll => do
      Ninebot.coordinatorPoll
      return none

/-- Is the deadline of a PING noticed at the top of its loop, in a call from `home`? -/
def Call.lapses : Call → Home κ → Bool
  | .connect, home => connectLapses home.world
  | .coordinatorPoll, home => pollLapses home
  | _, _ => false

/-- After each step of the script, both calls have received the same packets. -/
def SamePackets (call : Call) (home home' : Home κ) : Prop :=
  ∀ n, (call.run (cut n home')).2.packets = (call.run (cut n home)).2.packets

/-- Two runs of calls side by side, one call after the other, that receive the
    same packets at the same times.  No PING of the first run lapses. -/
inductive TwinRuns (home₀ home₀' : Home κ) : Home κ → Home κ → Prop where
  | start : TwinRuns home₀ home₀' home₀ home₀'
  | event {home home' : Home κ} {e e' : Event} : TwinRuns home₀ home₀' home home' →
      Step.Like (.event e) (.event e') →
      (home'.world.apply e').packets = (home.world.apply e).packets →
      TwinRuns home₀ home₀' { home with world := home.world.apply e }
        { home' with world := home'.world.apply e' }
  | supply {home home' : Home κ} {script script' : List Step} (gas : Nat) :
      TwinRuns home₀ home₀' home home' → List.Forall₂ Step.Like script script' →
      TwinRuns home₀ home₀' { home with world := { home.world with script := script, gas := gas } }
        { home' with world := { home'.world with script := script', gas := gas } }
  | advertised {home home' : Home κ} (manufacturerData : Bytes) :
      TwinRuns home₀ home₀' home home' →
      TwinRuns home₀ home₀'
        { home with coordinator := home.coordinator.advertised manufacturerData }
        { home' with coordinator := home'.coordinator.advertised manufacturerData }
  | call {home home' : Home κ} (call : Call) : TwinRuns home₀ home₀' home home' →
      SamePackets call home home' → call.lapses home = false →
      (call.run home).1 ≠ .pending →
      TwinRuns home₀ home₀' (call.run home).2 (call.run home').2

/-- Two calls end alike, and have said and recorded the same. -/
structure EndAlike (call : Call) (home home' : Home κ) : Prop where
  /-- What was raised or returned, the failures of a snapshot included. -/
  outcome : (call.run home').1 = (call.run home).1
  texts : (call.run home').2.world.texts = (call.run home).2.world.texts
  failures : (call.run home').2.coordinator.state.failures =
    (call.run home).2.coordinator.state.failures
  /-- What the coordinator's poll has caught. -/
  escapes : call = .coordinatorPoll → escapes home' = escapes home

variable (hκ : Cipher.Lengthens κ)
include hκ

theorem Call.run_couples (call : Call) {home home' : Home κ} (h : TwinHomes home home')
    (htime : call.lapses home = false) :
    Couples TwinHomes Home.packets (call.run : H κ (Option ScooterState)) call.run home home' := by
  have hnone : ∀ {m : H κ Unit}, Reads m → Couples TwinHomes Home.packets m m home home' →
      Couples TwinHomes Home.packets (do
        m
        return none : H κ (Option ScooterState)) (do
        m
        return none) home home' := by
    intro m hreads hm
    exact Couples.bind h hreads hreads hm fun _ _ _ _ _ h₁ => Couples.pure h₁ none
  -- A call that cannot lapse couples in every pair of twin homes.
  cases call with
  | connect =>
    apply hnone (client_reads (connect_reads hκ))
    exact client_couples h (connect_couples hκ h.world htime)
  | asyncPoll includeStatic =>
    have hpoll := twinned_client (twinned_asyncPoll hκ (κ := κ) includeStatic)
    exact (hpoll.bind fun snapshot => Alike.pure (some snapshot)).couples home home' h
  | disconnect =>
    have hclose := twinned_client (twinned_disconnect (κ := κ))
    exact hnone hclose.reads (hclose.couples home home' h)
  | coordinatorPoll =>
    have hreads : Reads (Ninebot.coordinatorPoll : H κ Unit) := by
      rw [coordinatorPoll_eq]
      apply Reads.bind (Reads.attempt (asyncUpdate_reads hκ))
      exact fun r => (twinned_afterUpdate r).reads
    exact hnone hreads (coordinatorPoll_couples hκ h htime)

omit hκ in
theorem SamePackets.inStep {call : Call} {home home' : Home κ} (h : SamePackets call home home') :
    InStep Home.packets call.run call.run home home' := fun n _ _ => (h n).symm

theorem Call.endAlike (call : Call) {home home' : Home κ} (h : TwinHomes home home')
    (hsame : SamePackets call home home') (htime : call.lapses home = false) :
    EndAlike call home home' := by
  obtain ⟨hres, hlast⟩ := call.run_couples hκ h htime hsame.inStep
  refine ⟨hres, hlast.texts, ?_, ?_⟩
  · rw [hlast.coordinator]
  · rintro rfl
    exact escapes_eq hκ h htime hsame.inStep.of_bind

/-- Two runs whose PINGs do not lapse stay twins. -/
theorem TwinRuns.homes {home₀ home₀' home home' : Home κ} (h : TwinRuns home₀ home₀' home home')
    (hstart : TwinHomes home₀ home₀') : TwinHomes home home' := by
  induction h with
  | start => exact hstart
  | event _ hlike hpackets ih => exact ih.setWorld (ih.world.of_packets hlike hpackets)
  | supply gas _ hscript ih =>
    -- The blurred world has no script, but it has the gas.
    have hblur := ih.world.read fun b => { b with gas := gas }
    exact ih.setWorld ⟨hblur, hscript, ih.world.keyLength⟩
  | advertised manufacturerData _ ih => exact ih.setCoordinator (·.advertised manufacturerData)
  | call call _ hsame htime _ ih => exact (call.run_couples hκ ih htime hsame.inStep).2

/-- Two runs under different keys say and record the same, in every state
    between their calls and at every moment of the next one, as long as no PING
    is given up at the top of its loop. -/
theorem twinRuns_say_the_same {home₀ home₀' home home' : Home κ}
    (hstart : TwinHomes home₀ home₀') (h : TwinRuns home₀ home₀' home home') :
    home'.world.texts = home.world.texts ∧
    home'.coordinator.state.failures = home.coordinator.state.failures ∧
    ∀ call : Call, SamePackets call home home' → call.lapses home = false →
      EndAlike call home home' := by
  have hhomes := h.homes hκ hstart
  refine ⟨hhomes.texts, ?_, ?_⟩
  · rw [hhomes.coordinator]
  · exact fun call hsame htime => call.endAlike hκ hhomes hsame htime

end Runs

/-! ## A PING that is not answered in time -/

/-- Nothing is cut off after the last step of the script. -/
theorem SamePackets.of_cuts [Cipher κ] {call : Call} {home home' : Home κ}
    (hlen : home'.world.script.length = home.world.script.length)
    (h : ∀ n < home.world.script.length + 1,
      (call.run (cut n home')).2.packets = (call.run (cut n home)).2.packets) :
    SamePackets call home home' := by
  intro n
  by_cases hn : n < home.world.script.length + 1
  · exact h n hn
  · have hcut : ∀ {home₁ : Home κ}, home₁.world.script.length = home.world.script.length →
        cut n home₁ = cut home.world.script.length home₁ := by
      intro home₁ hlen₁
      have hlast : cut home.world.script.length home₁ = home₁ := cut_of_length_le hlen₁.le
      have hlater : (tape home₁).length ≤ n := by
        show home₁.world.script.length ≤ n
        omega
      rw [hlast, cut_of_length_le hlater]
    rw [hcut hlen, hcut rfl]
    exact h _ (Nat.lt_succ_self _)

theorem StubCrypto.lengthens : Cipher.Lengthens StubCrypto := by
  intro keys state data
  show (data ++ cryptoTrailer).length = _
  rw [List.length_append]
  rfl

/-- A scooter that was paired with this key. -/
def keyedHome (key : Bytes) (script : List Step) : Home StubCrypto where
  world := World.ofScript (fakeClient (some key)) script
  entry := ⟨"Scooter", "C0:FF:EE:00:00:01", some "E2 Pro 0216", some (hexLower key)⟩
  coordinator := Coordinator.make "C0:FF:EE:00:00:01" "Scooter"

theorem keyedHome_twins {key key' : Bytes} (h : key.length = appKeyLength)
    (h' : key'.length = appKeyLength) (script : List Step) :
    TwinHomes (keyedHome key script) (keyedHome key' script) := by
  have hkey : ∀ key : Bytes, key.length = appKeyLength →
      (fakeClient (some key)).appKey.length = appKeyLength := by
    intro key hlen
    show (if key = [] then _ else key).length = _
    split
    · rfl
    · exact hlen
  refine ⟨⟨rfl, List.forall₂_refl script, ?_⟩, rfl, rfl⟩
  exact (hkey key' h').trans (hkey key h).symm

def otherKey : Bytes := List.replicate appKeyLength 0xA5

/-- A handshake up to the moment at which PING has been written. -/
def pinged : List Step :=
  [.answer (.linked (.found 20)), .answer .ok, .answer .ok, respond 0 initReply, .answer .ok,
    .answer .ok, .answer .ok]

/-- A packet of another kind comes in and is ignored; the timer fires. -/
def ignoredEarly : List Step :=
  pinged ++ [respond 0 (readReply .mcu 0x10 serialChallenge), .answer .ok, .event (.tick 5000),
    .answer (.fail timerFault), .answer .ok, .answer .ok]

/-- The same packet, taken when the time is over. -/
def ignoredLate : List Step :=
  pinged ++ [respond 0 (readReply .mcu 0x10 serialChallenge), .event (.tick 5000), .answer .ok,
    .answer .ok, .answer .ok]

/-- The texts do not name the packet if the timer fires. -/
theorem ignoredEarly_says_the_same :
    (Call.coordinatorPoll.run (keyedHome otherKey ignoredEarly)).2.world.texts =
      (Call.coordinatorPoll.run (keyedHome bleKey ignoredEarly)).2.world.texts ∧
    EndAlike .coordinatorPoll (keyedHome bleKey ignoredEarly)
      (keyedHome otherKey ignoredEarly) := by
  have hstart : TwinHomes (keyedHome bleKey ignoredEarly) (keyedHome otherKey ignoredEarly) :=
    keyedHome_twins rfl rfl ignoredEarly
  have hsame : SamePackets .coordinatorPoll (keyedHome bleKey ignoredEarly)
      (keyedHome otherKey ignoredEarly) := by
    refine SamePackets.of_cuts ?_ ?_
    · rfl
    · decide +kernel
  have hrun : Call.coordinatorPoll.lapses (keyedHome bleKey ignoredEarly) = false ∧
      (Call.coordinatorPoll.run (keyedHome bleKey ignoredEarly)).1 ≠ .pending := by
    decide +kernel
  obtain ⟨htime, hended⟩ := hrun
  have hruns := TwinRuns.start.call .coordinatorPoll hsame htime hended
  obtain ⟨_, _, hnext⟩ := twinRuns_say_the_same StubCrypto.lengthens hstart TwinRuns.start
  obtain ⟨htexts, _, _⟩ := twinRuns_say_the_same StubCrypto.lengthens hstart hruns
  exact ⟨htexts, hnext .coordinatorPoll hsame htime⟩

/-- If the deadline is noticed at the top of the loop, the coordinator logs the key. -/
theorem ignoredLate_says_the_key :
    TwinHomes (keyedHome bleKey ignoredLate) (keyedHome otherKey ignoredLate) ∧
    SamePackets .coordinatorPoll (keyedHome bleKey ignoredLate) (keyedHome otherKey ignoredLate) ∧
    (Call.coordinatorPoll.run (keyedHome bleKey ignoredLate)).2.world.texts =
      [(.info, "Scooter is unavailable: No response to HOST->BLE PING idx=0x00" ++
        " data=000102030405060708090A0B0C0D0E0F")] ∧
    (Call.coordinatorPoll.run (keyedHome otherKey ignoredLate)).2.world.texts =
      [(.info, "Scooter is unavailable: No response to HOST->BLE PING idx=0x00" ++
        " data=A5A5A5A5A5A5A5A5A5A5A5A5A5A5A5A5")] ∧
    escapes (keyedHome bleKey ignoredLate) ≠ escapes (keyedHome otherKey ignoredLate) := by
  refine ⟨keyedHome_twins rfl rfl ignoredLate, ?_, ?_⟩
  · refine SamePackets.of_cuts ?_ ?_
    · rfl
    · decide +kernel
  · decide +kernel

end Ninebot
