import Mathlib.Tactic.Linarith
import Ninebot.Dump
import Ninebot.Lib.Paced
import Ninebot.Lib.Spends
import Ninebot.Pacing

/-! # When polls begin

    `_needs_poll` and `poll_interval` of `coordinator.py`, and the options flow
    of `config_flow.py` that sets the interval.  The base class
    `ActiveBluetoothDataUpdateCoordinator` asks at every advertisement whether a
    poll is due, and what it does with the answer is a parameter.
    `_last_poll` is set by the coordinator in the `finally` of `_async_poll`.

    This file defines:
    - `Dials`: how often the scooter is dialled between two moments
    - `asyncStepInit`: the options flow
    - `Scheduler`: the parts of Home Assistant, and what is documented of them
    - `Schedule.Next`: advertisements, polls, and changes of the options
    - `Schedule.Run`: the states of one process -/

namespace Ninebot

open Coro

variable {κ : Type}

/-! ## Dialling -/

/-- `establish_connection` returned or raised. -/
def Obs.isDial : Obs → Bool
  | .opened _ | .notOpened => true
  | _ => false

/-- How often the scooter has been dialled. -/
def World.dials (w : World κ) : Nat := w.trace.countP Obs.isDial

/-- A later moment, before which the scooter was dialled at most `n` times. -/
structure Dials (n : Nat) (w w' : World κ) : Prop where
  now : w.now ≤ w'.now
  dials : w'.dials ≤ w.dials + n

namespace Dials

variable {w w' w'' : World κ}

theorem graded : Graded (Dials (κ := κ)) where
  refl _ := ⟨Nat.le_refl _, Nat.le_refl _⟩
  trans h h' := by
    have hdials := h.dials
    have hdials' := h'.dials
    exact ⟨h.now.trans h'.now, by omega⟩
  mono hle h := by
    have hdials := h.dials
    exact ⟨h.now, by omega⟩

instance : Std.Refl (Dials (κ := κ) 0) := ⟨graded.refl⟩

instance : IsTrans (World κ) (Dials 0) := ⟨fun _ _ _ h h' => graded.trans h h'⟩

theorem of_same (hnow : w'.now = w.now) (htrace : w'.trace = w.trace) : Dials 0 w w' :=
  ⟨Nat.le_of_eq hnow.symm, Nat.le_of_eq (congrArg (List.countP Obs.isDial) htrace)⟩

theorem log (w : World κ) {o : Obs} (ho : o.isDial = false) : Dials 0 w (w.log o) := by
  refine ⟨Nat.le_refl _, Nat.le_of_eq ?_⟩
  show (o :: w.trace).countP Obs.isDial = _
  rw [List.countP_cons_of_neg (by simp [ho])]
  rfl

/-- One call of `establish_connection`. -/
theorem dialled (w : World κ) (o : Obs) : Dials 1 w (w.log o) := by
  refine ⟨Nat.le_refl _, ?_⟩
  show (o :: w.trace).countP Obs.isDial ≤ _
  rw [List.countP_cons]
  have hone : (if o.isDial = true then 1 else 0) ≤ 1 := by
    split <;> omega
  exact Nat.add_le_add_left hone _

theorem putNowait (w : World κ) (a : Arrival) : Dials 0 w (w.putNowait a) := by
  unfold World.putNowait
  split
  · exact of_same rfl rfl
  · exact log w rfl

theorem hears : Hears (Dials (κ := κ) 0) where
  state _ _ := of_same rfl rfl
  receive w l p _ := graded.trans (log w (o := .received w.now l p) rfl) (putNowait _ _)
  buffer _ _ := of_same rfl rfl
  lose w l _ := by
    have hclose : Dials 0 w (w.close l) := of_same rfl rfl
    exact graded.trans hclose (log _ rfl)
  tick _ _ := ⟨Nat.le_add_right _ _, Nat.le_refl _⟩

variable [Cipher κ]

theorem asks : Asks (Dials (κ := κ) 0) where
  event e w _ := hears.apply e w fun _ => by
    have hdetach : Dials 0 w (w.setClient none) := of_same rfl rfl
    exact graded.trans hdetach (log _ rfl)
  script _ _ _ := of_same rfl rfl
  note w o _ _ hfate := log w (by cases o <;> first | rfl | cases hfate)
  take h := by
    obtain ⟨rest, _, rfl⟩ := popResponse_eq h
    have htake : ∀ w : World κ, Dials 0 w (w.setResponses rest) := fun _ => of_same rfl rfl
    exact graded.trans (htake _) (log _ rfl)
  deed w o _ hfate := log w (by cases o <;> first | rfl | cases hfate)
  cipher _ _ := of_same rfl rfl
  answer _ h _ _ := graded.trans h (log _ rfl)

theorem handshake : Spends Dials 0 (handshake : M κ Unit) :=
  (asks.greets (fun _ _ => of_same rfl rfl) (fun _ => of_same rfl rfl)
    fun w _ => log w rfl).handshake

theorem disconnect : Spends Dials 0 (disconnect : M κ Unit) := by
  apply asks.toWaits.disconnect
  · exact fun _ => of_same rfl rfl
  · exact fun w _ => log w rfl
  · exact fun _ _ => of_same rfl rfl
  · exact fun w _ _ => log w rfl
  · intro w l
    have hclose : Dials 0 w (w.close l) := of_same rfl rfl
    exact graded.trans hclose (log _ rfl)
  · exact fun w _ => log w rfl

theorem asyncPoll (includeStatic : Bool) :
    Spends Dials 0 (asyncPoll includeStatic : M κ ScooterState) :=
  asyncPoll_moves (fun _ _ _ => asks.request _ _) includeStatic

theorem establishConnection : Spends Dials 1 (establishConnection : M κ Nat) := by
  intro w
  apply Triple.iff_last.mp
  apply (asks.toWaits.establish w).mono
  · intro l w' h
    obtain ⟨w₁, rx, hwait, _, rfl⟩ := h
    have hlink : Dials 0 w₁ { w₁.setLink w₁.opened ⟨true, false, rx⟩ with
        opened := w₁.opened + 1 } := of_same rfl rfl
    have hopen := graded.trans hlink (dialled _ (.opened w₁.opened))
    have hboth := graded.trans hwait hopen
    exact hboth
  · intro e w' h
    obtain ⟨_, w₁, hwait, rfl⟩ := h
    have hboth := graded.trans hwait (dialled w₁ .notOpened)
    exact hboth
  · exact fun w' h => graded.mono (Nat.zero_le 1) h

theorem startNotify (l : Nat) : Spends Dials 0 (startNotify l : M κ Unit) :=
  asks.toWaits.awaitCall (fun _ => of_same rfl rfl) fun _ w => log w rfl

omit [Cipher κ] in
theorem getRxCharacteristic : Spends Dials 0 (getRxCharacteristic : M κ (Option Nat)) := by
  apply Spends.get_bind graded
  intro w
  cases w.self.client with
  | none => exact Spends.raise graded _
  | some l =>
    dsimp only
    cases (w.links l).rx with
    | raises f => exact Spends.raise graded _
    | missing => exact Spends.pure graded _
    | found size => exact Spends.pure graded _

/-- One attempt to open a link dials once. -/
theorem connectTransport : Spends Dials 1 (connectTransport : M κ Unit) := by
  have hopen : Spends Dials 1 (do
      let l ← Ninebot.establishConnection
      Coro.modify (·.setClient (some l))
      Ninebot.startNotify l : M κ Unit) := by
    apply Spends.bind_free graded establishConnection
    intro l
    apply Spends.modify_bind graded
    · exact fun _ => of_same rfl rfl
    · exact fun _ => startNotify l
  apply Spends.modify_bind graded
  · intro w
    have hclear : Dials 0 w (w.log .cleared) := log w rfl
    have hreset : Dials (0 + 0) w w.resetTransport := graded.trans hclear (of_same rfl rfl)
    exact hreset
  intro _
  -- Of all its steps only the first one dials.
  apply Spends.bind_free graded (Spends.attempt hopen)
  intro outcome
  cases outcome with
  | error err =>
    apply Spends.modify_bind graded
    · exact fun _ => of_same rfl rfl
    · exact fun _ => Spends.raise graded _
  | ok _ =>
    apply Spends.free_bind graded getRxCharacteristic
    intro size
    cases size with
    | none => exact Spends.free_bind graded disconnect fun _ => Spends.raise graded _
    | some size => exact Spends.modify fun _ => of_same rfl rfl

omit [Cipher κ] in
theorem discardKey : Spends Dials 0 (discardKey : M κ Unit) := by
  intro w
  show Dials 0 w w.discarded
  exact World.discarded_of (fun w _ => log w rfl) (fun _ _ => of_same rfl rfl) w

/-- A rejected key costs a second attempt, and no third. -/
theorem connect : Spends Dials 2 (connect : M κ Unit) := by
  have hagain : Spends Dials 1 (do
      Ninebot.discardKey
      Ninebot.disconnect
      Ninebot.connectTransport
      Ninebot.handshake : M κ Unit) :=
    Spends.free_bind graded discardKey fun _ => Spends.free_bind graded disconnect fun _ =>
      Spends.bind_free graded connectTransport fun _ => handshake
  show Spends Dials (1 + 1) _
  apply Spends.bind graded connectTransport
  intro _
  apply Spends.free_bind graded (Spends.attempt handshake)
  intro outcome
  cases outcome with
  | ok _ => exact (Spends.pure graded _).mono graded (Nat.zero_le 1)
  | error err =>
    apply Spends.get_bind graded
    intro w
    split
    · exact hagain
    · exact (Spends.raise graded _).mono graded (Nat.zero_le 1)

end Dials

/-- The same for the client of a coordinator. -/
def HomeDials (n : Nat) (home home' : Home κ) : Prop := Dials n home.world home'.world

namespace HomeDials

theorem graded : Graded (HomeDials (κ := κ)) where
  refl home := Dials.graded.refl home.world
  trans h h' := Dials.graded.trans h h'
  mono hle h := Dials.graded.mono hle h

theorem client {α : Type} {m : M κ α} {n : Nat} (h : Spends Dials n m) :
    Spends HomeDials n (H.client m) :=
  h.zoom fun _ _ hs => hs

theorem setCoordinator (f : Coordinator → Coordinator) :
    Spends HomeDials 0 (H.setCoordinator f : H κ Unit) :=
  Spends.modify fun home => Dials.graded.refl home.world

theorem log (level : LogLevel) (text : String) :
    Spends HomeDials 0 (H.log level text : H κ Unit) := by
  apply Spends.get_bind graded
  intro home
  exact client (Spends.modify fun w => Dials.log w rfl)

theorem markFailed (level : LogLevel) (text : String) :
    Spends HomeDials 0 (markFailed level text : H κ Unit) := by
  apply Spends.get_bind graded
  intro home
  split
  · exact Spends.free_bind graded (log level text) fun _ => setCoordinator _
  · exact Spends.pure graded _

variable [Cipher κ]

theorem ensureConnected : Spends HomeDials 2 (ensureConnected : H κ Bool) := by
  apply Spends.get_bind graded
  intro home
  split
  · exact (Spends.pure graded _).mono graded (Nat.zero_le 2)
  · apply Spends.bind_free graded (client Dials.connect)
    intro _
    have hpersist : Spends HomeDials 0 (persistAppKey : H κ Unit) := by
      intro home
      rw [persistAppKey_eq]
      exact Dials.graded.refl home.world
    exact Spends.free_bind graded hpersist fun _ => Spends.pure graded _

theorem asyncUpdate : Spends HomeDials 2 (asyncUpdate : H κ Unit) := by
  apply Spends.bind_free graded ensureConnected
  intro firstPoll
  apply Spends.free_bind graded (client (Dials.asyncPoll firstPoll))
  intro snapshot
  apply Spends.free_bind graded (setCoordinator _)
  intro _
  split
  · exact Spends.modify fun home => Dials.graded.refl home.world
  · exact Spends.pure graded _

theorem dropConnection : Spends HomeDials 0 (dropConnection : H κ Unit) :=
  Spends.free_bind graded (Spends.attempt (client Dials.disconnect)) fun _ => Spends.pure graded _

/-- A poll dials the scooter at most twice, however it ends. -/
theorem coordinatorPoll : Spends HomeDials 2 (coordinatorPoll : H κ Unit) := by
  apply Spends.bind_free graded (Spends.attempt asyncUpdate)
  intro outcome
  cases outcome with
  | error err =>
    have hfailed : ∀ level text, Spends HomeDials 0 (do
        Ninebot.markFailed level text
        Ninebot.dropConnection : H κ Unit) := fun level text =>
      Spends.free_bind graded (markFailed level text) fun _ => dropConnection
    dsimp only
    split
    · exact Spends.free_bind graded (setCoordinator _) fun _ => hfailed _ _
    · split
      · exact hfailed _ _
      · exact hfailed _ _
  | ok _ =>
    apply Spends.get_bind graded
    intro home
    split
    · exact Spends.pure graded _
    · exact Spends.free_bind graded (log _ _) fun _ => setCoordinator _

end HomeDials

/-! ## Options -/

def minPollInterval : Rat := 30

def maxPollInterval : Rat := 3600

/-- The form for the poll interval, with a `NumberSelector`. -/
structure OptionsForm where
  default : Rat
  min : Rat
  max : Rat

inductive OptionsResult where
  | createEntry (data : EntryOptions)
  | showForm (form : OptionsForm)

/-- `NinebotOptionsFlow.async_step_init` -/
def asyncStepInit (options : EntryOptions) (userInput : Option EntryOptions) : OptionsResult :=
  match userInput with
  | some data => .createEntry data
  | none =>
      let current := options.pollInterval.getD defaultPollInterval
      .showForm ⟨current, minPollInterval, maxPollInterval⟩

/-- The poll interval is one that the form lets pass. -/
def EntryOptions.Allowed (options : EntryOptions) : Prop :=
  minPollInterval ≤ options.interval ∧ options.interval ≤ maxPollInterval

instance (options : EntryOptions) : Decidable options.Allowed :=
  inferInstanceAs (Decidable (_ ∧ _))

/-! ## Home Assistant -/

def seconds (milliseconds : Nat) : Rat := milliseconds / 1000

/-- What the coordinator and the options flow leave to Home Assistant. -/
structure Scheduler where
  /-- `NumberSelector`: the form lets this number pass. -/
  accepts : OptionsForm → Rat → Bool
  /-- The second argument of `_needs_poll`, from `_last_poll` and the time of
      the advertisement. -/
  secondsSinceLastPoll : Option Nat → Nat → Option Rat
  /-- `_async_handle_bluetooth_event` of the base class: what is scheduled once
      `_needs_poll` has answered, by this interval. -/
  handleBluetoothEvent : Bool → Rat → Option Rat → Option Rat
  /-- Of what is scheduled, a poll by this interval begins; the rest stays scheduled. -/
  begins : Option Rat → Rat → Option Rat → Prop

/-- What Home Assistant documents of it. -/
structure Scheduler.Documented (hass : Scheduler) : Prop where
  /-- The selector keeps to its bounds. -/
  accepts : ∀ form value, hass.accepts form value = true → form.min ≤ value ∧ value ≤ form.max
  /-- The time counts from the last poll that was attempted. -/
  sinceLastPoll : ∀ last time,
    hass.secondsSinceLastPoll (some last) time = some (seconds time - seconds last)
  /-- A poll is scheduled only when it is needed. -/
  schedules : ∀ needed interval scheduled,
    hass.handleBluetoothEvent needed interval scheduled = scheduled ∨
      needed = true ∧ hass.handleBluetoothEvent needed interval scheduled = some interval
  /-- Only a poll that was scheduled begins, and once. -/
  begins : ∀ scheduled interval rest, hass.begins scheduled interval rest →
    scheduled = some interval ∧ rest = none

/-- A poll that is needed is scheduled, and begins at some later moment. -/
def Scheduler.eager : Scheduler where
  accepts form value := decide (form.min ≤ value) && decide (value ≤ form.max)
  secondsSinceLastPoll lastPoll time := lastPoll.map fun last => seconds time - seconds last
  handleBluetoothEvent needed interval scheduled := if needed then some interval else scheduled
  begins scheduled interval rest := scheduled = some interval ∧ rest = none

theorem Scheduler.eager_documented : Scheduler.eager.Documented where
  accepts form value h := by
    have hboth := Bool.and_eq_true_iff.mp h
    exact ⟨of_decide_eq_true hboth.1, of_decide_eq_true hboth.2⟩
  sinceLastPoll _ _ := rfl
  schedules needed interval scheduled := by
    cases needed with
    | false => exact Or.inl rfl
    | true => exact Or.inr ⟨rfl, rfl⟩
  begins _ _ _ h := h

/-- A user is shown the form, and submits a value that it accepts. -/
def Submitted (hass : Scheduler) (options options' : EntryOptions) : Prop :=
  ∃ form value, asyncStepInit options none = .showForm form ∧ hass.accepts form value = true ∧
    asyncStepInit options (some ⟨some value⟩) = .createEntry options'

theorem Submitted.allowed {hass : Scheduler} (hhass : hass.Documented)
    {options options' : EntryOptions} (h : Submitted hass options options') : options'.Allowed := by
  obtain ⟨form, value, hform, haccepts, hcreate⟩ := h
  cases hform
  cases hcreate
  exact hhass.accepts _ value haccepts

/-! ## The schedule -/

/-- A poll: when it began and ended, and the interval by which it was due. -/
structure PollTimes where
  begun : Nat
  ended : Nat
  interval : Rat

/-- The coordinator of an entry with the options of the entry, and with what
    its base class keeps.  Times are in milliseconds. -/
structure Schedule (κ : Type) where
  home : Home κ
  options : EntryOptions
  /-- `_last_poll` -/
  lastPoll : Option Nat
  /-- `hass.is_stopping` -/
  isStopping : Bool
  /-- A poll is scheduled, and was found due by this interval. -/
  scheduled : Option Rat
  /-- The polls so far, newest first. -/
  polls : List PollTimes

namespace Schedule

/-- A coordinator that has not polled yet. -/
def new (home : Home κ) (options : EntryOptions) : Schedule κ :=
  ⟨home, options, none, false, none, []⟩

def now (self : Schedule κ) : Nat := self.home.world.now

def dials (self : Schedule κ) : Nat := self.home.world.dials

/-- `_needs_poll` -/
def needsPoll (self : Schedule κ) (secondsSinceLastPoll : Option Rat) : Bool :=
  if self.isStopping then false
  else
    match secondsSinceLastPoll with
    | none => true
    | some since => decide (self.options.interval ≤ since)

/-- `_async_handle_bluetooth_event`: the hardware ID, and in the base class
    the question of whether to poll. -/
def advertise (hass : Scheduler) (self : Schedule κ) (time : Nat) (manufacturerData : Bytes) :
    Schedule κ :=
  let self := { self with home := { self.home with
    coordinator := self.home.coordinator.advertised manufacturerData } }
  let needed := self.needsPoll (hass.secondsSinceLastPoll self.lastPoll time)
  { self with
    scheduled := hass.handleBluetoothEvent needed self.options.interval self.scheduled }

variable [Cipher κ]

/-- `_async_poll` with its `finally`.  A poll that is cancelled is one that
    stays pending, and `finally` runs for it too. -/
def poll (self : Schedule κ) (interval : Rat) (rest : Option Rat) : Schedule κ :=
  let home := (coordinatorPoll self.home).2
  { self with
    home := home
    lastPoll := some home.world.now
    scheduled := rest
    polls := ⟨self.now, home.world.now, interval⟩ :: self.polls }

/-- What happens to a coordinator that is set up. -/
inductive Next (hass : Scheduler) (self : Schedule κ) : Schedule κ → Prop
  | between {home : Home κ} : Between self.home home → Next hass self { self with home := home }
  | submitted {options : EntryOptions} : Submitted hass self.options options →
      Next hass self { self with options := options }
  | stopped : Next hass self { self with isStopping := true }
  | advertised {time : Nat} (manufacturerData : Bytes) : time ≤ self.now →
      Next hass self (self.advertise hass time manufacturerData)
  | polled {interval : Rat} {rest : Option Rat} : hass.begins self.scheduled interval rest →
      Next hass self (self.poll interval rest)

/-- The states of one process. -/
inductive Run (hass : Scheduler) : Schedule κ → Schedule κ → Prop
  | start {s : Schedule κ} : Run hass s s
  | next {s s' s'' : Schedule κ} : Run hass s s' → Next hass s' s'' → Run hass s s''

/-! ## What one step does -/

variable {hass : Scheduler} {s s' s'' : Schedule κ}

theorem between_dials {home home' : Home κ} (h : Between home home') : HomeDials 0 home home' := by
  cases h with
  | event e =>
    exact Dials.hears.apply e home.world fun _ => by
      have hdetach : Dials 0 home.world (home.world.setClient none) := Dials.of_same rfl rfl
      exact Dials.graded.trans hdetach (Dials.log _ rfl)
  | supply script gas => exact Dials.of_same rfl rfl
  | advertised manufacturerData => exact Dials.graded.refl home.world

omit [Cipher κ] in
/-- An advertisement schedules a poll that is due, or nothing. -/
theorem advertise_cases (hhass : hass.Documented) (s : Schedule κ) (time : Nat)
    (manufacturerData : Bytes) :
    ∃ coordinator scheduled, s.advertise hass time manufacturerData =
        { s with home := { s.home with coordinator := coordinator }, scheduled := scheduled } ∧
      (scheduled = s.scheduled ∨ scheduled = some s.options.interval ∧ s.isStopping = false ∧
        ∀ last, s.lastPoll = some last → s.options.interval ≤ seconds time - seconds last) := by
  refine ⟨_, _, rfl, ?_⟩
  rcases hhass.schedules _ s.options.interval s.scheduled with hsame | ⟨hneeds, hset⟩
  · exact Or.inl hsame
  · refine Or.inr ⟨hset, ?_⟩
    unfold needsPoll at hneeds
    dsimp only at hneeds
    split at hneeds
    · cases hneeds
    · rename_i hrunning
      refine ⟨eq_false_of_ne_true hrunning, ?_⟩
      intro last hlast
      rw [hlast, hhass.sinceLastPoll] at hneeds
      exact of_decide_eq_true hneeds

/-- From one moment to a later one, with the polls that began in between. -/
structure Later (s s' : Schedule κ) (new : List PollTimes) : Prop where
  now : s.now ≤ s'.now
  polls : s'.polls = new ++ s.polls
  begun : ∀ p ∈ new, s.now ≤ p.begun ∧ p.begun ≤ s'.now
  dials : s'.dials ≤ s.dials + 2 * new.length

omit [Cipher κ] in
theorem Later.trans {new new' : List PollTimes} (h : Later s s' new) (h' : Later s' s'' new') :
    Later s s'' (new' ++ new) := by
  have hdials := h.dials
  have hdials' := h'.dials
  refine ⟨h.now.trans h'.now, ?_, ?_, ?_⟩
  · rw [h'.polls, h.polls, List.append_assoc]
  · intro p hp
    rcases List.mem_append.mp hp with hnew | hold
    · exact ⟨h.now.trans (h'.begun p hnew).1, (h'.begun p hnew).2⟩
    · exact ⟨(h.begun p hold).1, (h.begun p hold).2.trans h'.now⟩
  · rw [List.length_append]
    omega

omit [Cipher κ] in
/-- The moment of a step that polls nothing. -/
theorem Later.idle (hdials : HomeDials 0 s.home s'.home) (hpolls : s'.polls = s.polls) :
    Later s s' [] := ⟨hdials.now, hpolls, nofun, hdials.dials⟩

theorem poll_later (s : Schedule κ) (interval : Rat) (rest : Option Rat) :
    Later s (s.poll interval rest) [⟨s.now, (s.poll interval rest).now, interval⟩] := by
  have hpoll : HomeDials 2 s.home (s.poll interval rest).home := HomeDials.coordinatorPoll s.home
  refine ⟨hpoll.now, rfl, ?_, hpoll.dials⟩
  intro p hp
  obtain rfl := List.mem_singleton.mp hp
  exact ⟨Nat.le_refl _, hpoll.now⟩

/-- A step polls nothing, or what was scheduled. -/
theorem Next.later (hhass : hass.Documented) (h : Next hass s s') : Later s s' [] ∨
    ∃ interval, s.scheduled = some interval ∧ s' = s.poll interval none := by
  cases h with
  | between hbetween => exact Or.inl (Later.idle (between_dials hbetween) rfl)
  | submitted _ => exact Or.inl (Later.idle (HomeDials.graded.refl _) rfl)
  | stopped => exact Or.inl (Later.idle (HomeDials.graded.refl _) rfl)
  | @advertised time manufacturerData _ =>
    obtain ⟨coordinator, scheduled, heq, _⟩ := advertise_cases hhass s time manufacturerData
    rw [heq]
    exact Or.inl (Later.idle (Dials.graded.refl s.home.world) rfl)
  | polled hbegins =>
    obtain ⟨hscheduled, rfl⟩ := hhass.begins _ _ _ hbegins
    exact Or.inr ⟨_, hscheduled, rfl⟩

theorem Run.later (hhass : hass.Documented) (h : Run hass s s') : ∃ new, Later s s' new := by
  induction h with
  | start => exact ⟨[], Later.idle (HomeDials.graded.refl _) rfl⟩
  | next _ hnext ih =>
    obtain ⟨new, hlater⟩ := ih
    rcases hnext.later hhass with hidle | ⟨interval, _, rfl⟩
    · exact ⟨_, hlater.trans hidle⟩
    · exact ⟨_, hlater.trans (poll_later _ interval none)⟩

/-! ## Every run -/

/-- A poll began no sooner after the end of the one before it than its interval. -/
def Spaced (later earlier : PollTimes) : Prop :=
  later.interval ≤ seconds later.begun - seconds earlier.ended

/-- The polls so far, and the poll that is scheduled, were due when they were
    scheduled. -/
structure Sound (s : Schedule κ) : Prop where
  allowed : s.options.Allowed
  least : ∀ p ∈ s.polls, minPollInterval ≤ p.interval
  ended : ∀ p ∈ s.polls, p.begun ≤ p.ended
  spaced : s.polls.IsChain Spaced
  last : s.lastPoll = s.polls.head?.map PollTimes.ended
  scheduled : ∀ interval, s.scheduled = some interval → minPollInterval ≤ interval ∧
    ∀ last ∈ s.polls.head?, interval ≤ seconds s.now - seconds last.ended

omit [Cipher κ] in
theorem seconds_le {t t' : Nat} (h : t ≤ t') : seconds t ≤ seconds t' := by
  unfold seconds
  have hcast : (t : Rat) ≤ t' := by exact_mod_cast h
  linarith

omit [Cipher κ] in
theorem new_sound (home : Home κ) {options : EntryOptions} (h : options.Allowed) :
    (new home options).Sound :=
  ⟨h, nofun, nofun, List.IsChain.nil, rfl, nofun⟩

omit [Cipher κ] in
/-- What is scheduled stays due. -/
theorem Sound.elapse (h : s.Sound) (hnow : s.now ≤ s'.now) (hallowed : s'.options.Allowed)
    (hpolls : s'.polls = s.polls) (hlast : s'.lastPoll = s.lastPoll)
    (hscheduled : s'.scheduled = s.scheduled) : s'.Sound := by
  refine ⟨hallowed, ?_, ?_, ?_, ?_, ?_⟩
  · rw [hpolls]
    exact h.least
  · rw [hpolls]
    exact h.ended
  · rw [hpolls]
    exact h.spaced
  · rw [hpolls, hlast]
    exact h.last
  · rw [hpolls, hscheduled]
    intro interval hinterval
    obtain ⟨hleast, hdue⟩ := h.scheduled interval hinterval
    refine ⟨hleast, ?_⟩
    -- Time only adds to what has passed since the last poll.
    intro last hhead
    have hbefore := hdue last hhead
    have hlater := seconds_le hnow
    linarith

omit [Cipher κ] in
theorem advertise_sound (hhass : hass.Documented) (h : s.Sound) {time : Nat} (htime : time ≤ s.now)
    (manufacturerData : Bytes) : (s.advertise hass time manufacturerData).Sound := by
  obtain ⟨coordinator, scheduled, heq, hcases⟩ := advertise_cases hhass s time manufacturerData
  rw [heq]
  refine ⟨h.allowed, h.least, h.ended, h.spaced, h.last, ?_⟩
  intro interval hinterval
  rcases hcases with rfl | ⟨rfl, _, hdue⟩
  · exact h.scheduled interval hinterval
  · obtain rfl := Option.some.inj hinterval
    refine ⟨h.allowed.1, ?_⟩
    intro last hhead
    have hlast : s.lastPoll = some last.ended := by
      rw [h.last, hhead]
      rfl
    -- An advertisement may be older than the moment it is handled.
    have hbefore := hdue last.ended hlast
    have hlater := seconds_le htime
    show s.options.interval ≤ seconds s.now - seconds last.ended
    linarith

theorem poll_sound (h : s.Sound) {interval : Rat} (hscheduled : s.scheduled = some interval) :
    (s.poll interval none).Sound := by
  have hpoll : HomeDials 2 s.home (s.poll interval none).home := HomeDials.coordinatorPoll s.home
  obtain ⟨hleast, hdue⟩ := h.scheduled interval hscheduled
  refine ⟨h.allowed, ?_, ?_, ?_, rfl, nofun⟩
  · intro p hp
    rcases List.mem_cons.mp hp with rfl | hold
    · exact hleast
    · exact h.least p hold
  · intro p hp
    rcases List.mem_cons.mp hp with rfl | hold
    · exact hpoll.now
    · exact h.ended p hold
  · -- What was due when it was scheduled is due when the poll begins.
    show (⟨s.now, (s.poll interval none).now, interval⟩ :: s.polls : List PollTimes).IsChain Spaced
    apply List.IsChain.cons h.spaced
    exact hdue

theorem Next.sound (hhass : hass.Documented) (hnext : Next hass s s') (h : s.Sound) :
    s'.Sound := by
  cases hnext with
  | between hbetween => exact h.elapse (between_dials hbetween).now h.allowed rfl rfl rfl
  | submitted hsubmitted => exact h.elapse (Nat.le_refl _) (hsubmitted.allowed hhass) rfl rfl rfl
  | stopped => exact h.elapse (Nat.le_refl _) h.allowed rfl rfl rfl
  | advertised manufacturerData htime => exact advertise_sound hhass h htime manufacturerData
  | polled hbegins =>
    obtain ⟨hscheduled, rfl⟩ := hhass.begins _ _ _ hbegins
    exact poll_sound h hscheduled

theorem Run.sound (hhass : hass.Documented) (hrun : Run hass s s') (h : s.Sound) : s'.Sound := by
  induction hrun with
  | start => exact h
  | next _ hnext ih => exact hnext.sound hhass ih

/-! ### Two polls of a scooter that is out of range -/

def outOfRange : Schedule StubCrypto :=
  let dropped := [.answer (.fail linkFault), .answer (.fail linkFault)]
  new ⟨World.ofScript (fakeClient none) dropped, ⟨"E2 Pro 0216", "C0:FF:EE:00:00:01", none, none⟩,
    Coordinator.make "C0:FF:EE:00:00:01" "E2 Pro 0216"⟩ ⟨none⟩

def polledOnce : Schedule StubCrypto := (outOfRange.advertise .eager 0 []).poll 120 none

/-- Two minutes later. -/
def elapsed : Schedule StubCrypto :=
  { polledOnce with home := { polledOnce.home with
    world := polledOnce.home.world.apply (.tick 120000) } }

def polledTwice : Schedule StubCrypto := (elapsed.advertise .eager 120000 []).poll 120 none

theorem outOfRange_polledTwice : Run .eager outOfRange polledTwice := by
  have honce : Run .eager outOfRange polledOnce :=
    (Run.start.next (.advertised [] (Nat.le_refl 0))).next (.polled ⟨rfl, rfl⟩)
  have helapsed : Run .eager outOfRange elapsed := honce.next (.between (.event (.tick 120000)))
  have hnow : 120000 ≤ elapsed.now := by decide +kernel
  have hscheduled : (elapsed.advertise .eager 120000 []).scheduled = some 120 := by decide +kernel
  exact (helapsed.next (.advertised [] hnow)).next (.polled ⟨hscheduled, rfl⟩)

theorem default_allowed : (⟨none⟩ : EntryOptions).Allowed := by decide

/-- However the polls end, and however often the user changes the interval,
    each poll begins no sooner after the end of the one before it than the
    interval by which it was found due, and that is no less than the least. -/
theorem polls_spaced (hhass : hass.Documented) (home : Home κ) {options : EntryOptions}
    (hallowed : options.Allowed) (hrun : Run hass (new home options) s) :
    (∀ p ∈ s.polls, minPollInterval ≤ p.interval ∧ p.begun ≤ p.ended) ∧
      s.polls.IsChain Spaced := by
  have hsound := hrun.sound hhass (new_sound home hallowed)
  exact ⟨fun p hp => ⟨hsound.least p hp, hsound.ended p hp⟩, hsound.spaced⟩

theorem polls_spaced_twice :
    (∀ p ∈ polledTwice.polls, minPollInterval ≤ p.interval ∧ p.begun ≤ p.ended) ∧
      polledTwice.polls.IsChain Spaced :=
  polls_spaced Scheduler.eager_documented outOfRange.home default_allowed outOfRange_polledTwice

omit [Cipher κ] in
/-- The polls of a run begin at least thirty seconds apart. -/
theorem Sound.paced (h : s.Sound) {new old : List PollTimes} (hpolls : s.polls = new ++ old) :
    Paced 30000 (new.reverse.map PollTimes.begun) := by
  have hmem : ∀ p ∈ new, p ∈ s.polls := by
    intro p hp
    rw [hpolls]
    exact List.mem_append_left _ hp
  have hchain : new.IsChain Spaced := by
    have hall := h.spaced
    rw [hpolls] at hall
    exact hall.left_of_append
  have hbegun : new.IsChain fun later earlier => earlier.begun + 30000 ≤ later.begun := by
    -- From end to begin at least the interval, and a poll does not end before it begins.
    apply hchain.imp_of_mem_imp
    intro later earlier hlater hearlier hspaced
    have hleast := h.least later (hmem later hlater)
    have hended := seconds_le (h.ended earlier (hmem earlier hearlier))
    unfold Spaced at hspaced
    unfold minPollInterval at hleast
    unfold seconds at hspaced hended
    have hcast : ((earlier.begun + 30000 : Nat) : Rat) ≤ later.begun := by
      push_cast
      linarith
    exact_mod_cast hcast
  unfold Paced
  rw [List.isChain_map, List.isChain_reverse]
  exact hbegun

/-- However often the scooter advertises, whatever it answers and however the
    user changes the interval, it is dialled at most twice in every thirty
    seconds of a span of time, and twice more. -/
theorem dials_rationed (hhass : hass.Documented) (home : Home κ) {options : EntryOptions}
    (hallowed : options.Allowed) (hrun : Run hass (new home options) s) (hspan : Run hass s s')
    {span : Nat} (hnow : s'.now < s.now + span) :
    s'.dials ≤ s.dials + 2 * (span / 30000 + 1) := by
  have hsound := hspan.sound hhass (hrun.sound hhass (new_sound home hallowed))
  obtain ⟨new, hlater⟩ := hspan.later hhass
  have hpaced := hsound.paced hlater.polls
  have hwithin : ∀ t ∈ new.reverse.map PollTimes.begun, s.now ≤ t ∧ t < s.now + span := by
    intro t ht
    obtain ⟨p, hp, rfl⟩ := List.mem_map.mp ht
    have hbegun := hlater.begun p (List.mem_reverse.mp hp)
    exact ⟨hbegun.1, by omega⟩
  -- So many polls fit into the span, and each dials at most twice.
  have hfew := hpaced.length_le (by decide) hwithin
  rw [List.length_map, List.length_reverse] at hfew
  have hdials := hlater.dials
  omega

theorem dials_rationed_twice :
    polledTwice.dials ≤ outOfRange.dials + 2 * (120001 / 30000 + 1) :=
  dials_rationed Scheduler.eager_documented outOfRange.home default_allowed .start
    outOfRange_polledTwice (by decide +kernel)

/-! ## Home Assistant stops -/

/-- The polls that can still begin. -/
def outstanding (s : Schedule κ) : Nat := if s.scheduled.isSome then 1 else 0

/-- Home Assistant is stopping, and the polls since `s` are among those that
    were outstanding. -/
structure WindsDown (s s' : Schedule κ) : Prop where
  stopping : s'.isStopping = true
  polls : s'.polls.length + s'.outstanding ≤ s.polls.length + s.outstanding
  dials : s'.dials + 2 * s.polls.length ≤ s.dials + 2 * s'.polls.length

theorem WindsDown.next (hhass : hass.Documented) (h : WindsDown s s') (hnext : Next hass s' s'') :
    WindsDown s s'' := by
  have hpolls := h.polls
  have hdials := h.dials
  cases hnext with
  | between hbetween =>
    have hfree : HomeDials 0 _ _ := between_dials hbetween
    exact ⟨h.stopping, hpolls, Nat.le_trans (Nat.add_le_add_right hfree.dials _) hdials⟩
  | submitted _ => exact ⟨h.stopping, hpolls, hdials⟩
  | stopped => exact ⟨rfl, hpolls, hdials⟩
  | @advertised time manufacturerData _ =>
    obtain ⟨coordinator, scheduled, heq, hcases⟩ := advertise_cases hhass s' time manufacturerData
    rw [heq]
    rcases hcases with rfl | ⟨_, hrunning, _⟩
    · exact ⟨h.stopping, hpolls, hdials⟩
    · -- Nothing is scheduled any more.
      rw [h.stopping] at hrunning
      cases hrunning
  | @polled interval rest hbegins =>
    obtain ⟨hscheduled, rfl⟩ := hhass.begins _ _ _ hbegins
    have hlater := poll_later s' interval none
    have hone : s'.outstanding = 1 := by
      unfold outstanding
      rw [hscheduled]
      rfl
    have hnone : (s'.poll interval none).outstanding = 0 := rfl
    have hlength : (s'.poll interval none).polls.length = s'.polls.length + 1 := by
      rw [hlater.polls]
      simp
    have hdialled := hlater.dials
    rw [List.length_singleton] at hdialled
    exact ⟨h.stopping, by omega, by omega⟩

/-- Once Home Assistant is stopping, at most the poll that was scheduled is
    begun, and without one the scooter is never dialled again. -/
theorem stopped_for_good (hhass : hass.Documented) (hstopping : s.isStopping = true)
    (hrun : Run hass s s') :
    s'.polls.length ≤ s.polls.length + s.outstanding ∧
      s'.dials ≤ s.dials + 2 * s.outstanding := by
  have hdown : WindsDown s s' := by
    induction hrun with
    | start => exact ⟨hstopping, Nat.le_refl _, Nat.le_refl _⟩
    | next _ hnext ih => exact ih.next hhass hnext
  have hpolls := hdown.polls
  have hdials := hdown.dials
  exact ⟨by omega, by omega⟩

/-- Home Assistant stops when a poll is scheduled. -/
theorem stopped_for_good_scheduled :
    let stopping := { outOfRange.advertise .eager 0 [] with isStopping := true }
    (stopping.poll 120 none).polls.length ≤ stopping.polls.length + stopping.outstanding ∧
      (stopping.poll 120 none).dials ≤ stopping.dials + 2 * stopping.outstanding :=
  stopped_for_good Scheduler.eager_documented rfl (Run.start.next (.polled ⟨rfl, rfl⟩))

end Schedule

end Ninebot
