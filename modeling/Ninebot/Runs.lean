import Ninebot.Coordinator
import Ninebot.Connect

/-! # Runs of the coordinator

    A run is any number of polls, one after the other, with events in between.
    Its last poll may still be going on: the state in which it is suspended is
    the last state of a pending `coordinatorPoll`.

    This file defines:
    - `coordinatorPoll_triple`: one poll, from its update
    - `Keeps`, `Tries`: what one poll keeps, from what the methods of the
      client keep
    - `Polls`: the states between the polls of one process
    - `Lives`: the states of a run with restarts -/

namespace Ninebot

open Coro

variable {κ : Type}

/-! ## One poll -/

/-- Every class of exceptions is caught by `except Exception`. -/
theorem Exc.isInstance_exception (e : Exc) : e.isInstance [.exception] = true := by
  rcases e with ⟨cls, msg⟩
  cases cls <;> rfl

/-- The entry after `_persist_app_key`. -/
def ConfigEntry.persisted (self : ConfigEntry) (appKey : Bytes) : ConfigEntry :=
  { self with appKey := some (hexLower appKey) }

theorem persistAppKey_eq (home : Home κ) :
    persistAppKey home =
      (.ret (), { home with entry := home.entry.persisted home.world.self.appKey }) := by
  rw [persistAppKey, get_bind]
  by_cases hsame : home.entry.appKey = some (hexLower home.world.self.appKey)
  · have hentry : home.entry.persisted home.world.self.appKey = home.entry := by
      rw [ConfigEntry.persisted, ← hsame]
    simp only [hsame, if_true, hentry]
    rfl
  · simp only [hsame, if_false]
    rfl

/-- A line in the log. -/
def Home.say (home : Home κ) (level : LogLevel) (text : String) : Home κ :=
  { home with world := home.world.log (.log level (home.entry.title ++ text)) }

/-- After an update that raised: is a pairing required? -/
def Home.flag (home : Home κ) (e : Exc) : Home κ :=
  if e.isInstance [.ninebotPairingRequiredError] then
    { home with coordinator := { home.coordinator with pairingRequired := true } }
  else home

/-- The poll has failed, which is said if the last one had not. -/
def Home.mark (home : Home κ) (level : LogLevel) (text : String) : Home κ :=
  if home.coordinator.lastPollSuccessful then
    { home.say level text with
      coordinator := { home.coordinator with lastPollSuccessful := false } }
  else home

/-- The poll has succeeded, which is said if the last one had not. -/
def Home.backOnline (home : Home κ) : Home κ :=
  if home.coordinator.lastPollSuccessful then home
  else { home.say .info " is back online" with
    coordinator := { home.coordinator with lastPollSuccessful := true } }

theorem markFailed_eq (level : LogLevel) (text : String) (home : Home κ) :
    markFailed level text home = (.ret (), home.mark level text) := by
  unfold markFailed Home.mark
  rw [get_bind]
  split <;> rfl

section Poll

variable [Cipher κ]

/-- One poll from its update: the flags are set and the lines are logged, and
    after an update that raised the link is dropped. -/
theorem coordinatorPoll_triple {home : Home κ} {A Q : Home κ → Prop} {X E : Exc → Home κ → Prop}
    {C : Home κ → Prop} (hupdate : Triple asyncUpdate home (fun _ => A) X C)
    (hok : ∀ home₁, A home₁ → Q home₁.backOnline)
    (hfailed : ∀ e home₁ level text, X e home₁ →
      Triple dropConnection ((home₁.flag e).mark level text) (fun _ => Q) E C) :
    Triple coordinatorPoll home (fun _ => Q) E C := by
  apply Triple.attempt_bind (X := X) (hupdate.mono_raised _)
  · intro _ home₁ h₁
    apply Triple.get_bind
    have hQ := hok home₁ h₁
    unfold Home.backOnline at hQ
    split
    · rw [if_pos ‹_›] at hQ
      exact Triple.pure hQ
    · rw [if_neg ‹_›] at hQ
      exact hQ
  · intro e home₁ h₁
    have hmarked : ∀ level text, Triple (do
        markFailed level text
        dropConnection) (home₁.flag e) (fun _ => Q) E C := by
      intro level text
      unfold Triple
      rw [bind_of_ret (markFailed_eq level text _)]
      exact hfailed e home₁ level text h₁
    -- The three handlers differ in the flag and in the text.
    by_cases hpairing : e.isInstance [.ninebotPairingRequiredError]
    · simp only [Home.flag, hpairing, if_true] at hmarked ⊢
      exact Triple.modify_bind (hmarked _ _)
    · by_cases hninebot : e.isInstance [.ninebotError]
      · simp only [Home.flag, hpairing, hninebot, if_true] at hmarked ⊢
        exact hmarked _ _
      · simp only [Home.flag, hpairing, hninebot] at hmarked ⊢
        exact hmarked _ _
  · intro e home₁ h₁
    rw [if_pos (Exc.isInstance_exception e)]
    exact h₁

omit [Cipher κ] in
theorem client_triple {α : Type} {m : M κ α} {home : Home κ}
    {Q : α → World κ → ConfigEntry → Prop} {E C : World κ → ConfigEntry → Prop}
    (h : Triple m home.world (fun a w' => Q a w' home.entry) (fun _ w' => E w' home.entry)
      (fun w' => C w' home.entry)) :
    Triple (H.client m) home (fun a home' => Q a home'.world home'.entry)
      (fun _ home' => E home'.world home'.entry) (fun home' => C home'.world home'.entry) :=
  Triple.zoom h

/-- What polls keep: `I` holds between polls, `J` while a poll is going on or
    after it has failed.  Neither looks at the coordinator's own fields. -/
structure Keeps (I J : World κ → ConfigEntry → Prop) : Prop where
  weaken : ∀ w c, I w c → J w c
  log : ∀ w c level text, J w c → J (w.log (.log level text)) c
  logged : ∀ w c level text, I w c → I (w.log (.log level text)) c
  connect : ∀ w c, I w c → w.isConnected = false → Triple connect w
    (fun _ w' => I w' (c.persisted w'.self.appKey)) (fun _ w' => J w' c) (fun w' => J w' c)
  poll : ∀ w c includeStatic, I w c → Triple (asyncPoll includeStatic) w
    (fun _ w' => I w' c) (fun _ w' => J w' c) (fun w' => J w' c)
  drop : ∀ w c, J w c → Triple disconnect w (fun _ w' => I w' c) (fun _ w' => I w' c)
    (fun w' => J w' c)

/-- The same, with `J` only for an update that has failed and a third
    predicate `C` for the moments at which a poll is suspended. -/
structure Tries (I J C : World κ → ConfigEntry → Prop) : Prop where
  log : ∀ w c level text, J w c → J (w.log (.log level text)) c
  logged : ∀ w c level text, I w c → I (w.log (.log level text)) c
  connect : ∀ w c, I w c → w.isConnected = false → Triple connect w
    (fun _ w' => I w' (c.persisted w'.self.appKey)) (fun _ w' => J w' c) (fun w' => C w' c)
  poll : ∀ w c includeStatic, I w c → Triple (asyncPoll includeStatic) w
    (fun _ w' => I w' c) (fun _ w' => J w' c) (fun w' => C w' c)
  drop : ∀ w c, J w c → Triple disconnect w (fun _ w' => I w' c) (fun _ w' => I w' c)
    (fun w' => C w' c)

namespace Tries

variable {I J C : World κ → ConfigEntry → Prop} (h : Tries I J C) {home : Home κ}
include h

theorem ensureConnected (hI : I home.world home.entry) :
    Triple ensureConnected home (fun _ home' => I home'.world home'.entry)
      (fun _ home' => J home'.world home'.entry) (fun home' => C home'.world home'.entry) := by
  apply Triple.get_bind
  by_cases hup : home.world.isConnected
  · simp only [hup, if_true]
    exact Triple.pure hI
  · simp only [hup]
    refine Triple.bind (client_triple (Q := fun _ w' c => I w' (c.persisted w'.self.appKey))
      (h.connect _ _ hI (by simpa using hup))) ?_
    intro _ home' hI'
    -- The key of the session that was set up is stored.
    have hpersist : Triple persistAppKey home' (fun _ home'' => I home''.world home''.entry)
        (fun _ home'' => J home''.world home''.entry)
        (fun home'' => C home''.world home''.entry) := by
      unfold Triple
      rw [persistAppKey_eq]
      exact hI'
    exact Triple.bind hpersist fun _ _ hI'' => Triple.pure hI''

theorem asyncUpdate (hI : I home.world home.entry) :
    Triple asyncUpdate home (fun _ home' => I home'.world home'.entry)
      (fun _ home' => J home'.world home'.entry) (fun home' => C home'.world home'.entry) := by
  refine Triple.bind (h.ensureConnected hI) fun firstPoll home₁ hI₁ => ?_
  refine Triple.bind (client_triple (Q := fun _ => I) (h.poll _ _ firstPoll hI₁))
    fun snapshot home₂ hI₂ => ?_
  apply Triple.modify_bind
  cases firstPoll with
  | true => exact Triple.modify hI₂
  | false => exact Triple.pure hI₂

theorem dropConnection (hJ : J home.world home.entry) :
    Triple dropConnection home (fun _ home' => I home'.world home'.entry)
      (fun _ _ => False) (fun home' => C home'.world home'.entry) := by
  refine Triple.bind (Q := fun _ home' => I home'.world home'.entry) (Triple.attempt ?_)
    fun _ _ hI => Triple.pure hI
  apply (client_triple (Q := fun _ => I) (h.drop _ _ hJ)).mono_raised
  intro e _ hI
  rw [if_pos (Exc.isInstance_exception e)]
  exact hI

theorem backOnline (hI : I home.world home.entry) :
    I home.backOnline.world home.backOnline.entry := by
  unfold Home.backOnline
  split
  · exact hI
  · exact h.logged _ _ _ _ hI

theorem mark (e : Exc) (level : LogLevel) (text : String) (hJ : J home.world home.entry) :
    J ((home.flag e).mark level text).world ((home.flag e).mark level text).entry := by
  have hflag : J (home.flag e).world (home.flag e).entry := by
    unfold Home.flag
    split <;> exact hJ
  unfold Home.mark
  split
  · exact h.log _ _ _ _ hflag
  · exact hflag

/-- A poll raises nothing; it ends in `I`. -/
theorem coordinatorPoll (hI : I home.world home.entry) :
    Triple coordinatorPoll home (fun _ home' => I home'.world home'.entry)
      (fun _ _ => False) (fun home' => C home'.world home'.entry) :=
  coordinatorPoll_triple (h.asyncUpdate hI) (fun _ hA => h.backOnline hA)
    fun e _ level text hX => h.dropConnection (h.mark e level text hX)

end Tries

namespace Keeps

variable {I J : World κ → ConfigEntry → Prop} (h : Keeps I J) {home : Home κ}
include h

theorem tries : Tries I J J where
  log := h.log
  logged := h.logged
  connect := h.connect
  poll := h.poll
  drop := h.drop

theorem coordinatorPoll (hI : I home.world home.entry) :
    Triple coordinatorPoll home (fun _ home' => I home'.world home'.entry)
      (fun _ _ => False) (fun home' => J home'.world home'.entry) :=
  h.tries.coordinatorPoll hI

/-- Whatever becomes of a poll, it ends in `J`. -/
theorem coordinatorPoll_last (hI : I home.world home.entry) :
    J (Ninebot.coordinatorPoll home).2.world (Ninebot.coordinatorPoll home).2.entry :=
  (h.coordinatorPoll hI).last (I := fun home' => J home'.world home'.entry)
    (fun _ _ hI' => h.weaken _ _ hI') (fun _ _ hfalse => hfalse.elim) (fun _ hJ => hJ)

end Keeps

end Poll

/-! ## Many polls -/

section Runs

variable [Cipher κ]

/-- A setup that succeeds has read the stored key, and has made a client and a
    coordinator of what the entry says. -/
theorem setupEntry_eq {home home' : Home κ} {deviceName : Option String}
    (h : setupEntry home deviceName = .ok home') :
    ∃ appKey, home.entry.storedKey = .ok appKey ∧ home' = { home with
      world := { home.world with
        self := Client.make home.entry.address ((home.entry.name.filter (· ≠ "")).or deviceName)
          deviceName appKey (home.world.secrets home.world.drawn)
        drawn := home.world.drawn + 1
        links := fun l => { home.world.links l with isConnected := false } }
      coordinator := Coordinator.make home.entry.address home.entry.title } := by
  unfold setupEntry at h
  rcases hkey : home.entry.storedKey with e | appKey
  · rw [hkey] at h
    cases h
  · rw [hkey] at h
    cases h
    exact ⟨appKey, rfl, rfl⟩

/-- What happens between polls: the event loop, a new part of the script, an
    advertisement. -/
inductive Between : Home κ → Home κ → Prop where
  | event {home : Home κ} (e : Event) : Between home { home with world := home.world.apply e }
  | supply {home : Home κ} (script : List Step) (gas : Nat) :
      Between home { home with world := { home.world with script := script, gas := gas } }
  | advertised {home : Home κ} (manufacturerData : Bytes) :
      Between home { home with coordinator := home.coordinator.advertised manufacturerData }

/-- The states between the polls of one process that began at `home₀`. -/
inductive Polls (home₀ : Home κ) : Home κ → Prop where
  | start : Polls home₀ home₀
  | between {home home' : Home κ} : Polls home₀ home → Between home home' → Polls home₀ home'
  | poll {home home' : Home κ} : Polls home₀ home → coordinatorPoll home = (.ret (), home') →
      Polls home₀ home'

/-- The states of a run with restarts.  A restart may come at any moment, also
    in the middle of a poll. -/
inductive Lives (home₀ : Home κ) : Home κ → Prop where
  | setup {home : Home κ} {deviceName : Option String} :
      setupEntry home₀ deviceName = .ok home → Lives home₀ home
  | between {home home' : Home κ} : Lives home₀ home → Between home home' → Lives home₀ home'
  | poll {home : Home κ} : Lives home₀ home → Lives home₀ (coordinatorPoll home).2
  | restart {home home' : Home κ} {deviceName : Option String} : Lives home₀ home →
      setupEntry home deviceName = .ok home' → Lives home₀ home'

end Runs

end Ninebot
