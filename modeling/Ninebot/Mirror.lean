import Ninebot.Histories
import Ninebot.Joining
import Ninebot.Layout
import Ninebot.Twins

/-! # What the scooter says is what is shown

    In the closed loop a poll reads the scooter's registers.  What the
    coordinator shows refines an abstract mirror, which knows nothing of
    frames, links and timers: one snapshot of the scooter for each poll.

    This file defines:
    - `Mirror`, `Mirror.poll`: what is shown of a scooter
    - `Reflects`: the coordinator, its client and the scooter, as a mirror
    - `Visits`: polls of one scooter, whose registers change in between -/

namespace Ninebot

open Coro FakeScooter

variable {l : Nat} {e : Air} {w : World StubCrypto}

/-! ## Polls -/

theorem hear_error {S : FakeScooter} {p : Packet} {x : Exc} (h : S.hear p = .error x) :
    x = timedOut := by
  unfold FakeScooter.hear at h
  split at h
  · cases h
  · cases h
    rfl

theorem walked_error {S : FakeScooter} {register : Register} {words : List Nat} {payload : Bytes}
    {x : Exc} (h : S.walked register words payload = .error x) : x = timedOut := by
  induction words generalizing payload with
  | nil => cases h
  | cons word words ih =>
    rw [FakeScooter.walked] at h
    rcases hhear : S.hear (readRequest register word 2) with y | response
    · rw [hhear] at h
      cases h
      exact hear_error hhear
    · rw [hhear] at h
      exact ih h

/-- A scooter that does not answer is all that can go wrong. -/
theorem outcome_error {S : FakeScooter} {register : Register} {x : Exc}
    (h : S.outcome register = .error x) : x = timedOut := by
  have hwalked : ∀ y, (S.walked register register.words []).map (·.take register.length) =
      .error y → y = timedOut := by
    intro y hy
    rcases hwords : S.walked register register.words [] with z | payload
    · rw [hwords] at hy
      cases hy
      exact walked_error hwords
    · rw [hwords] at hy
      cases hy
  unfold FakeScooter.outcome at h
  rcases hhear : S.hear (readRequest register 0 (UInt8.ofNat register.length)) with y | response
  · rw [hhear] at h
    dsimp only at h
    split at h
    · cases h
      exact hear_error hhear
    · exact hwalked x h
  · rw [hhear] at h
    dsimp only at h
    split at h
    · cases h
    · exact hwalked x h

/-- One turn of the loop of `async_poll`. -/
theorem pollLoop_turn_meets {env : Environment Air Step} {register : Register}
    {rest : List Register} {state : ScooterState} {n : Nat} {outcome : Outcome} {e₁ e₂ : Air}
    {w₁ w₂ : World StubCrypto} {res : Res Exc ScooterState} (hn : n < maxConsecutiveTimeouts)
    (hdecodes : register.Decodes) (hkind : ∀ x, outcome = .error x → x = timedOut)
    (hread : Meets env (readRegister register) e w (Res.ofExcept outcome) e₁ w₁)
    (hrest : if maxConsecutiveTimeouts ≤ outcome.count n then
        res = .raised ⟨.ninebotConnectionError,
          "Scooter stopped responding after " ++ register.key⟩ ∧
          e₁ = e₂ ∧ w₁ = w₂
      else Meets env (pollLoop rest (state.enter register outcome) (outcome.count n)) e₁ w₁ res
        e₂ w₂) :
    Meets env (pollLoop (register :: rest) state n) e w res e₂ w₂ := by
  have htry : Meets env (tryRead register) e w (.ret outcome) e₁ w₁ := by
    rcases outcome with x | payload
    · obtain rfl := hkind x rfl
      exact Meets.attempt_caught hread rfl
    · exact Meets.attempt hread
  obtain ⟨script₁, hplays₁, hrun₁⟩ := htry
  have hturn : ∀ more, pollLoop (register :: rest) state n (w.setScript (script₁ ++ more)) =
      if maxConsecutiveTimeouts ≤ outcome.count n then
        (.raised ⟨.ninebotConnectionError, "Scooter stopped responding after " ++ register.key⟩,
          w₁.setScript more)
      else pollLoop rest (state.enter register outcome) (outcome.count n) (w₁.setScript more) := by
    intro more
    have hrun : tryRead register (w.setScript (script₁ ++ more)) =
        (.ret outcome, w₁.setScript more) := hrun₁ more
    rw [pollLoop_turn hn hdecodes (congrArg Prod.fst hrun), hrun]
  -- The third timeout in a row ends the poll.
  by_cases hmany : maxConsecutiveTimeouts ≤ outcome.count n
  · rw [if_pos hmany] at hrest
    obtain ⟨rfl, rfl, rfl⟩ := hrest
    refine ⟨script₁, hplays₁, fun more => ?_⟩
    exact (hturn more).trans (if_pos hmany)
  · rw [if_neg hmany] at hrest
    obtain ⟨script₂, hplays₂, hrun₂⟩ := hrest
    refine ⟨script₁ ++ script₂, env.trans hplays₁ hplays₂, fun more => ?_⟩
    rw [List.append_assoc]
    exact (hturn _).trans ((if_neg hmany).trans (hrun₂ more))

/-- The loop of `async_poll` ends with the registers, or with three that are
    silent one after the other. -/
theorem pollLoop_meets {registers : List Register}
    (husable : ∀ register ∈ registers, register.Usable ∧ register.Decodes) {n : Nat}
    (hn : n < maxConsecutiveTimeouts) (state : ScooterState) (h : Meeting l e w) :
    ∃ res e' now trace, Meets (air l) (pollLoop registers state n) e w res e' (w.since now trace) ∧
      e.scooter.OnlyRead e'.scooter ∧ Meeting l e' (w.since now trace) ∧
      (¬ SilentAfter n (registers.map e.scooter.outcome) →
        res = .ret (state.enterAll (registers.zip (registers.map e.scooter.outcome)))) ∧
      (SilentAfter n (registers.map e.scooter.outcome) →
        ∃ x, res = .raised x ∧ x.cls = .ninebotConnectionError) := by
  induction registers generalizing e w n state with
  | nil =>
    refine ⟨_, e, w.now, w.trace, Meets.pure, OnlyRead.refl _, h, fun _ => rfl, fun hsilent => ?_⟩
    have hlen := hsilent.length_le
    simp at hlen
    omega
  | cons register registers ih =>
    obtain ⟨husable₁, hdecodes₁⟩ := husable register List.mem_cons_self
    obtain ⟨e₁, now₁, trace₁, hread, hasked₁, h₁⟩ := readRegister_meets husable₁ h
    have hread₁ := hasked₁.only
    have hkind : ∀ x, e.scooter.outcome register = .error x → x = timedOut :=
      fun _ hx => outcome_error hx
    have htimed : ∀ x, e.scooter.outcome register = .error x →
        x.isInstance [.ninebotTimeoutError] = true := by
      intro x hx
      rw [hkind x hx]
      rfl
    -- The counter is carried through the induction, as in the loop.
    rw [List.map_cons, silentAfter_cons hn htimed]
    by_cases hmany : maxConsecutiveTimeouts ≤ (e.scooter.outcome register).count n
    · refine ⟨.raised ⟨.ninebotConnectionError, "Scooter stopped responding after " ++
        register.key⟩, e₁, now₁, trace₁, pollLoop_turn_meets hn hdecodes₁ hkind hread ?_, hread₁,
        h₁, fun hno => absurd (Or.inl hmany) hno, fun _ => ⟨_, rfl, rfl⟩⟩
      rw [if_pos hmany]
      exact ⟨rfl, rfl, rfl⟩
    · obtain ⟨res, e₂, now₂, trace₂, hrest, hread₂, h₂, hreturns, hraises⟩ :=
        ih (fun r hr => husable r (List.mem_cons_of_mem _ hr)) (Nat.lt_of_not_le hmany)
          (state.enter register (e.scooter.outcome register)) h₁
      have hsame : e₁.scooter.outcome = e.scooter.outcome := by
        funext r
        exact hread₁.sameMemory.outcome
      rw [hsame] at hreturns hraises
      refine ⟨res, e₂, now₂, trace₂, pollLoop_turn_meets hn hdecodes₁ hkind hread ?_,
        hread₁.trans hread₂, h₂, fun hno => hreturns fun hsilent => hno (Or.inr hsilent), ?_⟩
      · rw [if_neg hmany]
        exact hrest
      · rintro (hsilent | hsilent)
        · exact absurd hsilent hmany
        · exact hraises hsilent

/-- `async_poll` against any scooter: it returns what the registers answer,
    unless three of them in a row do not. -/
theorem asyncPoll_meets (includeStatic : Bool) (h : Meeting l e w) :
    ∃ res e' now trace, Meets (air l) (asyncPoll includeStatic) e w res e' (w.since now trace) ∧
      e.scooter.OnlyRead e'.scooter ∧ Meeting l e' (w.since now trace) ∧
      (¬ Silent ((pollRegisters includeStatic).map e.scooter.outcome) →
        res = .ret (snapshot (pollRegisters includeStatic)
          ((pollRegisters includeStatic).map e.scooter.outcome))) ∧
      (Silent ((pollRegisters includeStatic).map e.scooter.outcome) →
        ∃ x, res = .raised x ∧ x.cls = .ninebotConnectionError) := by
  have husable : ∀ register ∈ pollRegisters includeStatic, register.Usable ∧ register.Decodes := by
    intro register hmem
    have hregister := mem_registers hmem
    exact ⟨registers_areUsable register hregister, (registers_decoder register hregister).decodes⟩
  obtain ⟨res, e', now, trace, hmeets, hread, hmeeting, hreturns, hraises⟩ :=
    pollLoop_meets husable (n := 0) (by decide) {} h
  refine ⟨res, e', now, trace, ?_, hread, hmeeting, hreturns, hraises⟩
  have hup := h.isConnected
  have hconnected : ∀ rest, (w.setScript rest).isConnected = w.isConnected := fun _ => rfl
  apply Meets.get_bind (fun _ => rfl)
  simp only [hup, if_true]
  exact hmeets

/-! ## The mirror -/

/-- What a poll of this scooter returns. -/
def FakeScooter.snapshot (self : FakeScooter) (includeStatic : Bool) : ScooterState :=
  Ninebot.snapshot (pollRegisters includeStatic) ((pollRegisters includeStatic).map self.outcome)

/-- Three registers of a poll, one after the other, are not answered. -/
def FakeScooter.Mute (self : FakeScooter) (includeStatic : Bool) : Prop :=
  Silent ((pollRegisters includeStatic).map self.outcome)

instance (S : FakeScooter) (includeStatic : Bool) : Decidable (S.Mute includeStatic) :=
  inferInstanceAs (Decidable (Silent _))

/-- What is shown of a scooter. -/
structure Mirror where
  state : ScooterState
  /-- The link is up. -/
  linked : Bool
  /-- The last poll succeeded. -/
  online : Bool

/-- The next poll reads the static registers as well. -/
def Mirror.first (self : Mirror) : Bool :=
  if self.linked then decide (self.state.values = ∅) else true

/-- A poll of a scooter. -/
def Mirror.poll (self : Mirror) (S : FakeScooter) : Mirror :=
  if S.Mute self.first then { self with linked := false, online := false }
  else { state := self.state.update (S.snapshot self.first), linked := true, online := true }

/-! ## One poll -/

instance : Scripted (Home StubCrypto) Step :=
  ⟨fun script home => { home with world := home.world.setScript script }⟩

section Poll

variable {env : Environment Air Step} {home home₁ : Home StubCrypto} {e₁ : Air} {first : Bool}

/-- A method of the client, called by the coordinator. -/
theorem client_meets {α : Type} {m : M StubCrypto α} {res : Res Exc α} {e' : Air}
    {w' : World StubCrypto} (h : Meets env m e home.world res e' w') :
    Meets env (H.client m) e home res e' { home with world := w' } :=
  Meets.zoom h (fun _ => rfl) fun _ _ _ => rfl

theorem persistAppKey_meets : Meets env persistAppKey e home (.ret ()) e
    { home with entry := home.entry.persisted home.world.self.appKey } :=
  Meets.of_eq fun _ => persistAppKey_eq _

/-- The client that has let go of its link, which is closed. -/
def World.parted (w : World StubCrypto) (l : Nat) : World StubCrypto :=
  ((((w.setClient none).log (.disconnecting l)).subscribe l false).close l).log (.disconnected l)

theorem disconnect_meets (h : Meeting l e w) :
    Meets (air l) disconnect e w (.ret ()) e.unsubscribe (w.parted l) := by
  refine ⟨_, .disconnect .done, fun rest => ?_⟩
  have hclient : ∀ script, (w.setScript script).self.client = some l := fun _ => h.client
  have hup : ∀ script, (w.setScript script).isUp l = true := fun _ => h.up
  show disconnect (w.setScript (.answer .ok :: .answer .ok :: rest)) = _
  rw [disconnect, Coro.get_bind, Coro.modify_bind, hclient]
  simp only [hup, if_true]
  rfl

theorem World.written_parted : (w.parted l).written = w.written := by
  simp [World.written, World.parted, World.log, World.close, World.subscribe, World.setLink,
    World.setClient]

theorem dropConnection_meets (h : Meeting l e home.world) :
    Meets (air l) dropConnection e home (.ret ()) e.unsubscribe
      { home with world := home.world.parted l } :=
  Meets.bind (Meets.attempt (client_meets (disconnect_meets h))) Meets.pure

theorem markFailed_meets (level : LogLevel) (text : String) :
    Meets env (markFailed level text) e home (.ret ()) e (home.mark level text) := by
  apply Meets.of_eq
  intro rest
  have hlast : (Scripted.supply rest home).coordinator.lastPollSuccessful =
      home.coordinator.lastPollSuccessful := rfl
  rw [markFailed_eq, Home.mark, Home.mark, hlast]
  split <;> rfl

/-- An update that finds or makes a link, and a scooter that is not mute. -/
theorem asyncUpdate_meets (hconnect : Meets (air l) ensureConnected e home (.ret first) e₁ home₁)
    (hmeeting : Meeting l e₁ home₁.world) (hheard : ¬ e₁.scooter.Mute first) :
    ∃ e' now trace, Meets (air l) asyncUpdate e home (.ret ()) e'
        { home₁ with
          world := home₁.world.since now trace
          coordinator := { home₁.coordinator.merged home₁.world.self first
            (e₁.scooter.snapshot first) with
              lastPollSuccessful := home₁.coordinator.lastPollSuccessful } } ∧
      e₁.scooter.OnlyRead e'.scooter ∧ Meeting l e' (home₁.world.since now trace) := by
  obtain ⟨res, e', now, trace, hpoll, hread, hmeeting', hreturns, _⟩ :=
    asyncPoll_meets first hmeeting
  obtain rfl := hreturns hheard
  refine ⟨e', now, trace, ?_, hread, hmeeting'⟩
  apply Meets.bind hconnect
  apply Meets.bind (client_meets hpoll)
  apply Meets.modify_bind (fun _ => rfl)
  -- Only the first poll builds the device information.
  cases first with
  | true =>
    let setInfo (home : Home StubCrypto) : Home StubCrypto :=
      { home with coordinator := { home.coordinator with
          info := home.world.self.buildInfo home.coordinator.state
            home.coordinator.hardwareIdOrDefault } }
    have hinfo : ∀ home : Home StubCrypto, Meets (air l) (Coro.modify setInfo : H StubCrypto Unit)
        e' home (.ret ()) e' (setInfo home) := fun _ => Meets.modify fun _ => rfl
    exact hinfo _
  | false => exact Meets.pure

/-- An update that finds or makes a link to a scooter that is mute. -/
theorem asyncUpdate_mute (hconnect : Meets (air l) ensureConnected e home (.ret first) e₁ home₁)
    (hmeeting : Meeting l e₁ home₁.world) (hmute : e₁.scooter.Mute first) :
    ∃ x e' now trace, x.cls = .ninebotConnectionError ∧
      Meets (air l) asyncUpdate e home (.raised x) e'
        { home₁ with world := home₁.world.since now trace } ∧
      e₁.scooter.OnlyRead e'.scooter ∧ Meeting l e' (home₁.world.since now trace) := by
  obtain ⟨res, e', now, trace, hpoll, hread, hmeeting', _, hraises⟩ :=
    asyncPoll_meets first hmeeting
  obtain ⟨x, rfl, hcls⟩ := hraises hmute
  refine ⟨x, e', now, trace, hcls, ?_, hread, hmeeting'⟩
  exact Meets.bind hconnect (Meets.bind_raised (client_meets hpoll))

theorem coordinatorPoll_meets {e' : Air} {home' : Home StubCrypto}
    (hupdate : Meets env asyncUpdate e home (.ret ()) e' home') :
    Meets env coordinatorPoll e home (.ret ()) e' home'.backOnline := by
  apply Meets.bind (Meets.attempt hupdate)
  apply Meets.get_bind (fun _ => rfl)
  unfold Home.backOnline
  split
  · exact Meets.pure
  · exact Meets.of_eq fun _ => rfl

/-- A poll that fails drops its link. -/
theorem coordinatorPoll_mute {x : Exc} {e' : Air} {home' : Home StubCrypto}
    (hcls : x.cls = .ninebotConnectionError)
    (hupdate : Meets (air l) asyncUpdate e home (.raised x) e' home')
    (hmeeting : Meeting l e' (home'.mark .info (" is unavailable: " ++ x.msg)).world) :
    ∃ home'', Meets (air l) coordinatorPoll e home (.ret ()) e'.unsubscribe home'' ∧
      home''.world = (home'.mark .info (" is unavailable: " ++ x.msg)).world.parted l ∧
      home''.coordinator = { home'.coordinator with lastPollSuccessful := false } ∧
      home''.entry = home'.entry := by
  have hpairing : ¬ x.isInstance [.ninebotPairingRequiredError] = true := by
    unfold Exc.isInstance
    rw [hcls]
    decide
  have hninebot : x.isInstance [.ninebotError] = true := by
    unfold Exc.isInstance
    rw [hcls]
    rfl
  -- It is logged, and the link is dropped.
  have hmeets : Meets (air l) coordinatorPoll e home (.ret ()) e'.unsubscribe
      { home'.mark .info (" is unavailable: " ++ x.msg) with
        world := (home'.mark .info (" is unavailable: " ++ x.msg)).world.parted l } := by
    apply Meets.bind (Meets.attempt_caught hupdate (Exc.isInstance_exception x))
    simp only [hpairing, hninebot, if_true]
    exact Meets.bind (markFailed_meets _ _) (dropConnection_meets hmeeting)
  refine ⟨_, hmeets, rfl, Home.mark_coordinator _ _ _, ?_⟩
  show (home'.mark _ _).entry = _
  unfold Home.mark
  split <;> rfl

end Poll

/-- The coordinator, its client and the scooter, as the mirror has them. -/
structure Reflects (mirror : Mirror) (e : Air) (home : Home StubCrypto) : Prop where
  willing : Willing e home.world
  state : home.coordinator.state = mirror.state
  online : home.coordinator.lastPollSuccessful = mirror.online
  up : mirror.linked = true → ∃ l, Meeting l e home.world
  down : mirror.linked = false → home.world.isConnected = false
  stored : mirror.linked = true → home.entry.appKey = some (hexLower home.world.self.appKey)

theorem Meeting.willing (h : Meeting l e w) (hpairing : 0 < w.self.pairingTimeout)
    (hkey : w.self.appKey.length ≤ maxDataLength) (hbutton : e.scooter.requireButtonPress = false) :
    Willing e w :=
  ⟨h.timeout, hpairing, h.gas, hkey, hbutton, h.rxBuffer, h.written⟩

theorem Willing.since (h : Willing e w) {e' : Air} {now : Nat} {trace : List Obs}
    (hmeeting : Meeting l e' (w.since now trace)) (hread : e.scooter.OnlyRead e'.scooter) :
    Willing e' (w.since now trace) := by
  apply hmeeting.willing h.pairingTimeout h.appKey
  obtain ⟨_, _, _, hscooter⟩ := hread
  rw [hscooter]
  exact h.button

theorem Willing.parted (h : Willing e w) : Willing e.unsubscribe (w.parted l) :=
  { h with written := h.written.trans World.written_parted.symm }

section Reflects

variable {mirror : Mirror} {home : Home StubCrypto}

/-- A line in the log is all that a mark does to the world. -/
theorem Home.mark_world (home : Home StubCrypto) (level : LogLevel) (text : String) :
    ∃ trace, (home.mark level text).world = home.world.since home.world.now trace ∧
      (home.world.since home.world.now trace).written = home.world.written := by
  unfold Home.mark
  split
  · refine ⟨.log level (home.entry.title ++ text) :: home.world.trace, rfl, ?_⟩
    exact World.written_since (by simp)
  · exact ⟨home.world.trace, rfl, rfl⟩

theorem Home.backOnline_world (home : Home StubCrypto) :
    ∃ trace, home.backOnline.world = home.world.since home.world.now trace ∧
      (home.world.since home.world.now trace).written = home.world.written := by
  unfold Home.backOnline
  split
  · exact ⟨home.world.trace, rfl, rfl⟩
  · refine ⟨.log .info (home.entry.title ++ " is back online") :: home.world.trace, rfl, ?_⟩
    exact World.written_since (by simp)

theorem Reflects.connect (h : Reflects mirror e home)
    (hserial : ∃ serial, e.scooter.outcome serialNumber = .ok serial) :
    ∃ l e₁ home₁, Meets (air l) ensureConnected e home (.ret mirror.first) e₁ home₁ ∧
      e.scooter.SameMemory e₁.scooter ∧ Meeting l e₁ home₁.world ∧ Willing e₁ home₁.world ∧
      home₁.coordinator = home.coordinator ∧
      home₁.entry.appKey = some (hexLower home₁.world.self.appKey) := by
  by_cases hlinked : mirror.linked = true
  · -- The link of the last poll is used.
    obtain ⟨l, hmeeting⟩ := h.up hlinked
    have hup := hmeeting.isConnected
    refine ⟨l, e, home, ?_, ⟨rfl, rfl, rfl⟩, hmeeting, h.willing, rfl, h.stored hlinked⟩
    apply Meets.get_bind (fun _ => rfl)
    rw [Mirror.first, if_pos hlinked, ← h.state]
    simp only [hup, if_true]
    exact Meets.pure
  · have hdown : home.world.isConnected = false := h.down (Bool.eq_false_iff.mpr hlinked)
    obtain ⟨serial, hserial⟩ := hserial
    obtain ⟨e', w', hmeets, hjoined, hmeeting, hsame⟩ := connect_meets h.willing hserial
    refine ⟨_, e', { home with world := w', entry := home.entry.persisted w'.self.appKey }, ?_,
      hjoined.memory, hmeeting, ?_, rfl, rfl⟩
    · apply Meets.get_bind (fun _ => rfl)
      rw [Mirror.first, if_neg hlinked]
      simp only [hdown]
      apply Meets.bind (client_meets hmeets)
      exact Meets.bind persistAppKey_meets Meets.pure
    · apply hmeeting.willing
      · rw [hsame.pairingTimeout]
        exact h.willing.pairingTimeout
      · rw [hsame.appKey]
        exact h.willing.appKey
      · rw [hjoined.button]
        exact h.willing.button

/-- A poll in which three registers in a row are not answered is given up, and
    the link is dropped. -/
theorem Reflects.poll_mute (h : Reflects mirror e home)
    (hserial : ∃ serial, e.scooter.outcome serialNumber = .ok serial)
    (hmute : e.scooter.Mute mirror.first) :
    ∃ l e' home', Meets (air l) coordinatorPoll e home (.ret ()) e' home' ∧
      e.scooter.SameMemory e'.scooter ∧ Reflects (mirror.poll e.scooter) e' home' := by
  obtain ⟨l, e₁, home₁, hconnect, hmemory₁, hmeeting₁, hwilling₁, hsame₁, _⟩ := h.connect hserial
  have houtcome : e₁.scooter.outcome = e.scooter.outcome := by
    funext register
    exact hmemory₁.outcome
  have hmute₁ : e₁.scooter.Mute mirror.first := by
    unfold FakeScooter.Mute
    rw [houtcome]
    exact hmute
  obtain ⟨x, e₂, now, trace, hcls, hupdate, hread, hmeeting₂⟩ :=
    asyncUpdate_mute hconnect hmeeting₁ hmute₁
  obtain ⟨trace', hworld, hwritten⟩ := Home.mark_world
    { home₁ with world := home₁.world.since now trace } .info (" is unavailable: " ++ x.msg)
  have hmeeting₃ : Meeting l e₂ (home₁.world.since now trace') :=
    hmeeting₂.since hmeeting₂.peer hmeeting₂.rxBuffer (hmeeting₂.written.trans hwritten.symm)
  obtain ⟨home₃, hpoll, hworld₃, hcoordinator₃, hentry₃⟩ :=
    coordinatorPoll_mute hcls hupdate (by rw [hworld]; exact hmeeting₃)
  rw [hworld] at hworld₃
  have hmemory₂ := hmemory₁.trans hread.sameMemory
  refine ⟨l, _, home₃, hpoll, ⟨hmemory₂.registers, hmemory₂.unreadable,
    hmemory₂.supportsBulkReads⟩, ?_⟩
  rw [Mirror.poll, if_pos hmute]
  refine ⟨?_, ?_, ?_, nofun, ?_, nofun⟩
  · rw [hworld₃]
    exact (hwilling₁.since hmeeting₃ hread).parted
  · rw [hcoordinator₃]
    show home₁.coordinator.state = mirror.state
    rw [hsame₁, h.state]
  · rw [hcoordinator₃]
  · intro _
    rw [hworld₃]
    rfl

/-- Any other poll is successful, and the link is kept. -/
theorem Reflects.poll_heard (h : Reflects mirror e home)
    (hserial : ∃ serial, e.scooter.outcome serialNumber = .ok serial)
    (hmute : ¬ e.scooter.Mute mirror.first) :
    ∃ l e' home', Meets (air l) coordinatorPoll e home (.ret ()) e' home' ∧
      e.scooter.SameMemory e'.scooter ∧ Reflects (mirror.poll e.scooter) e' home' := by
  obtain ⟨l, e₁, home₁, hconnect, hmemory₁, hmeeting₁, hwilling₁, hsame₁, hstored⟩ :=
    h.connect hserial
  have houtcome : e₁.scooter.outcome = e.scooter.outcome := by
    funext register
    exact hmemory₁.outcome
  have hheard : ¬ e₁.scooter.Mute mirror.first := by
    unfold FakeScooter.Mute
    rw [houtcome]
    exact hmute
  have hsnapshot : e₁.scooter.snapshot mirror.first = e.scooter.snapshot mirror.first := by
    unfold FakeScooter.snapshot
    rw [houtcome]
  obtain ⟨e₂, now, trace, hupdate, hread, hmeeting₂⟩ :=
    asyncUpdate_meets hconnect hmeeting₁ hheard
  have hpoll := coordinatorPoll_meets hupdate
  -- The home after the update, in which the flag is still that of the last poll.
  set home₂ : Home StubCrypto := { home₁ with
    world := home₁.world.since now trace
    coordinator := { home₁.coordinator.merged home₁.world.self mirror.first
      (e₁.scooter.snapshot mirror.first) with
        lastPollSuccessful := home₁.coordinator.lastPollSuccessful } }
  obtain ⟨trace', hworld, hwritten⟩ := home₂.backOnline_world
  have hmeeting₃ : Meeting l e₂ home₂.backOnline.world := by
    rw [hworld]
    exact hmeeting₂.since hmeeting₂.peer hmeeting₂.rxBuffer
      (hmeeting₂.written.trans hwritten.symm)
  have hentry : home₂.backOnline.entry = home₁.entry := by
    unfold Home.backOnline
    split <;> rfl
  obtain ⟨hcoordinator, hself⟩ := home₂.backOnline_coordinator
  refine ⟨l, e₂, home₂.backOnline, hpoll, hmemory₁.trans hread.sameMemory, ?_⟩
  rw [Mirror.poll, if_neg hmute]
  refine ⟨?_, ?_, ?_, fun _ => ⟨l, hmeeting₃⟩, nofun, ?_⟩
  · rw [hworld] at hmeeting₃ ⊢
    exact hwilling₁.since hmeeting₃ hread
  · rw [hcoordinator]
    show home₁.coordinator.state.update (e₁.scooter.snapshot mirror.first) = _
    rw [hsame₁, h.state, hsnapshot]
  · rw [hcoordinator]
  · intro _
    rw [hentry, hself]
    exact hstored

/-- One poll of the coordinator is one poll of the mirror. -/
theorem Reflects.poll (h : Reflects mirror e home)
    (hserial : ∃ serial, e.scooter.outcome serialNumber = .ok serial) :
    ∃ l e' home', Meets (air l) coordinatorPoll e home (.ret ()) e' home' ∧
      e.scooter.SameMemory e'.scooter ∧ Reflects (mirror.poll e.scooter) e' home' := by
  by_cases hmute : e.scooter.Mute mirror.first
  · exact h.poll_mute hserial hmute
  · exact h.poll_heard hserial hmute

end Reflects

/-! ## Many polls -/

/-- What has become of the scooter, and of the link, by the time of a poll. -/
structure Visit where
  registers : RegisterFile
  unreadable : List (DeviceId × Int)
  /-- The link went down. -/
  lost : Bool

def FakeScooter.store (self : FakeScooter) (visit : Visit) : FakeScooter :=
  { self with registers := visit.registers, unreadable := visit.unreadable }

def Air.store (self : Air) (visit : Visit) : Air :=
  { self with scooter := self.scooter.store visit }

def Home.before (self : Home StubCrypto) (visit : Visit) : Home StubCrypto :=
  match self.world.self.client with
  | some l =>
      if visit.lost then { self with world := self.world.apply (.linkLost l) } else self
  | none => self

/-- What the mirror makes of a visit: `scooter` says how reads are answered. -/
def Mirror.visit (scooter : FakeScooter) (self : Mirror) (visit : Visit) : Mirror :=
  { self with linked := self.linked && !visit.lost }.poll (scooter.store visit)

/-- Polls in the closed loop, one for each visit.  Before and after each of them
    the scooter has taken the chunks that the client has written, and no others. -/
inductive Visits : Air → Home StubCrypto → List Visit → Air → Home StubCrypto → Prop where
  | nil {e : Air} {home : Home StubCrypto} : e.written = home.world.written →
      Visits e home [] e home
  | cons {l : Nat} {e e₁ e' : Air} {home home₁ home' : Home StubCrypto} {visit : Visit}
      {visits : List Visit} : e.written = home.world.written →
      Meets (air l) coordinatorPoll (e.store visit) (home.before visit) (.ret ()) e₁ home₁ →
      Visits e₁ home₁ visits e' home' → Visits e home (visit :: visits) e' home'

section Visits

variable {mirror : Mirror} {home : Home StubCrypto}

theorem FakeScooter.outcome_store {S S' : FakeScooter}
    (h : S'.supportsBulkReads = S.supportsBulkReads)
    (visit : Visit) : (S'.store visit).outcome = (S.store visit).outcome := by
  have hsame : (S.store visit).SameMemory (S'.store visit) := ⟨rfl, rfl, h⟩
  funext register
  exact hsame.outcome

theorem Mirror.poll_congr {S S' : FakeScooter} (h : S'.outcome = S.outcome) :
    mirror.poll S' = mirror.poll S := by
  have hmute : S'.Mute mirror.first ↔ S.Mute mirror.first := by
    unfold FakeScooter.Mute
    rw [h]
  have hsnapshot : S'.snapshot mirror.first = S.snapshot mirror.first := by
    unfold FakeScooter.snapshot
    rw [h]
  unfold Mirror.poll
  simp only [hmute, hsnapshot]

/-- The mirror depends on how reads are answered, and on nothing else of the scooter. -/
theorem Mirror.visit_congr {S S' : FakeScooter} (h : S'.supportsBulkReads = S.supportsBulkReads) :
    Mirror.visit S' = Mirror.visit S := by
  funext mirror visit
  exact Mirror.poll_congr (FakeScooter.outcome_store h visit)

theorem Willing.store (h : Willing e w) (visit : Visit) : Willing (e.store visit) w := { h with }

theorem Meeting.store (h : Meeting l e w) (visit : Visit) : Meeting l (e.store visit) w :=
  { h with }

/-- A link that is lost is down, and nothing else has happened. -/
theorem World.linkLost_eq (w : World StubCrypto) (l : Nat) :
    ∃ trace, w.apply (.linkLost l) = { w.close l with trace := trace } ∧
      (w.apply (.linkLost l)).written = w.written := by
  by_cases hup : w.isUp l = true
  · refine ⟨.lost l :: w.trace, if_pos hup, ?_⟩
    rw [World.apply, if_pos hup]
    simp [World.written, World.log, World.close, World.setLink]
  · have hsame : w.close l = w := by
      have hlink : { w.links l with isConnected := false } = w.links l := by
        rw [← Bool.eq_false_iff.mpr hup]
        rfl
      rw [World.close, hlink, World.setLink, Function.update_eq_self]
    refine ⟨w.trace, ?_, ?_⟩
    · rw [hsame]
      exact if_neg hup
    · rw [World.apply, if_neg hup]

theorem Reflects.before (h : Reflects mirror e home) (visit : Visit) :
    Reflects { mirror with linked := mirror.linked && !visit.lost } (e.store visit)
      (home.before visit) := by
  by_cases hlost : visit.lost = true
  · rw [hlost, Bool.not_true, Bool.and_false]
    unfold Home.before
    have hoff : ∀ {p : Prop}, false = true → p := fun h => absurd h Bool.false_ne_true
    rcases hclient : home.world.self.client with _ | l
    · have hdown : home.world.isConnected = false := by
        rw [World.isConnected, hclient]
      exact ⟨h.willing.store visit, h.state, h.online, hoff, fun _ => hdown, hoff⟩
    · -- The link goes down while nobody is waiting for it.
      obtain ⟨trace, hworld, hwritten⟩ := World.linkLost_eq home.world l
      simp only [hlost, if_true]
      refine ⟨?_, h.state, h.online, hoff, fun _ => ?_, hoff⟩
      · have hwritten' := h.willing.written.trans hwritten.symm
        rw [hworld] at hwritten' ⊢
        exact { h.willing.store visit with written := hwritten' }
      · have hdown : (home.world.close l).isConnected = false := by
          have hself : (home.world.close l).self.client = some l := hclient
          rw [World.isConnected, hself]
          show (Function.update home.world.links l _ l).isConnected = false
          rw [Function.update_self]
        show (home.world.apply (.linkLost l)).isConnected = false
        rw [hworld]
        exact hdown
  · have hkept : visit.lost = false := Bool.eq_false_iff.mpr hlost
    have hsame : home.before visit = home := by
      unfold Home.before
      rcases home.world.self.client with _ | l
      · rfl
      · simp [hkept]
    rw [hkept, Bool.not_false, Bool.and_true, hsame]
    refine ⟨h.willing.store visit, h.state, h.online, fun hlinked => ?_, h.down, h.stored⟩
    obtain ⟨l, hmeeting⟩ := h.up hlinked
    exact ⟨l, hmeeting.store visit⟩

/-- A run of the closed loop is a run of the coordinator. -/
theorem Visits.polls {e' : Air} {home₀ home' : Home StubCrypto} {visits : List Visit}
    (h : Visits e home visits e' home') (hstart : Polls home₀ (Scripted.supply [] home)) :
    Polls home₀ (Scripted.supply [] home') := by
  induction h with
  | nil => exact hstart
  | @cons _ e _ _ home _ _ visit _ _ hmeets _ ih =>
    obtain ⟨script, _, hrun⟩ := hmeets
    have hbefore : Polls home₀ (Scripted.supply [] (home.before visit)) := by
      unfold Home.before
      rcases home.world.self.client with _ | l
      · exact hstart
      · by_cases hlost : visit.lost = true
        · simp only [hlost, if_true]
          have hevent := hstart.between (.event (.linkLost l))
          rw [show (Scripted.supply [] home : Home StubCrypto).world = home.world.setScript [] from
            rfl, apply_setScript] at hevent
          exact hevent
        · simp only [hlost]
          exact hstart
    have hsupplied := hbefore.between (.supply script (home.before visit).world.gas)
    have hpoll := hrun []
    rw [List.append_nil] at hpoll
    exact ih (hsupplied.poll hpoll)

/-- What the client has written the scooter has taken, at the end of a run too. -/
theorem Visits.written {e' : Air} {home' : Home StubCrypto} {visits : List Visit}
    (h : Visits e home visits e' home') : e'.written = home'.world.written := by
  induction h with
  | nil hwritten => exact hwritten
  | cons _ _ _ ih => exact ih

/-- One poll after the other. -/
theorem Reflects.visits (h : Reflects mirror e home) (visits : List Visit)
    (hserial : ∀ visit ∈ visits, ∃ serial,
      (e.scooter.store visit).outcome serialNumber = .ok serial) :
    ∃ e' home', Visits e home visits e' home' ∧
      Reflects (visits.foldl (Mirror.visit e.scooter) mirror) e' home' := by
  induction visits generalizing mirror e home with
  | nil => exact ⟨e, home, .nil h.willing.written, h⟩
  | cons visit visits ih =>
    obtain ⟨l, e₁, home₁, hpoll, hmemory, h₁⟩ :=
      (h.before visit).poll (hserial visit List.mem_cons_self)
    have hbulk : e₁.scooter.supportsBulkReads = e.scooter.supportsBulkReads :=
      hmemory.supportsBulkReads
    have hserial₁ : ∀ visit ∈ visits, ∃ serial,
        (e₁.scooter.store visit).outcome serialNumber = .ok serial := by
      intro v hv
      rw [FakeScooter.outcome_store hbulk]
      exact hserial v (List.mem_cons_of_mem _ hv)
    obtain ⟨e', home', hvisits, hshows⟩ := ih h₁ hserial₁
    refine ⟨e', home', .cons h.willing.written hpoll hvisits, ?_⟩
    rw [Mirror.visit_congr hbulk] at hshows
    exact hshows

/-- The payload of a register, as a read of it returns it. -/
def RegisterFile.payload (self : RegisterFile) (register : Register) : Bytes :=
  ((self.get (register.board, register.index)).getD []).take register.length

/-- Every register of the map can be read. -/
structure FakeScooter.Answers (S : FakeScooter) : Prop where
  holds : ∀ register ∈ Ninebot.registers, ∃ payload, S.Holds register payload

theorem FakeScooter.Answers.outcome {S : FakeScooter} (h : S.Answers) {register : Register}
    (hmem : register ∈ Ninebot.registers) :
    S.outcome register = .ok (S.registers.payload register) := by
  obtain ⟨payload, hholds⟩ := h.holds register hmem
  have husable := registers_areUsable register hmem
  rw [outcome_holds hholds husable.pos husable.length, RegisterFile.payload,
    hholds.stored]
  rfl

/-- A scooter that can be read is not mute. -/
theorem FakeScooter.Answers.not_mute {S : FakeScooter} (h : S.Answers) (includeStatic : Bool) :
    ¬ S.Mute includeStatic := by
  intro hmute
  have htrue : true ∈ ((pollRegisters includeStatic).map S.outcome).map Outcome.timedOut :=
    hmute.subset (by decide)
  rw [List.map_map] at htrue
  obtain ⟨register, hmem, htimed⟩ := List.mem_map.mp htrue
  rw [Function.comp_apply, h.outcome (mem_registers hmem)] at htimed
  cases htimed

/-- A scooter that can be read is read whole by the last poll. -/
theorem Reflects.answered (h : Reflects mirror e home) (visits : List Visit) (last : Visit)
    (hserial : ∀ visit ∈ visits, ∃ serial,
      (e.scooter.store visit).outcome serialNumber = .ok serial)
    (hlast : (e.scooter.store last).Answers) :
    ∃ e' home' before first, Visits e home (visits ++ [last]) e' home' ∧
      home'.coordinator.lastPollSuccessful = true ∧
      home'.coordinator.state =
        ScooterState.update before ((e.scooter.store last).snapshot first) ∧
      ∀ register ∈ pollRegisters last.lost, register ∈ pollRegisters first := by
  have hserial' : ∀ visit ∈ visits ++ [last], ∃ serial,
      (e.scooter.store visit).outcome serialNumber = .ok serial := by
    intro visit hmem
    rcases List.mem_append.mp hmem with hbefore | hthis
    · exact hserial visit hbefore
    · obtain rfl := List.mem_singleton.mp hthis
      exact ⟨_, hlast.outcome List.mem_cons_self⟩
  obtain ⟨e', home', hvisits, hshows⟩ := h.visits (visits ++ [last]) hserial'
  rw [List.foldl_append, List.foldl_cons, List.foldl_nil] at hshows
  -- The mirror before the last poll.
  set before : Mirror := visits.foldl (Mirror.visit e.scooter) mirror
  set polled : Mirror := { before with linked := before.linked && !last.lost }
  have hpoll : before.visit e.scooter last =
      ⟨before.state.update ((e.scooter.store last).snapshot polled.first), true, true⟩ :=
    if_neg (hlast.not_mute _)
  rw [hpoll] at hshows
  refine ⟨e', home', before.state, polled.first, hvisits, hshows.online, hshows.state, ?_⟩
  intro register hmem
  rcases hlost : last.lost with _ | _
  · rw [hlost] at hmem
    cases polled.first with
    | false => exact hmem
    | true => exact List.mem_append_right _ hmem
  · have hfirst : polled.first = true := by
      simp [Mirror.first, polled, hlost]
    rw [hlost] at hmem
    rw [hfirst]
    exact hmem

end Visits

/-! ## A new entry -/

end Ninebot
