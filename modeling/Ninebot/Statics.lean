import Ninebot.Connect
import Ninebot.Devices
import Ninebot.Histories

/-! # What is read once on a link

    `coordinator.info` copies five static values out of a state that every poll
    changes, and is copied again only by a first poll.  What makes this safe is
    that no other poll reads a static register, and that a link that stays is
    one on which a first poll has succeeded.

    This file defines:
    - `Coordinator.InfoAgrees`: the info has the values of the state
    - `World.Attempted`: a register was asked for since the last link was opened -/

namespace Ninebot

open Coro

variable {κ : Type}

/-! ## The info -/

/-- What `coordinator.info` says is what `coordinator.state` has. -/
structure Coordinator.InfoAgrees (c : Coordinator) : Prop where
  serialNumber : c.info.serialNumber = c.state.get "serial_number"
  controllerFirmware : c.info.controllerFirmware = c.state.get "controller_firmware"
  bleFirmware : c.info.bleFirmware = c.state.get "ble_firmware"
  bmsFirmware : c.info.bmsFirmware = c.state.get "bms_firmware"
  bmsSerialNumber : c.info.bmsSerialNumber = c.state.get "bms_serial_number"

theorem Coordinator.make_infoAgrees (address title : String) :
    (Coordinator.make address title).InfoAgrees :=
  ⟨rfl, rfl, rfl, rfl, rfl⟩

theorem setupEntry_infoAgrees [Cipher κ] {home home' : Home κ} {deviceName : Option String}
    (h : setupEntry home deviceName = .ok home') : home'.coordinator.InfoAgrees := by
  rw [setupEntry_coordinator h]
  exact Coordinator.make_infoAgrees _ _

/-- A poll of the dynamic registers says nothing about another key. -/
theorem ScooterState.get_update_dynamic {state : ScooterState} {outcomes : List Outcome}
    (hlen : outcomes.length = (pollRegisters false).length) {key : String}
    (hkey : key ∉ (pollRegisters false).map (·.key)) :
    (state.update (snapshot (pollRegisters false) outcomes)).get key = state.get key := by
  have haccounts := snapshot_accounts (pollRegisters_nodup false) hlen
  obtain ⟨hvalues, _, _⟩ := haccounts.noOther key hkey
  show (_ ∪ _ : Dict Value).lookup key = _
  rw [Finmap.lookup_union_right hvalues]
  rfl

theorem Coordinator.merged_infoAgrees {self : Coordinator} (h : self.InfoAgrees)
    (client : Client κ) {includeStatic : Bool} {outcomes : List Outcome}
    (hlen : outcomes.length = (pollRegisters includeStatic).length) :
    (self.merged client includeStatic
      (snapshot (pollRegisters includeStatic) outcomes)).InfoAgrees := by
  cases includeStatic with
  | true => exact ⟨rfl, rfl, rfl, rfl, rfl⟩
  | false =>
    -- The five keys are those of static registers.
    have hget : ∀ key ∉ (pollRegisters false).map (·.key),
        (self.state.update (snapshot (pollRegisters false) outcomes)).get key =
          self.state.get key := fun _ => ScooterState.get_update_dynamic hlen
    constructor
    · exact h.serialNumber.trans (hget _ (by decide)).symm
    · exact h.controllerFirmware.trans (hget _ (by decide)).symm
    · exact h.bleFirmware.trans (hget _ (by decide)).symm
    · exact h.bmsFirmware.trans (hget _ (by decide)).symm
    · exact h.bmsSerialNumber.trans (hget _ (by decide)).symm

theorem Ended.infoAgrees [Cipher κ] {home home' : Home κ} {ending : PollEnd}
    (h : Ended home ending home') (hbefore : home.coordinator.InfoAgrees) :
    home'.coordinator.InfoAgrees := by
  cases h with
  | failed e _ heq _ =>
    rw [heq]
    exact ⟨hbefore.1, hbefore.2, hbefore.3, hbefore.4, hbefore.5⟩
  | succeeded includeStatic outcomes _ _ _ _ hlen heq _ =>
    rw [heq]
    exact Coordinator.merged_infoAgrees hbefore home'.world.self hlen

/-- In every state between polls the info agrees with the state. -/
theorem Polls.infoAgrees [Cipher κ] {home₀ home : Home κ} (h : Polls home₀ home)
    (hstart : home₀.coordinator.InfoAgrees) : home.coordinator.InfoAgrees := by
  induction h with
  | start => exact hstart
  | between _ hb ih =>
    obtain ⟨_, heq⟩ := hb.coordinator
    rw [heq]
    exact ⟨ih.1, ih.2, ih.3, ih.4, ih.5⟩
  | poll _ hpoll ih =>
    obtain ⟨_, hended⟩ := coordinatorPoll_ended hpoll
    exact hended.infoAgrees ih

/-! ## The last link -/

/-- The link that was opened. -/
def Obs.opens : Obs → Option Nat
  | .opened l => some l
  | _ => none

/-- The link that was opened last. -/
def World.lastOpened (w : World κ) : Option Nat := w.deeds.findSome? Obs.opens

/-- What was done since then, newest first. -/
def World.sinceOpened (w : World κ) : List Obs := w.deeds.takeWhile (·.opens.isNone)

/-- The client has no link but the one that was opened last. -/
def HoldsLast (w : World κ) : Prop := ∀ l, w.self.client = some l → w.lastOpened = some l

theorem World.lastOpened_of_deeds {w w' : World κ} {new : List Obs} (h : w'.deeds = new ++ w.deeds)
    (hnew : ∀ o ∈ new, o.opens = none) : w'.lastOpened = w.lastOpened := by
  unfold lastOpened
  rw [h, List.findSome?_append, List.findSome?_eq_none_iff.mpr hnew]
  rfl

theorem World.sinceOpened_of_deeds {w w' : World κ} {new : List Obs}
    (h : w'.deeds = new ++ w.deeds) (hnew : ∀ o ∈ new, o.opens = none) :
    w'.sinceOpened = new ++ w.sinceOpened := by
  unfold sinceOpened
  rw [h, List.takeWhile_append_of_pos]
  intro o ho
  rw [hnew o ho]
  rfl

/-- No link is opened between `w` and `w'`. -/
abbrev OpensNone : World κ → World κ → Prop := Does fun o => o.opens = none

theorem OpensNone.lastOpened {w w' : World κ} (h : OpensNone w w') :
    w'.lastOpened = w.lastOpened :=
  World.lastOpened_of_deeds (World.deeds_eq_newDeeds h.trace) h.deeds

theorem OpensNone.sinceOpened {w w' : World κ} (h : OpensNone w w') :
    w'.sinceOpened = w.newDeeds w' ++ w.sinceOpened :=
  World.sinceOpened_of_deeds (World.deeds_eq_newDeeds h.trace) h.deeds

/-- What gives the client no link, and opens none, keeps this. -/
theorem HoldsLast.later {w w' : World κ} (h : HoldsLast w) (hopens : OpensNone w w')
    (hclient : w'.self.client = w.self.client ∨ w'.self.client = none) : HoldsLast w' := by
  intro l hl
  rw [hopens.lastOpened]
  rcases hclient with hsame | hnone
  · exact h l (hsame ▸ hl)
  · -- A client without a link holds this trivially.
    rw [hnone] at hl
    cases hl

theorem Obs.opens_of_not_fate {o : Obs} (h : o.isFate = false) : o.opens = none := by
  cases o with
  | opened l => cases h
  | _ => rfl

theorem Obs.opens_of_note {o : Obs} (h : o.isLinkNote = true) : o.opens = none := by
  cases o with
  | opened l => cases h
  | _ => rfl

section Links

variable [Cipher κ]

/-- The steps that keep `HoldsLast`. -/
def KeepsLast (w w' : World κ) : Prop := HoldsLast w → HoldsLast w'

instance : Std.Refl (KeepsLast (κ := κ)) := ⟨fun _ h => h⟩

instance : IsTrans (World κ) KeepsLast := ⟨fun _ _ _ h h' hw => h' (h hw)⟩

namespace KeepsLast

omit [Cipher κ] in
theorem of_does {w w' : World κ} (hopens : OpensNone w w')
    (hclient : w'.self.client = w.self.client ∨ w'.self.client = none) : KeepsLast w w' :=
  fun h => h.later hopens hclient

omit [Cipher κ] in
/-- A step that does nothing at all. -/
theorem of_same {w w' : World κ} (htrace : w.trace <:+ w'.trace) (hdeeds : w'.deeds = w.deeds)
    (hclient : w'.self.client = w.self.client ∨ w'.self.client = none) : KeepsLast w w' :=
  of_does (Does.of_same htrace hdeeds) hclient

omit [Cipher κ] in
theorem log (w : World κ) {o : Obs} (h : o.opens = none) : KeepsLast w (w.log o) :=
  of_does (Does.log w fun _ => h) (Or.inl rfl)

theorem asks : Asks (KeepsLast (κ := κ)) where
  event e w _ := of_same (SameSession.apply e w).trace (apply_deeds e w)
    (SameSession.apply e w).client
  script _ _ _ := of_same (List.suffix_refl _) rfl (Or.inl rfl)
  note w _ _ _ hfate := log w (Obs.opens_of_not_fate hfate)
  take h := of_same (popResponse_sameSession h).trace (Idle.waits.take h).deeds
    (popResponse_sameSession h).client
  deed w _ _ hfate := log w (Obs.opens_of_not_fate hfate)
  cipher _ _ := of_same (List.suffix_refl _) rfl (Or.inl rfl)
  answer _ h _ _ := trans_of KeepsLast h (log _ rfl)

theorem greets : Greets (KeepsLast (κ := κ)) :=
  asks.greets (fun _ _ => of_same (List.suffix_refl _) rfl (Or.inl rfl))
    (fun _ => of_same (List.suffix_refl _) rfl (Or.inl rfl)) fun w _ => log w rfl

theorem transports : Transports (KeepsLast (κ := κ)) where
  toWaits := asks.toWaits
  reset _ := of_same (List.suffix_cons _ _) rfl (Or.inl rfl)
  opened w rx := by
    -- The one step that gives the client a link.
    intro _ l hl
    obtain rfl : w.opened = l := Option.some.inj hl
    rfl
  detach _ := of_same (List.suffix_refl _) rfl (Or.inr rfl)
  subscribe _ _ _ := of_same (List.suffix_refl _) rfl (Or.inl rfl)
  close w l := by
    have hclose : KeepsLast w (w.close l) := of_same (List.suffix_refl _) rfl (Or.inl rfl)
    exact trans_of KeepsLast hclose (log _ rfl)
  noted w _ ho := log w (Obs.opens_of_note ho)
  chunkSize _ _ := of_same (List.suffix_refl _) rfl (Or.inl rfl)

theorem connect : Moves KeepsLast (connect : M κ Unit) := by
  apply transports.connect greets.handshake
  apply World.discarded_of (fun w _ => log w rfl)
  exact fun _ _ => of_same (List.suffix_refl _) rfl (Or.inl rfl)

end KeepsLast

/-! ## Attempts -/

/-- `_send` was called with this packet. -/
def Obs.asks (p : Packet) : Obs → Bool
  | .sent _ _ _ q => q = p
  | .sendFailed q => q = p
  | _ => false

/-- A read of this register was begun since the last link was opened. -/
def World.Attempted (w : World κ) (register : Register) : Prop :=
  ∃ o ∈ w.sinceOpened, o.asks (bulkRequest register) = true

/-- `_send` was called with this packet between `w` and `w'`. -/
structure Asked (p : Packet) (w w' : World κ) : Prop where
  trace : w.trace <:+ w'.trace
  asked : ∃ o ∈ w.newDeeds w', o.asks p = true

omit [Cipher κ] in
theorem Asked.later {p : Packet} {w w' w'' : World κ} (h : Asked p w w')
    (hlater : w'.trace <:+ w''.trace) : Asked p w w'' := by
  obtain ⟨o, ho, hasks⟩ := h.asked
  exact ⟨h.trace.trans hlater, o, World.mem_newDeeds_of_earlier h.trace hlater ho, hasks⟩

omit [Cipher κ] in
theorem Asked.of_deeds {p : Packet} {w w' : World κ} (htrace : w.trace <:+ w'.trace)
    (new : List Obs) (hdeeds : w'.deeds = new ++ w.deeds) (hasks : ∃ o ∈ new, o.asks p = true) :
    Asked p w w' := by
  refine ⟨htrace, ?_⟩
  rw [World.newDeeds_eq new hdeeds]
  exact hasks

/-- A request that has ended was given to `_send`, whatever came of it. -/
theorem request_asked {p : Packet} (hpack : ∀ e, p.pack ≠ .error e) (w : World κ) :
    Triple (request p) w (fun _ => Asked p w) (fun _ => Asked p w) (fun _ => True) := by
  have hsent : ∀ l, (w.sentObs l p).asks p = true := fun l => decide_eq_true rfl
  have hfailed : (Obs.sendFailed p).asks p = true := decide_eq_true rfl
  apply (request_triple p none w).mono
  · intro r w' h
    obtain ⟨hsession, hends⟩ := h
    cases hends with
    | @answered l _ _ _ _ _ _ _ hdeeds =>
      exact Asked.of_deeds hsession.trace [_, _] hdeeds ⟨w.sentObs l p, by simp, hsent l⟩
  · intro e w' h
    obtain ⟨hsession, hends⟩ := h
    cases hends with
    | refused hsend =>
      -- A request that `_send` refuses counts as an attempt.
      cases hsend with
      | down _ _ hdeeds =>
        exact Asked.of_deeds hsession.trace [_] hdeeds ⟨.sendFailed p, by simp, hfailed⟩
      | tooLong herror _ => exact absurd herror (hpack _)
      | failed _ _ hdeeds =>
        exact Asked.of_deeds hsession.trace [_, _] hdeeds ⟨.sendFailed p, by simp, hfailed⟩
      | @foreign l _ _ _ _ hdeeds =>
        exact Asked.of_deeds hsession.trace [_] hdeeds ⟨w.sentObs l p, by simp, hsent l⟩
    | @unanswered l _ _ _ _ _ hdeeds =>
      exact Asked.of_deeds hsession.trace [_, _] hdeeds ⟨w.sentObs l p, by simp, hsent l⟩
  · exact fun _ _ => trivial

theorem bulkRequest_packs (register : Register) (e : Exc) :
    (bulkRequest register).pack ≠ .error e := by
  unfold Packet.pack bulkRequest readRequest maxDataLength
  simp

/-- Whatever becomes of a read, it was begun. -/
theorem readRegister_asked {register : Register} (hlen : register.length < 256) (w : World κ) :
    Triple (readRegister register) w (fun _ => Asked (bulkRequest register) w)
      (fun _ => Asked (bulkRequest register) w) (fun _ => True) := by
  have hbulk : Triple (bulkRead register) w (fun _ => Asked (bulkRequest register) w)
      (fun _ => Asked (bulkRequest register) w) (fun _ => True) := by
    unfold bulkRead
    simp only [hlen, if_true]
    exact request_asked (bulkRequest_packs register) w
  apply readRegister_triple (T := Asked (bulkRequest register) w)
  · apply hbulk.mono _ _ (fun _ h => h)
    · intro r w' h
      split <;> exact h
    · intro e w' h
      split <;> exact h
  · -- The walk comes after the bulk read, and takes nothing back.
    intro w' h
    have hwalk : Moves SameSession (walkRegister register : M κ Bytes) :=
      Moves.bind (walk_moves (fun _ => SameSession.asks.request _ _) _ _) fun _ => Moves.pure _
    exact (hwalk.triple w').mono (fun _ _ h' => h.later h'.trace) (fun _ _ h' => h.later h'.trace)
      (fun _ _ => trivial)

theorem readRegister_opensNone (register : Register) :
    Moves OpensNone (readRegister register : M κ Bytes) :=
  readRegister_moves
    (fun _ => request_does none rfl (fun _ _ => rfl) (fun _ => rfl) fun _ _ _ _ => rfl)
    fun _ => request_does none rfl (fun _ _ => rfl) (fun _ => rfl) fun _ _ _ _ => rfl

theorem tryRead_asked {register : Register} (hlen : register.length < 256) {w : World κ}
    {outcome : Outcome} (h : (tryRead register w).1 = .ret outcome) :
    OpensNone w (tryRead register w).2 ∧ Asked (bulkRequest register) w (tryRead register w).2 := by
  constructor
  · exact Moves.attempt (readRegister_opensNone register) w
  · have hread : Triple (tryRead register) w (fun _ => Asked (bulkRequest register) w)
        (fun _ _ => True) (fun _ => True) := by
      apply Triple.attempt
      apply (readRegister_asked hlen w).mono_raised
      intro e w' h
      split
      · exact h
      · trivial
    exact hread.ret_of (run_eq h)

/-- Reads made one after the other: each one was begun. -/
theorem Supplies.asked {registers : List Register} {w w' : World κ} {outcomes : List Outcome}
    (h : Supplies registers w outcomes w') (hlen : outcomes.length = registers.length)
    (hshort : ∀ r ∈ registers, r.length < 256) :
    OpensNone w w' ∧ ∀ r ∈ registers, Asked (bulkRequest r) w w' := by
  induction h with
  | @nil registers w =>
    have hnil : registers = [] := List.eq_nil_of_length_eq_zero hlen.symm
    refine ⟨Does.refl _, ?_⟩
    rw [hnil]
    intro r hr
    cases hr
  | @cons register rest w w' outcome outcomes hread hrest ih =>
    obtain ⟨hopens, hasked⟩ := tryRead_asked (hshort register List.mem_cons_self) hread
    obtain ⟨hopens', hasked'⟩ := ih (by simpa using hlen) fun r hr =>
      hshort r (List.mem_cons_of_mem _ hr)
    refine ⟨hopens.trans hopens', ?_⟩
    -- A register was asked for either in this turn or in a later one.
    intro r hr
    rcases List.mem_cons.mp hr with rfl | hr
    · exact hasked.later hopens'.trace
    · obtain ⟨o, ho, hasks⟩ := (hasked' r hr).asked
      exact ⟨(hopens.trans hopens').trace, o,
        World.mem_newDeeds_of_later hopens.trace hopens'.trace ho, hasks⟩

omit [Cipher κ] in
/-- What was asked while no link was opened was asked since the last one was. -/
theorem Asked.attempted {w w' : World κ} {register : Register}
    (h : Asked (bulkRequest register) w w') (hopens : OpensNone w w') : w'.Attempted register := by
  obtain ⟨o, ho, hasks⟩ := h.asked
  refine ⟨o, ?_, hasks⟩
  rw [hopens.sinceOpened]
  exact List.mem_append_left _ ho

omit [Cipher κ] in
theorem World.Attempted.later {w w' : World κ} {register : Register} (h : w.Attempted register)
    (hopens : OpensNone w w') : w'.Attempted register := by
  obtain ⟨o, ho, hasks⟩ := h
  refine ⟨o, ?_, hasks⟩
  rw [hopens.sinceOpened]
  exact List.mem_append_right _ ho

/-! ## One poll -/

/-- The link on which a poll reads, once there is one. -/
theorem ensureConnected_ret {home home₁ : Home κ} {firstPoll : Bool}
    (h : ensureConnected home = (.ret firstPoll, home₁)) :
    (home₁ = home ∨ firstPoll = true ∧ connect home.world = (.ret (), home₁.world)) := by
  rw [ensureConnected, get_bind] at h
  by_cases hup : home.world.isConnected
  · simp only [hup, if_true, pure_apply, Prod.mk.injEq] at h
    exact Or.inl h.2.symm
  · simp only [hup] at h
    obtain ⟨_, home₂, hconnect, h⟩ := ret_of_bind h
    have hworld := ((client_run connect home).ret_of hconnect).1
    obtain ⟨_, home₃, hpersist, h⟩ := ret_of_bind h
    -- Storing the key does not touch the world.
    rw [persistAppKey_eq] at hpersist
    cases hpersist
    cases h
    exact Or.inr ⟨rfl, hworld⟩

/-- An update that returns has read its registers from the link it found. -/
theorem asyncUpdate_ret {home home' : Home κ} (h : asyncUpdate home = (.ret (), home')) :
    ∃ firstPoll home₁ state, ensureConnected home = (.ret firstPoll, home₁) ∧
      asyncPoll firstPoll home₁.world = (.ret state, home'.world) := by
  obtain ⟨firstPoll, home₁, hensure, h⟩ := ret_of_bind h
  obtain ⟨state, home₂, hpoll, h⟩ := ret_of_bind h
  have hworld := ((client_run (asyncPoll firstPoll) home₁).ret_of hpoll).1
  refine ⟨firstPoll, home₁, state, hensure, ?_⟩
  rw [H.setCoordinator, modify_bind] at h
  -- What follows is about the coordinator only.
  cases firstPoll with
  | true =>
    cases h
    exact hworld
  | false =>
    cases h
    exact hworld

/-- A poll that returns has asked for every register of its tables. -/
theorem asyncPoll_asked {includeStatic : Bool} {w w' : World κ} {state : ScooterState}
    (h : asyncPoll includeStatic w = (.ret state, w')) :
    (∃ l, LinkUp w l) ∧ OpensNone w w' ∧
      ∀ r ∈ pollRegisters includeStatic, Asked (bulkRequest r) w w' := by
  obtain ⟨outcomes, hsupplies, hlen, _⟩ := (asyncPoll_supplies includeStatic w).ret_of h
  have hshort : ∀ r ∈ registers, r.length < 256 := by decide
  refine ⟨?_, hsupplies.asked hlen fun r hr => hshort r (mem_registers hr)⟩
  rw [asyncPoll, get_bind] at h
  by_cases hup : w.isConnected
  · unfold World.isConnected at hup
    split at hup
    · exact ⟨_, ‹_›, hup⟩
    · cases hup
  · simp only [hup] at h
    cases h

theorem setupEntry_client {home home' : Home κ} {deviceName : Option String}
    (h : setupEntry home deviceName = .ok home') : home'.world.self.client = none := by
  obtain ⟨_, _, rfl⟩ := setupEntry_eq h
  rfl

/-- Between polls: the client's link is the last one, and its static registers
    have been asked for. -/
structure StaticsRead (w : World κ) : Prop where
  last : HoldsLast w
  attempted : w.self.client ≠ none → ∀ r ∈ staticRegisters, w.Attempted r

omit [Cipher κ] in
theorem StaticsRead.of_none {w : World κ} (h : w.self.client = none) : StaticsRead w := by
  constructor
  · intro l hl
    rw [h] at hl
    cases hl
  · exact fun hsome => absurd h hsome

omit [Cipher κ] in
theorem StaticsRead.later {w w' : World κ} (h : StaticsRead w) (hopens : OpensNone w w')
    (hclient : w'.self.client = w.self.client ∨ w'.self.client = none) : StaticsRead w' := by
  refine ⟨h.last.later hopens hclient, ?_⟩
  intro hsome r hr
  have hbefore : w.self.client ≠ none := by
    rcases hclient with hsame | hnone
    · rwa [← hsame]
    · exact absurd hnone hsome
  exact (h.attempted hbefore r hr).later hopens

/-- After the poll, on the link that was up when it ran. -/
structure ReadOn (w w' : World κ) (l : Nat) : Prop where
  up : LinkUp w l
  last : w'.lastOpened = some l
  client : w'.self.client = some l ∨ w'.self.client = none
  attempted : ∀ r ∈ staticRegisters, w'.Attempted r

omit [Cipher κ] in
theorem ReadOn.staticsRead {w w' : World κ} {l : Nat} (h : ReadOn w w' l) : StaticsRead w' := by
  constructor
  · intro m hm
    rcases h.client with hsame | hnone
    · rw [hsame] at hm
      cases hm
      exact h.last
    · rw [hnone] at hm
      cases hm
  · exact fun _ => h.attempted

/-- An update that returns leaves no static register of its link unasked. -/
theorem asyncUpdate_readOn {home home' : Home κ} (hbefore : StaticsRead home.world)
    (h : asyncUpdate home = (.ret (), home')) :
    ∃ firstPoll home₁ l, ensureConnected home = (.ret firstPoll, home₁) ∧
      ReadOn home₁.world home'.world l := by
  obtain ⟨firstPoll, home₁, state, hensure, hpoll⟩ := asyncUpdate_ret h
  obtain ⟨⟨l, hup⟩, hopens, hasked⟩ := asyncPoll_asked hpoll
  have hsession : SameSession home₁.world home'.world := by
    have := asyncPoll_moves (fun _ _ _ => SameSession.asks.request _ _) firstPoll home₁.world
    rwa [hpoll] at this
  have hlast : HoldsLast home₁.world := by
    rcases ensureConnected_ret hensure with rfl | ⟨_, hconnect⟩
    · exact hbefore.last
    · have := KeepsLast.connect home.world hbefore.last
      rwa [hconnect] at this
  refine ⟨firstPoll, home₁, l, hensure, hup, ?_, ?_, ?_⟩
  · rw [hopens.lastOpened]
    exact hlast l hup.client
  · rw [← hup.client]
    exact hsession.client
  · intro r hr
    cases firstPoll with
    | true => exact (hasked r (List.mem_append_left _ hr)).attempted hopens
    | false =>
      -- Not a first poll: the link is that of an earlier one.
      obtain rfl : home₁ = home := by
        rcases ensureConnected_ret hensure with hsame | ⟨hfirst, _⟩
        · exact hsame
        · cases hfirst
      have hsome : home₁.world.self.client ≠ none := by
        rw [hup.client]
        exact Option.some_ne_none l
      exact (hbefore.attempted hsome r hr).later hopens

theorem coordinatorPoll_of_ret {home home₁ : Home κ} (h : asyncUpdate home = (.ret (), home₁)) :
    coordinatorPoll home = (.ret (), home₁.backOnline) := by
  rw [coordinatorPoll, bind_of_ret (attempt_of_ret h)]
  show (Coro.get >>= _) home₁ = _
  rw [get_bind]
  unfold Home.backOnline
  split <;> rfl

omit [Cipher κ] in
theorem ReadOn.backOnline {w : World κ} {home : Home κ} {l : Nat} (h : ReadOn w home.world l) :
    ReadOn w home.backOnline.world l := by
  have hopens : OpensNone home.world home.backOnline.world := by
    unfold Home.backOnline
    split
    · exact Does.refl _
    · exact Does.log _ fun _ => rfl
  have hclient : home.backOnline.world.self.client = home.world.self.client :=
    congrArg Client.client home.backOnline_coordinator.2
  refine ⟨h.up, ?_, ?_, fun r hr => (h.attempted r hr).later hopens⟩
  · rw [hopens.lastOpened]
    exact h.last
  · rw [hclient]
    exact h.client

/-- A poll that succeeds, from a state between polls. -/
theorem coordinatorPoll_readOn {home home' : Home κ} (hbefore : StaticsRead home.world)
    (hpoll : coordinatorPoll home = (.ret (), home')) (hret : (asyncUpdate home).1 = .ret ()) :
    ∃ firstPoll home₁ l, ensureConnected home = (.ret firstPoll, home₁) ∧
      ReadOn home₁.world home'.world l := by
  obtain ⟨firstPoll, home₁, l, hensure, hread⟩ := asyncUpdate_readOn hbefore (run_eq hret)
  rw [coordinatorPoll_of_ret (run_eq hret)] at hpoll
  cases hpoll
  exact ⟨firstPoll, home₁, l, hensure, hread.backOnline⟩

/-! ## Every run -/

theorem Between.staticsRead {home home' : Home κ} (h : Between home home')
    (hbefore : StaticsRead home.world) : StaticsRead home'.world := by
  cases h with
  | event e =>
    exact hbefore.later (Does.of_idle (Idle.apply e home.world)) (SameSession.apply e _).client
  | supply script gas => exact hbefore.later (Does.of_same (List.suffix_refl _) rfl) (Or.inl rfl)
  | advertised manufacturerData => exact hbefore

theorem Polls.staticsRead {home₀ home : Home κ} (h : Polls home₀ home)
    (hstart : home₀.world.self.client = none) : StaticsRead home.world := by
  induction h with
  | start => exact StaticsRead.of_none hstart
  | between _ hb ih => exact hb.staticsRead ih
  | poll _ hpoll ih =>
    obtain ⟨_, hended⟩ := coordinatorPoll_ended hpoll
    cases hended with
    | failed e _ _ hnone => exact StaticsRead.of_none hnone
    | succeeded _ _ _ _ hret _ _ _ _ =>
      obtain ⟨_, _, _, _, hread⟩ := coordinatorPoll_readOn ih hpoll hret
      exact hread.staticsRead

/-- In every run of polls, with any outcomes and any reconnects: between polls
    the info has the values of the state; the static registers of a link that
    the client holds have been asked for; and so have those of the link on
    which a poll that succeeded has read. -/
theorem polls_keep_statics {home₀ home₁ home : Home κ} {deviceName : Option String}
    (hsetup : setupEntry home₀ deviceName = .ok home₁) (h : Polls home₁ home) :
    home.coordinator.InfoAgrees ∧
    (∀ l, home.world.self.client = some l →
      home.world.lastOpened = some l ∧ ∀ r ∈ staticRegisters, home.world.Attempted r) ∧
    ∀ home', coordinatorPoll home = (.ret (), home') → (asyncUpdate home).1 = .ret () →
      ∃ firstPoll home₂ l, ensureConnected home = (.ret firstPoll, home₂) ∧
        ReadOn home₂.world home'.world l := by
  have hread := h.staticsRead (setupEntry_client hsetup)
  refine ⟨h.infoAgrees (setupEntry_infoAgrees hsetup), ?_, ?_⟩
  · intro l hl
    have hsome : home.world.self.client ≠ none := by
      rw [hl]
      exact Option.some_ne_none l
    exact ⟨hread.last l hl, hread.attempted hsome⟩
  · exact fun _ hpoll hret => coordinatorPoll_readOn hread hpoll hret

end Links

/-- The first poll of a scooter that answers; after it the info is no more
    what the setup made it. -/
theorem answered_keeps_statics :
    (∃ firstPoll home₂ l, ensureConnected setUpHome = (.ret firstPoll, home₂) ∧
      ReadOn home₂.world answeredHome.world l) ∧
    answeredHome.coordinator.info.serialNumber = some (.str (string serialChallenge)) ∧
    answeredHome.coordinator.InfoAgrees ∧
    ∀ l, answeredHome.world.self.client = some l →
      answeredHome.world.lastOpened = some l ∧
        ∀ r ∈ staticRegisters, answeredHome.world.Attempted r := by
  have hbefore := polls_keep_statics answered_setUp .start
  obtain ⟨_, hpoll, hended⟩ := answered_ended
  have hafter := polls_keep_statics answered_setUp (Polls.start.poll hpoll)
  have hserial : answeredHome.coordinator.info.serialNumber =
      some (.str (string serialChallenge)) := by decide +kernel
  cases hended with
  | succeeded _ _ _ _ hret _ _ _ _ =>
    exact ⟨hbefore.2.2 _ hpoll hret, hserial, hafter.1, hafter.2.1⟩

end Ninebot
