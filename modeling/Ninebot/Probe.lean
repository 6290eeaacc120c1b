import Ninebot.Sensors

/-! # The probe

    `dump` of `scripts/probe.py`: the other program that drives the client.  It
    connects, reads every register once, lets go of the link, and prints a
    report.  A printed line is its data here; the layout is left out, as are
    the scan before it and the command line.

    This file defines:
    - `Line` and `reportLine`: what is printed of a register
    - `dump`: the program, over a world and the lines printed so far -/

namespace Ninebot

open Coro

variable {κ : Type}

/-! ## The report -/

inductive Line where
  | connecting (deviceName : Option String)
  | connectionFailed (err : Exc)
  | handshakeOk (appKey : String)
  | pollFailed (err : Exc)
  /-- A register without a payload, with the reason. -/
  | unread (key : String) (index : Nat) (reason : String)
  | read (key : String) (index : Nat) (raw : String) (value : Option Value) (scale : Option Rat)
  /-- How many registers did not answer. -/
  | unanswered (count : Nat)
  deriving DecidableEq

/-- `GROUPS` -/
inductive Group where
  | mcu | bms | ble
  deriving DecidableEq

def Group.board : Group → DeviceId
  | .mcu => .mcu
  | .bms => .bms
  | .ble => .ble

/-- The line of one register. -/
def reportLine (state : ScooterState) (register : Register) : Line :=
  match state.raw.lookup register.key with
  | none =>
      .unread register.key register.index
        ((state.failures.lookup register.key).getD "not read")
  | some raw =>
      .read register.key register.index raw (state.values.lookup register.key)
        (if register.scale = 1 then none else some register.scale)

/-- The registers that are asked for, in the order of the register map. -/
def wantedRegisters (groups : List Group) : List Register :=
  registers.filter fun register => groups.any fun group => group.board == register.board

def report (groups : List Group) (state : ScooterState) : List Line :=
  (wantedRegisters groups).map (reportLine state) ++
    if state.failures = ∅ then [] else [.unanswered state.failures.keys.card]

/-! ## The program -/

structure Probe (κ : Type) where
  world : World κ
  printed : List Line

abbrev P (κ : Type) : Type → Type := Coro (Probe κ) Exc

/-- Run a method of the client. -/
def P.client {α : Type} (m : M κ α) : P κ α :=
  Coro.zoom Probe.world (fun probe world => { probe with world := world }) m

def P.print (lines : List Line) : P κ Unit :=
  Coro.modify fun probe => { probe with printed := probe.printed ++ lines }

variable [Cipher κ]

/-- `NinebotClient(device, request_timeout=timeout)` -/
def Probe.make (world : World κ) (address : String) (deviceName : Option String)
    (timeout : Nat) : Probe κ where
  world := { world with
    self := Client.make address none deviceName none (world.secrets world.drawn) timeout
    drawn := world.drawn + 1 }
  printed := []

/-- The second half of `dump`: poll, let go of the link, and report. -/
def dumpRegisters (groups : List Group) : P κ Nat := do
  -- `finally` runs whatever the poll raises, and after the handler has printed.
  match ← Coro.attempt (fun _ => true) (P.client (asyncPoll true)) with
  | .error err =>
      if err.isInstance [.ninebotError] then
        P.print [.pollFailed err]
        P.client disconnect
        return 1
      else
        P.client disconnect
        Coro.raise err
  | .ok state =>
      P.client disconnect
      P.print (report groups state)
      return 0

/-- Connect and print every register in the requested groups. -/
def dump (deviceName : Option String) (groups : List Group) : P κ Nat := do
  P.print [.connecting deviceName]
  match ← Coro.attempt (·.isInstance [.ninebotError]) (P.client connect) with
  | .error err =>
      P.print [.connectionFailed err]
      return 1
  | .ok () =>
      P.print [.handshakeOk (hexLower (← Coro.get).world.self.appKey)]
      dumpRegisters groups

/-! ## What is printed -/

/-- The line of a register whose read ended so. -/
def Register.line (self : Register) : Outcome → Line
  | .error e => .unread self.key self.index e.msg
  | .ok payload =>
      .read self.key self.index (hexUpper payload) (self.convert payload).toOption
        (if self.scale = 1 then none else some self.scale)

/-- A register without a payload has failed, so that no line says "not read". -/
theorem reportLine_said {state : ScooterState} {register : Register} {outcome : Outcome}
    (h : state.said register.key = register.report outcome) :
    reportLine state register = register.line outcome := by
  obtain ⟨hvalues, hraw, hfailures⟩ : state.values.lookup register.key = _ ∧
      state.raw.lookup register.key = _ ∧ state.failures.lookup register.key = _ := by
    simpa only [ScooterState.said, Register.report, Prod.mk.injEq] using h
  unfold reportLine
  rw [hvalues, hraw, hfailures]
  rcases outcome with e | payload
  · rfl
  · rfl

/-- Every register of a poll is said to have ended as it did. -/
theorem snapshot_said {includeStatic : Bool} {outcomes : List Outcome}
    (hlen : outcomes.length = (pollRegisters includeStatic).length) {register : Register}
    {outcome : Outcome} (h : (register, outcome) ∈ (pollRegisters includeStatic).zip outcomes) :
    (snapshot (pollRegisters includeStatic) outcomes).said register.key =
      register.report outcome := by
  apply ScooterState.said_enterAll _ _ h
  · rw [keys_zip hlen]
    exact pollRegisters_nodup includeStatic
  · exact fun _ _ => rfl

theorem exists_outcome {registers : List Register} {outcomes : List Outcome}
    (hlen : outcomes.length = registers.length) {register : Register} (h : register ∈ registers) :
    ∃ outcome, (register, outcome) ∈ registers.zip outcomes := by
  have hfst : (registers.zip outcomes).map Prod.fst = registers :=
    List.map_fst_zip (Nat.le_of_eq hlen.symm)
  rw [← hfst] at h
  obtain ⟨⟨_, outcome⟩, hmem, rfl⟩ := List.mem_map.mp h
  exact ⟨outcome, hmem⟩

/-- How many reads of a poll failed, or brought what does not decode. -/
def failed (registers : List Register) (outcomes : List Outcome) : Nat :=
  (registers.zip outcomes).countP fun read => (read.1.failure read.2).isSome

theorem snapshot_failures_card {includeStatic : Bool} {outcomes : List Outcome}
    (hlen : outcomes.length = (pollRegisters includeStatic).length) :
    (snapshot (pollRegisters includeStatic) outcomes).failures.keys.card =
      failed (pollRegisters includeStatic) outcomes := by
  set reads := (pollRegisters includeStatic).zip outcomes
  let fails (read : Register × Outcome) : Bool := (read.1.failure read.2).isSome
  have hlookup : ∀ read ∈ reads,
      (snapshot (pollRegisters includeStatic) outcomes).failures.lookup read.1.key =
        read.1.failure read.2 := fun read hmem => congrArg (·.2.2) (snapshot_said hlen hmem)
  have hkeys : (snapshot (pollRegisters includeStatic) outcomes).failures.keys =
      ((reads.filter fails).map (·.1.key)).toFinset := by
    ext key
    rw [Finmap.mem_keys, List.mem_toFinset, List.mem_map]
    constructor
    · -- A failure is noted under the key of a register of the poll.
      intro hfailed
      have hknown : key ∈ (pollRegisters includeStatic).map (·.key) := by
        by_contra hother
        exact ((snapshot_accounts (pollRegisters_nodup includeStatic) hlen).noOther key hother).2.2
          hfailed
      rw [← keys_zip hlen] at hknown
      obtain ⟨read, hread, rfl⟩ := List.mem_map.mp hknown
      refine ⟨read, List.mem_filter.mpr ⟨hread, ?_⟩, rfl⟩
      show (read.1.failure read.2).isSome = true
      rw [← hlookup read hread]
      exact Finmap.lookup_isSome.mpr hfailed
    · rintro ⟨read, hread, rfl⟩
      obtain ⟨hmem, hfails⟩ := List.mem_filter.mp hread
      rw [← Finmap.lookup_isSome, hlookup read hmem]
      exact hfails
  have hnodup : ((reads.filter fails).map (·.1.key)).Nodup := by
    have hall : (reads.map (·.1.key)).Nodup := by
      rw [keys_zip hlen]
      exact pollRegisters_nodup includeStatic
    exact hall.sublist (List.filter_sublist.map _)
  rw [hkeys, List.toFinset_card_of_nodup hnodup, List.length_map, failed,
    List.countP_eq_length_filter]

/-- What was read, when the whole report was printed. -/
structure Reported (groups : List Group) (p p' : Probe κ) (outcomes : List Outcome) : Prop where
  supplies : ∃ w', Supplies (pollRegisters true) p.world outcomes w'
  length : outcomes.length = (pollRegisters true).length
  printed : p'.printed = p.printed ++ report groups (snapshot (pollRegisters true) outcomes)

/-- How the second half can return. -/
inductive Dumped (groups : List Group) (p p' : Probe κ) : Nat → Prop where
  | unpolled (err : Exc) : (asyncPoll true p.world).1 = .raised err →
      p'.printed = p.printed ++ [.pollFailed err] → Dumped groups p p' 1
  | polled (outcomes : List Outcome) : Reported groups p p' outcomes → Dumped groups p p' 0

omit [Cipher κ] in
theorem P.client_run {α : Type} (m : M κ α) (p : Probe κ) :
    Triple (P.client m) p
      (fun a p' => m p.world = (.ret a, p'.world) ∧ p'.printed = p.printed)
      (fun e p' => m p.world = (.raised e, p'.world) ∧ p'.printed = p.printed)
      (fun _ => True) := by
  apply Triple.zoom
  unfold Triple
  rcases m p.world with ⟨_ | _ | _, w'⟩
  · exact ⟨rfl, rfl⟩
  · exact ⟨rfl, rfl⟩
  · trivial

/-- The link is let go of, however that ends. -/
theorem P.disconnect_run (p : Probe κ) :
    Triple (P.client disconnect) p
      (fun _ p' => p'.world.self.client = none ∧ p'.printed = p.printed)
      (fun _ p' => p'.world.self.client = none ∧ p'.printed = p.printed) (fun _ => True) := by
  have hdetached := disconnect_detaches p.world
  apply (P.client_run disconnect p).mono
  · intro _ p' h
    rw [h.1] at hdetached
    exact ⟨hdetached, h.2⟩
  · intro _ p' h
    rw [h.1] at hdetached
    exact ⟨hdetached, h.2⟩
  · exact fun _ _ => trivial

theorem P.asyncPoll_run (p : Probe κ) :
    Triple (P.client (asyncPoll true)) p
      (fun state p' => ∃ outcomes, (∃ w', Supplies (pollRegisters true) p.world outcomes w') ∧
        outcomes.length = (pollRegisters true).length ∧
        state = snapshot (pollRegisters true) outcomes ∧ p'.printed = p.printed)
      (fun e p' => (asyncPoll true p.world).1 = .raised e ∧ p'.printed = p.printed)
      (fun _ => True) := by
  apply (P.client_run (asyncPoll true) p).mono
  · intro state p' h
    obtain ⟨outcomes, hsupplies, hlen, hstate⟩ := (asyncPoll_supplies true p.world).ret_of h.1
    exact ⟨outcomes, ⟨_, hsupplies⟩, hlen, hstate, h.2⟩
  · exact fun e _ h => ⟨congrArg Prod.fst h.1, h.2⟩
  · exact fun _ _ => trivial

/-- Once the client is connected it is left without a link, whatever the poll
    and the disconnection raise. -/
theorem dumpRegisters_run (groups : List Group) (p : Probe κ) :
    Triple (dumpRegisters groups) p
      (fun code p' => Dumped groups p p' code ∧ p'.world.self.client = none)
      (fun _ p' => p'.world.self.client = none) (fun _ => True) := by
  have hdisconnect : ∀ p : Probe κ, Triple (P.client disconnect) p
      (fun _ p' => p'.world.self.client = none ∧ p'.printed = p.printed)
      (fun _ p' => p'.world.self.client = none) (fun _ => True) :=
    fun p => (P.disconnect_run p).mono_raised fun _ _ h => h.1
  have hpoll : Triple (P.client (asyncPoll true)) p _
      (fun e p' => if true then (asyncPoll true p.world).1 = .raised e ∧ p'.printed = p.printed
        else p'.world.self.client = none)
      (fun _ => True) := (P.asyncPoll_run p).mono_raised fun _ _ h => h
  apply Triple.attempt_bind hpoll
  · -- The poll has returned: the link is closed, and the report is printed.
    rintro _ p₁ ⟨outcomes, hsupplies, hlen, rfl, hprinted⟩
    apply Triple.bind (hdisconnect p₁)
    intro _ p₂ h₂
    apply Triple.modify_bind
    apply Triple.pure
    refine ⟨.polled outcomes ⟨hsupplies, hlen, ?_⟩, h₂.1⟩
    show p₂.printed ++ _ = _
    rw [h₂.2, hprinted]
  · -- It has raised: the link is closed all the same.
    rintro e p₁ ⟨hraised, hprinted⟩
    dsimp only
    split
    · apply Triple.modify_bind
      apply Triple.bind (hdisconnect _)
      intro _ p₂ h₂
      apply Triple.pure
      refine ⟨.unpolled e hraised ?_, h₂.1⟩
      rw [h₂.2]
      show p₁.printed ++ _ = _
      rw [hprinted]
    · apply Triple.bind (hdisconnect p₁)
      intro _ p₂ h₂
      exact Triple.raise h₂.1

omit [Cipher κ] in
theorem card_keys_eq_zero {α : Type} {d : Dict α} : d.keys.card = 0 ↔ d = ∅ := by
  rw [Finset.card_eq_zero]
  constructor
  · intro hkeys
    apply Finmap.ext_lookup
    intro key
    have hnot : key ∉ d := by
      rw [← Finmap.mem_keys, hkeys]
      exact Finset.notMem_empty key
    rw [Finmap.lookup_eq_none.mpr hnot, Finmap.lookup_empty]
  · rintro rfl
    exact Finmap.keys_empty

omit [Cipher κ] in
/-- A report has one line for each register that is asked for, with what its
    read brought, and counts the reads that failed, also those of registers
    that are not asked for. -/
theorem report_of_outcomes (groups : List Group) {outcomes : List Outcome}
    (hlen : outcomes.length = (pollRegisters true).length) :
    ∃ outcomeOf : Register → Outcome,
      (∀ register ∈ registers,
        (register, outcomeOf register) ∈ (pollRegisters true).zip outcomes) ∧
      report groups (snapshot (pollRegisters true) outcomes) =
        (wantedRegisters groups).map (fun register => register.line (outcomeOf register)) ++
          if failed (pollRegisters true) outcomes = 0 then []
          else [.unanswered (failed (pollRegisters true) outcomes)] := by
  have hexists : ∀ register : Register, ∃ outcome, register ∈ registers →
      (register, outcome) ∈ (pollRegisters true).zip outcomes := by
    intro register
    by_cases hmem : register ∈ registers
    · obtain ⟨outcome, hzip⟩ := exists_outcome hlen (mem_pollRegisters_true hmem)
      exact ⟨outcome, fun _ => hzip⟩
    · exact ⟨.ok [], fun h => absurd h hmem⟩
  choose outcomeOf hzip using hexists
  refine ⟨outcomeOf, hzip, ?_⟩
  -- One line for each register that is asked for.
  have hlines : (wantedRegisters groups).map (reportLine (snapshot (pollRegisters true) outcomes)) =
      (wantedRegisters groups).map fun register => register.line (outcomeOf register) := by
    apply List.map_congr_left
    intro register hwanted
    have hmem := (List.mem_filter.mp hwanted).1
    exact reportLine_said (snapshot_said hlen (hzip register hmem))
  have hnone : (snapshot (pollRegisters true) outcomes).failures = ∅ ↔
      failed (pollRegisters true) outcomes = 0 := by
    rw [← snapshot_failures_card hlen, card_keys_eq_zero]
  unfold report
  rw [hlines, snapshot_failures_card hlen]
  simp only [hnone]

/-- However the scooter behaves, `dump` returns 0 exactly with a whole report,
    in which every register that is asked for has one line with what its read
    brought, and 1 with the error that stopped it.  Once connected it leaves
    the client without a link, also when it raises. -/
theorem dump_reports (deviceName : Option String) (groups : List Group) (p : Probe κ) :
    Triple (dump deviceName groups) p
      (fun code p' =>
        (code = 1 ∧ ∃ err, connect p.world = (.raised err, p'.world) ∧
          p'.printed = p.printed ++ [.connecting deviceName] ++ [.connectionFailed err]) ∨
        ∃ w, connect p.world = (.ret (), w) ∧ p'.world.self.client = none ∧
          let greeted := p.printed ++ [.connecting deviceName] ++
            [.handshakeOk (hexLower w.self.appKey)]
          (code = 1 ∧ ∃ err, (asyncPoll true w).1 = .raised err ∧
            p'.printed = greeted ++ [.pollFailed err]) ∨
          (code = 0 ∧ ∃ (outcomes : List Outcome) (outcomeOf : Register → Outcome),
            (∃ w', Supplies (pollRegisters true) w outcomes w') ∧
            (∀ register ∈ registers,
              (register, outcomeOf register) ∈ (pollRegisters true).zip outcomes) ∧
            p'.printed = greeted ++
              ((wantedRegisters groups).map (fun register => register.line (outcomeOf register)) ++
                if failed (pollRegisters true) outcomes = 0 then []
                else [.unanswered (failed (pollRegisters true) outcomes)])))
      (fun _ p' => p'.printed = p.printed ++ [.connecting deviceName] ∨
        p'.world.self.client = none) (fun _ => True) := by
  apply Triple.modify_bind
  set p₀ : Probe κ := { p with printed := p.printed ++ [.connecting deviceName] }
  have hconnect : Triple (P.client connect) p₀
      (fun _ p₁ => connect p.world = (.ret (), p₁.world) ∧ p₁.printed = p₀.printed)
      (fun e p₁ => if e.isInstance [.ninebotError]
        then connect p.world = (.raised e, p₁.world) ∧ p₁.printed = p₀.printed
        else p₁.printed = p.printed ++ [.connecting deviceName] ∨ p₁.world.self.client = none)
      (fun _ => True) := by
    -- Other errors than the library's own are not caught here.
    apply (P.client_run connect p₀).mono
    · exact fun _ _ h => h
    · intro e p₁ h
      split
      · exact h
      · exact Or.inl h.2
    · exact fun _ _ => trivial
  apply Triple.attempt_bind hconnect
  · rintro _ p₁ ⟨hconnected, hprinted⟩
    apply Triple.get_bind
    apply Triple.modify_bind
    apply (dumpRegisters_run groups _).mono
    · rintro code p' ⟨hdumped, hclient⟩
      refine Or.inr ⟨p₁.world, hconnected, hclient, ?_⟩
      cases hdumped with
      | unpolled err hraised hfailed =>
        refine Or.inl ⟨rfl, err, hraised, ?_⟩
        rw [hfailed]
        show p₁.printed ++ _ ++ _ = _
        rw [hprinted]
      | polled outcomes hreported =>
        obtain ⟨outcomeOf, hzip, hreport⟩ := report_of_outcomes groups hreported.length
        refine Or.inr ⟨rfl, outcomes, outcomeOf, hreported.supplies, hzip, ?_⟩
        rw [← hreport, hreported.printed]
        show p₁.printed ++ _ ++ _ = _
        rw [hprinted]
    · exact fun _ _ h => Or.inr h
    · exact fun _ _ => trivial
  · rintro e p₁ ⟨hraised, hprinted⟩
    apply Triple.modify_bind
    apply Triple.pure
    refine Or.inl ⟨rfl, e, hraised, ?_⟩
    show p₁.printed ++ _ = _
    rw [hprinted]

/-! ## In the closed loop -/

/-- The line of a register with what is stored of it. -/
def RegisterFile.line (self : RegisterFile) (register : Register) : Line :=
  register.line (.ok (self.payload register))

instance : Scripted (Probe StubCrypto) Step :=
  ⟨fun script p => { p with world := p.world.setScript script }⟩

section Loop

variable {env : Environment Air Step} {e e' : Air} {p : Probe StubCrypto}

theorem P.client_meets {α : Type} {m : M StubCrypto α} {res : Res Exc α}
    {w w' : World StubCrypto} (h : Meets env m e w res e' w') (printed : List Line) :
    Meets env (P.client m) e ⟨w, printed⟩ res e' ⟨w', printed⟩ := by
  have hzoom : Meets env m e (Probe.mk w printed).world res e' w' := h
  exact Meets.zoom hzoom (fun _ => rfl) fun _ _ _ => rfl

end Loop

end Ninebot
