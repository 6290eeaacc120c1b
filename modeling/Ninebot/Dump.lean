import Ninebot.Lib.Redaction
import Ninebot.Statics

/-! # The diagnostics dump

    `diagnostics.py`: what a user sends along with a bug report.  The pairing
    key and three identifiers must not be in it.  They are held in the entry,
    in `coordinator.info` and in two maps of `coordinator.state`.

    The redaction itself is a function of Home Assistant, and a parameter here.

    This file defines:
    - `diagnostics`: the dump
    - `SameButIdentifiers`: states that differ only in what must not be in it -/

namespace Ninebot

open Redaction

variable {κ : Type}

/-! ## Plain data -/

inductive Plain where
  | none : Plain
  | bool : Bool → Plain
  | int : Int → Plain
  | float : Rat → Plain
  | str : String → Plain
  deriving DecidableEq, Repr

abbrev Dump : Type := Data String Plain

/-- `None` and the empty string. -/
def Plain.isBlank : Plain → Bool
  | .none => true
  | .str text => text = ""
  | _ => false

def Value.dump : Value → Dump
  | .int n => .leaf (.int n)
  | .float x => .leaf (.float x)
  | .bool b => .leaf (.bool b)
  | .str text => .leaf (.str text)
  | .floats xs => .list (xs.map fun x => .leaf (.float x))

def dumpValue : Option Value → Dump
  | some value => value.dump
  | none => .leaf .none

def dumpText : Option String → Dump
  | some text => .leaf (.str text)
  | none => .leaf .none

/-! ## The dump -/

/-- `TO_REDACT` -/
def toRedact : List String := ["app_key", "serial_number", "bms_serial_number", "cpu_id"]

def isRedacted (key : String) : Bool := decide (key ∈ toRedact)

/-- `dict(entry.data)`.  The key is absent until a session has stored it. -/
def ConfigEntry.data (self : ConfigEntry) : List (String × Dump) :=
  [("address", .leaf (.str self.address)), ("name", dumpText self.name)] ++
    self.appKey.toList.map fun hex => ("app_key", .leaf (.str hex))

/-- The options of an entry. -/
structure EntryOptions where
  pollInterval : Option Rat

/-- `dict(entry.options)` -/
def EntryOptions.data (self : EntryOptions) : List (String × Dump) :=
  self.pollInterval.toList.map fun seconds => ("poll_interval", .leaf (.float seconds))

/-- Two minutes. -/
def defaultPollInterval : Rat := 120

/-- `coordinator.poll_interval` -/
def EntryOptions.interval (self : EntryOptions) : Rat :=
  self.pollInterval.getD defaultPollInterval

/-- `asdict(coordinator.info)` -/
def ScooterInfo.asDict (self : ScooterInfo) : List (String × Dump) :=
  [("address", .leaf (.str self.address)), ("name", dumpText self.name),
    ("hardware_id", .leaf (.int self.hardwareId)),
    ("serial_number", dumpValue self.serialNumber),
    ("controller_firmware", dumpValue self.controllerFirmware),
    ("ble_firmware", dumpValue self.bleFirmware),
    ("bms_firmware", dumpValue self.bmsFirmware),
    ("bms_serial_number", dumpValue self.bmsSerialNumber)]

def DiagnosticsRow.dump (self : DiagnosticsRow) : Dump :=
  .dict [("index", .leaf (.str self.index)), ("board", .leaf (.str self.board)),
    ("length", .leaf (.int self.length)), ("scale", .leaf (.float self.scale)),
    ("raw", .leaf (.str self.raw)), ("value", dumpValue self.value)]

/-- `state.failures`, in the order of its keys. -/
def ScooterState.failuresData (self : ScooterState) : List (String × Dump) :=
  (failureRows self).map fun row => (row.1, .leaf (.str row.2))

/-- `async_get_config_entry_diagnostics` -/
def diagnostics (redact : Dump → Dump) (home : Home κ) (options : EntryOptions) : Dump :=
  let state := home.coordinator.state
  .dict [
    ("entry", .dict [
      ("data", redact (.dict home.entry.data)),
      ("options", .dict options.data)]),
    ("device", redact (.dict home.coordinator.info.asDict)),
    ("poll", .dict [
      ("interval_seconds", .leaf (.float options.interval)),
      ("last_poll_successful", .leaf (.bool home.coordinator.lastPollSuccessful)),
      ("pairing_required", .leaf (.bool home.coordinator.pairingRequired)),
      ("connected", .leaf (.bool home.world.isConnected))]),
    ("registers", redact (.dict ((diagnosticsRegisters state).map fun row => (row.1, row.2.dump)))),
    ("failures", .dict state.failuresData)]

/-! ## What must not be told apart -/

/-- The registers that identify a scooter. -/
def identifiers : List String := ["serial_number", "bms_serial_number", "cpu_id"]

/-- There is no value, or there is one that is not empty, on both sides. -/
def BothPresent {α : Type} (empty : α) (a b : Option α) : Prop :=
  (a = none ∧ b = none) ∨ ∃ x y, a = some x ∧ b = some y ∧ x ≠ empty ∧ y ≠ empty

instance {α : Type} [DecidableEq α] (empty : α) : (a b : Option α) →
    Decidable (BothPresent empty a b)
  | none, none => isTrue (Or.inl ⟨rfl, rfl⟩)
  | some x, some y => decidable_of_iff (x ≠ empty ∧ y ≠ empty) (by simp [BothPresent])
  | none, some _ => isFalse (by simp [BothPresent])
  | some _, none => isFalse (by simp [BothPresent])

/-- The same coordinator, up to the app key and the identifiers. -/
structure SameButIdentifiers (home home' : Home κ) : Prop where
  entry : home'.entry = { home.entry with appKey := home'.entry.appKey }
  appKey : BothPresent "" home.entry.appKey home'.entry.appKey
  coordinator : home'.coordinator = { home.coordinator with
    state := home'.coordinator.state
    info := { home.coordinator.info with
      serialNumber := home'.coordinator.info.serialNumber
      bmsSerialNumber := home'.coordinator.info.bmsSerialNumber } }
  failures : home'.coordinator.state.failures = home.coordinator.state.failures
  raw : ∀ key ∉ identifiers,
    home'.coordinator.state.raw.lookup key = home.coordinator.state.raw.lookup key
  values : ∀ key ∉ identifiers,
    home'.coordinator.state.values.lookup key = home.coordinator.state.values.lookup key
  rawIdentifiers : ∀ key ∈ identifiers,
    BothPresent "" (home.coordinator.state.raw.lookup key) (home'.coordinator.state.raw.lookup key)
  valueIdentifiers : ∀ key ∈ identifiers,
    BothPresent (.str "") (home.coordinator.state.values.lookup key)
      (home'.coordinator.state.values.lookup key)
  connected : home'.world.isConnected = home.world.isConnected

/-- Entries of a mapping that the redaction does not tell apart. -/
abbrev Unseen : String × Dump → String × Dump → Prop := Veils Plain.isBlank isRedacted

theorem Value.dump_notBlank {value : Value} (h : value ≠ .str "") :
    value.dump.isBlank Plain.isBlank = false := by
  cases value with
  | str text =>
    have htext : text ≠ "" := fun heq => h (by rw [heq])
    exact decide_eq_false htext
  | _ => rfl

theorem BothPresent.unseen {a b : Option Value} (h : BothPresent (.str "") a b) {key : String}
    (hkey : isRedacted key = true) : Unseen (key, dumpValue a) (key, dumpValue b) := by
  rcases h with ⟨rfl, rfl⟩ | ⟨x, y, rfl, rfl, hx, hy⟩
  · exact Veils.refl _
  · exact Veils.of_hidden hkey (Value.dump_notBlank hx) (Value.dump_notBlank hy)

section Parts

variable {home home' : Home κ} (h : SameButIdentifiers home home')
include h

theorem SameButIdentifiers.entry_unseen :
    List.Forall₂ Unseen home.entry.data home'.entry.data := by
  rw [h.entry]
  refine .cons (Veils.refl _) (.cons (Veils.refl _) ?_)
  rcases h.appKey with ⟨hnone, hnone'⟩ | ⟨x, y, hsome, hsome', hx, hy⟩
  · rw [hnone, hnone']
    exact .nil
  · rw [hsome, hsome']
    refine .cons (Veils.of_hidden (by decide) ?_ ?_) .nil
    · exact decide_eq_false hx
    · exact decide_eq_false hy

/-- What the info has of the identifiers it has from the state. -/
theorem SameButIdentifiers.device_unseen (hinfo : home.coordinator.InfoAgrees)
    (hinfo' : home'.coordinator.InfoAgrees) :
    List.Forall₂ Unseen home.coordinator.info.asDict home'.coordinator.info.asDict := by
  have hserial : BothPresent (.str "") home.coordinator.info.serialNumber
      home'.coordinator.info.serialNumber := by
    rw [hinfo.serialNumber, hinfo'.serialNumber]
    exact h.valueIdentifiers _ (by decide)
  have hbms : BothPresent (.str "") home.coordinator.info.bmsSerialNumber
      home'.coordinator.info.bmsSerialNumber := by
    rw [hinfo.bmsSerialNumber, hinfo'.bmsSerialNumber]
    exact h.valueIdentifiers _ (by decide)
  rw [h.coordinator]
  refine .cons (Veils.refl _) (.cons (Veils.refl _) (.cons (Veils.refl _) (.cons ?_ ?_)))
  · exact hserial.unseen (by decide)
  · refine .cons (Veils.refl _) (.cons (Veils.refl _) (.cons (Veils.refl _) (.cons ?_ .nil)))
    exact hbms.unseen (by decide)

theorem SameButIdentifiers.raw_keys :
    home'.coordinator.state.raw.keys = home.coordinator.state.raw.keys := by
  ext key
  rw [Finmap.mem_keys, Finmap.mem_keys, ← Finmap.lookup_isSome, ← Finmap.lookup_isSome]
  by_cases hkey : key ∈ identifiers
  · rcases h.rawIdentifiers key hkey with ⟨hnone, hnone'⟩ | ⟨x, y, hsome, hsome', _, _⟩
    · rw [hnone, hnone']
    · rw [hsome, hsome']
      exact Iff.rfl
  · rw [h.raw key hkey]

/-- The rows of the identifiers are hidden as a whole. -/
theorem SameButIdentifiers.registers_unseen :
    List.Forall₂ Unseen
      ((diagnosticsRegisters home.coordinator.state).map fun row => (row.1, row.2.dump))
      ((diagnosticsRegisters home'.coordinator.state).map fun row => (row.1, row.2.dump)) := by
  unfold diagnosticsRegisters
  rw [h.raw_keys, List.map_filterMap, List.map_filterMap]
  apply forall₂_filterMap
  intro key _
  -- A row of an identifier is redacted, and any other row is the same in both.
  by_cases hkey : key ∈ identifiers
  · rcases h.rawIdentifiers key hkey with ⟨hnone, hnone'⟩ | ⟨x, y, hsome, hsome', _, _⟩
    · rw [hnone, hnone']
      exact .none
    · rw [hsome, hsome']
      simp only [Option.bind_eq_bind, Option.bind_some, Option.pure_def]
      unfold diagnosticsRow
      rcases registersByKey key with e | register
      · exact .none
      · have hredacted : isRedacted key = true := by
          have hsubset : ∀ key ∈ identifiers, isRedacted key = true := by decide
          exact hsubset key hkey
        exact .some (Veils.of_hidden hredacted rfl rfl)
  · unfold diagnosticsRow
    rw [h.raw key hkey, h.values key hkey]
    generalize (Option.map _ _ : Option (String × Dump)) = row
    cases row with
    | none => exact .none
    | some row => exact .some (Veils.refl row)

end Parts

/-- Two coordinators that polls have led to, and that differ only in the app key
    and in what was read of the three identifiers, give the same dump. -/
theorem diagnostics_redacted [Cipher κ] {redact : Dump → Dump} {marker : Dump}
    (hredact : Redacts Plain.isBlank isRedacted marker redact)
    {home₀ home₀' home₁ home₁' home home' : Home κ} {deviceName deviceName' : Option String}
    (hsetup : setupEntry home₀ deviceName = .ok home₁) (hpolls : Polls home₁ home)
    (hsetup' : setupEntry home₀' deviceName' = .ok home₁') (hpolls' : Polls home₁' home')
    (h : SameButIdentifiers home home') (options : EntryOptions) :
    diagnostics redact home options = diagnostics redact home' options := by
  have hinfo := hpolls.infoAgrees (setupEntry_infoAgrees hsetup)
  have hinfo' := hpolls'.infoAgrees (setupEntry_infoAgrees hsetup')
  have hcoordinator := h.coordinator
  have hlast : home'.coordinator.lastPollSuccessful = home.coordinator.lastPollSuccessful := by
    rw [hcoordinator]
  have hpairing : home'.coordinator.pairingRequired = home.coordinator.pairingRequired := by
    rw [hcoordinator]
  have hfailures : home'.coordinator.state.failuresData = home.coordinator.state.failuresData := by
    unfold ScooterState.failuresData failureRows
    rw [h.failures]
  unfold diagnostics
  dsimp only
  rw [hredact.dict_eq h.entry_unseen, hredact.dict_eq (h.device_unseen hinfo hinfo'),
    hredact.dict_eq h.registers_unseen, hlast, hpairing, hfailures, h.connected]

/-! ## Two scooters -/

def otherSerial : Bytes := serialChallenge.reverse

/-- The same answers from a scooter with another serial number. -/
def otherAnswered : List Step :=
  verified ++ (pollRegisters true).flatMap fun register =>
    [.answer .ok, respond 0 (readReply register.board register.index
      (if register.key = "serial_number" then otherSerial
        else List.replicate register.length 1)), .answer .ok]

/-- Another key is stored for it. -/
def otherAddedHome : Home StubCrypto :=
  { addedHome with
    world := World.ofScript (fakeClient none) otherAnswered
    entry := { addedHome.entry with appKey := some (hexLower (List.replicate 16 0x17)) } }

def otherSetUpHome : Home StubCrypto :=
  match setupEntry otherAddedHome none with
  | .ok home => home
  | .error _ => otherAddedHome

def otherAnsweredHome : Home StubCrypto := (coordinatorPoll otherSetUpHome).2

theorem otherAnswered_setUp : setupEntry otherAddedHome none = .ok otherSetUpHome := by
  unfold otherSetUpHome
  rfl

/-- Another serial number was read, and nothing else is different. -/
structure OtherSerial (c c' : Coordinator) (raw : String) (value : Value) : Prop where
  raw : c'.state.raw = c.state.raw.insert "serial_number" raw
  values : c'.state.values = c.state.values.insert "serial_number" value
  failures : c'.state.failures = c.state.failures
  info : c'.info = { c.info with serialNumber := some value }
  pairingRequired : c'.pairingRequired = c.pairingRequired
  hardwareId : c'.hardwareId = c.hardwareId
  lastPollSuccessful : c'.lastPollSuccessful = c.lastPollSuccessful

theorem OtherSerial.sameButIdentifiers {home home' : Home κ} {raw : String} {value : Value}
    (h : OtherSerial home.coordinator home'.coordinator raw value)
    (hentry : home'.entry = { home.entry with appKey := home'.entry.appKey })
    (hkey : BothPresent "" home.entry.appKey home'.entry.appKey)
    (hidentifiers : ∀ key ∈ identifiers,
      BothPresent "" (home.coordinator.state.raw.lookup key)
        (home'.coordinator.state.raw.lookup key) ∧
      BothPresent (.str "") (home.coordinator.state.values.lookup key)
        (home'.coordinator.state.values.lookup key))
    (hconnected : home'.world.isConnected = home.world.isConnected) :
    SameButIdentifiers home home' := by
  have hserial : "serial_number" ∈ identifiers := by decide
  refine ⟨hentry, hkey, ?_, h.failures, ?_, ?_, fun key hmem => (hidentifiers key hmem).1,
    fun key hmem => (hidentifiers key hmem).2, hconnected⟩
  · -- The device information differs in its two serial numbers only.
    have hinfo : { home.coordinator.info with
        serialNumber := home'.coordinator.info.serialNumber
        bmsSerialNumber := home'.coordinator.info.bmsSerialNumber } = home'.coordinator.info := by
      rw [h.info]
    show _ = Coordinator.mk _ _ home.coordinator.pairingRequired home.coordinator.hardwareId
      home.coordinator.lastPollSuccessful
    rw [hinfo, ← h.pairingRequired, ← h.hardwareId, ← h.lastPollSuccessful]
  · intro key hmem
    rw [h.raw]
    exact Finmap.lookup_insert_of_ne _ fun heq => hmem (heq ▸ hserial)
  · intro key hmem
    rw [h.values]
    exact Finmap.lookup_insert_of_ne _ fun heq => hmem (heq ▸ hserial)

theorem otherAnswered_run :
    (coordinatorPoll otherSetUpHome).1 = .ret () ∧
    otherAnsweredHome.entry = { answeredHome.entry with appKey := otherAnsweredHome.entry.appKey } ∧
    BothPresent "" answeredHome.entry.appKey otherAnsweredHome.entry.appKey ∧
    (∀ key ∈ identifiers,
      BothPresent "" (answeredHome.coordinator.state.raw.lookup key)
        (otherAnsweredHome.coordinator.state.raw.lookup key) ∧
      BothPresent (.str "") (answeredHome.coordinator.state.values.lookup key)
        (otherAnsweredHome.coordinator.state.values.lookup key)) ∧
    otherAnsweredHome.world.isConnected = answeredHome.world.isConnected := by
  decide +kernel

theorem otherAnswered_serial :
    otherAnsweredHome.coordinator.state.raw =
      answeredHome.coordinator.state.raw.insert "serial_number" (hexUpper otherSerial) ∧
    otherAnsweredHome.coordinator.state.values =
      answeredHome.coordinator.state.values.insert "serial_number" (.str (string otherSerial)) ∧
    otherAnsweredHome.coordinator.state.failures = answeredHome.coordinator.state.failures ∧
    otherAnsweredHome.coordinator.info = { answeredHome.coordinator.info with
      serialNumber := some (.str (string otherSerial)) } ∧
    otherAnsweredHome.coordinator.pairingRequired = answeredHome.coordinator.pairingRequired ∧
    otherAnsweredHome.coordinator.hardwareId = answeredHome.coordinator.hardwareId ∧
    otherAnsweredHome.coordinator.lastPollSuccessful =
      answeredHome.coordinator.lastPollSuccessful := by
  decide +kernel

/-- Neither the key nor the serial number can be told from the dump. -/
theorem otherAnswered_redacted :
    diagnostics (redact Plain.isBlank isRedacted (.leaf (.str "**REDACTED**"))) answeredHome
        ⟨some 60⟩ =
      diagnostics (redact Plain.isBlank isRedacted (.leaf (.str "**REDACTED**")))
        otherAnsweredHome ⟨some 60⟩ := by
  obtain ⟨_, hpoll, _⟩ := answered_ended
  obtain ⟨hret, hentry, hkey, hidentifiers, hconnected⟩ := otherAnswered_run
  have hpoll' : coordinatorPoll otherSetUpHome = (.ret (), otherAnsweredHome) := completed hret
  obtain ⟨hraw, hvalues, hfailures, hinfo, hpairing, hhardware, hlast⟩ := otherAnswered_serial
  have hserial : OtherSerial answeredHome.coordinator otherAnsweredHome.coordinator
      (hexUpper otherSerial) (.str (string otherSerial)) :=
    ⟨hraw, hvalues, hfailures, hinfo, hpairing, hhardware, hlast⟩
  exact diagnostics_redacted (redact_redacts _ _ _) answered_setUp (.poll .start hpoll)
    otherAnswered_setUp (.poll .start hpoll')
    (hserial.sameButIdentifiers hentry hkey hidentifiers hconnected) ⟨some 60⟩

end Ninebot
