import Ninebot.Pynebot.Client

/-! # The coordinator

    `coordinator.py` and the setup of `__init__.py`: one config entry, its
    coordinator and its client.  The advertisement that triggers a poll
    carries the device, whose address does not change, and is not modelled. -/

namespace Ninebot

/-! ## State -/

structure ConfigEntry where
  title : String
  address : String
  name : Option String
  /-- `CONF_APP_KEY`: the pairing key, in hex. -/
  appKey : Option String
  deriving DecidableEq, Repr

structure Coordinator where
  state : ScooterState
  info : ScooterInfo
  pairingRequired : Bool
  hardwareId : Option Nat
  /-- Kept by Home Assistant's base class, which starts with `True`. -/
  lastPollSuccessful : Bool
  deriving DecidableEq

/-- `NinebotCoordinator.__init__` -/
def Coordinator.make (address title : String) : Coordinator where
  state := {}
  info := { address := address, name := some title }
  pairingRequired := false
  hardwareId := none
  lastPollSuccessful := true

/-- `_async_handle_bluetooth_event`: the hardware ID of an advertisement that has one. -/
def Coordinator.advertised (self : Coordinator) (manufacturerData : Bytes) : Coordinator :=
  if manufacturerData = [] then self
  else { self with hardwareId := parseHardwareId manufacturerData }

structure Home (κ : Type) where
  world : World κ
  entry : ConfigEntry
  coordinator : Coordinator

abbrev H (κ : Type) : Type → Type := Coro (Home κ) Exc

variable {κ : Type}

/-- Run a method of the client. -/
def H.client {α : Type} (m : M κ α) : H κ α :=
  Coro.zoom Home.world (fun home world => { home with world := world }) m

def H.setCoordinator (f : Coordinator → Coordinator) : H κ Unit :=
  Coro.modify fun home => { home with coordinator := f home.coordinator }

def H.log (level : LogLevel) (text : String) : H κ Unit := do
  H.client (M.log (.log level ((← Coro.get).entry.title ++ text)))

/-! ## Polling -/

/-- Store the pairing key so restarts do not need a button press. -/
def persistAppKey : H κ Unit := do
  let home ← Coro.get
  let appKey := hexLower home.world.self.appKey
  if home.entry.appKey = some appKey then return ()
  else Coro.modify fun home => { home with entry := { home.entry with appKey := some appKey } }

section Poll

variable [Cipher κ]

/-- Connect if the link is down; say whether this is a first poll. -/
def ensureConnected : H κ Bool := do
  let home ← Coro.get
  if home.world.isConnected then return decide (home.coordinator.state.values = ∅)
  else
    H.client connect
    persistAppKey
    -- The key is stored only once `connect` has returned.
    return true

/-- Connect if needed, then read the scooter's registers. -/
def asyncUpdate : H κ Unit := do
  let firstPoll ← ensureConnected
  let snapshot ← H.client (asyncPoll firstPoll)
  -- Not reached when the poll raises: the state stays as it was.
  H.setCoordinator fun c => { c with state := c.state.update snapshot, pairingRequired := false }
  if firstPoll then
    Coro.modify fun home => { home with coordinator := { home.coordinator with
      info := home.world.self.buildInfo home.coordinator.state
        (match home.coordinator.hardwareId with
          | none => defaultHardwareId
          | some id => if id = 0 then defaultHardwareId else id) } }

/-- Close the link so the next poll starts from a clean handshake. -/
def dropConnection : H κ Unit := do
  let _ ← Coro.attempt (·.isInstance [.exception]) (H.client disconnect)
  return ()

/-- Mark the poll failed, with one line if the last one was not. -/
def markFailed (level : LogLevel) (text : String) : H κ Unit := do
  if (← Coro.get).coordinator.lastPollSuccessful then
    H.log level text
    H.setCoordinator fun c => { c with lastPollSuccessful := false }

/-- Poll the scooter, tolerating the failures a sleepy device produces. -/
def coordinatorPoll : H κ Unit := do
  match ← Coro.attempt (·.isInstance [.exception]) asyncUpdate with
  | .error err =>
      if err.isInstance [.ninebotPairingRequiredError] then
        H.setCoordinator fun c => { c with pairingRequired := true }
        markFailed .warning (" needs pairing: " ++ err.msg)
      else if err.isInstance [.ninebotError] then
        markFailed .info (" is unavailable: " ++ err.msg)
      else markFailed .error ": unexpected error while polling"
      -- Every failure ends with a fresh link at the next poll.
      dropConnection
  | .ok () =>
      if (← Coro.get).coordinator.lastPollSuccessful then return ()
      else
        H.log .info " is back online"
        H.setCoordinator fun c => { c with lastPollSuccessful := true }

end Poll

/-! ## Setup -/

def hexValue (c : Char) : Option Nat :=
  if c.isDigit then some (c.toNat - '0'.toNat)
  else if 'a' ≤ c ∧ c ≤ 'f' then some (c.toNat - 'a'.toNat + 10)
  else if 'A' ≤ c ∧ c ≤ 'F' then some (c.toNat - 'A'.toNat + 10)
  else none

/-- The white space that `bytes.fromhex` skips. -/
def hexSpace (c : Char) : Bool := c.toNat = 0x20 ∨ (0x09 ≤ c.toNat ∧ c.toNat ≤ 0x0D)

/-- `bytes.fromhex`, which skips white space between bytes. -/
def fromHex : List Char → Except Exc Bytes
  | [] => .ok []
  | [c] =>
      if hexSpace c then .ok []
      else .error ⟨.valueError, "non-hexadecimal number found in fromhex() arg"⟩
  | c :: d :: rest =>
      if hexSpace c then fromHex (d :: rest)
      else
        match hexValue c, hexValue d with
        | some high, some low =>
            (fromHex rest).map fun bytes => UInt8.ofNat (16 * high + low) :: bytes
        | _, _ => .error ⟨.valueError, "non-hexadecimal number found in fromhex() arg"⟩

/-- The key that `async_setup_entry` passes to the client. -/
def ConfigEntry.storedKey (self : ConfigEntry) : Except Exc (Option Bytes) :=
  match self.appKey with
  | none => .ok none
  | some hex => if hex = "" then .ok none else (fromHex hex.toList).map some

/-- `async_setup_entry`: a new client and a new coordinator for the entry.
    The links of the process that ended are gone. -/
def setupEntry [Cipher κ] (home : Home κ) (deviceName : Option String) :
    Except Exc (Home κ) := do
  let appKey ← home.entry.storedKey
  let name := (home.entry.name.filter (· ≠ "")).or deviceName
  let world := home.world
  return { home with
    world := { world with
      self := Client.make home.entry.address name deviceName appKey (world.secrets world.drawn)
      drawn := world.drawn + 1
      -- The process that owned them has ended.
      links := fun l => { world.links l with isConnected := false } }
    coordinator := Coordinator.make home.entry.address home.entry.title }

end Ninebot
