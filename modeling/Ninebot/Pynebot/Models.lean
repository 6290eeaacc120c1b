import Mathlib.Data.Finmap
import Ninebot.Pynebot.Registers

/-! # Snapshots

    `pynebot/models.py`.  A `dict` is a `Finmap`: two are equal when they map
    the same keys to the same values, whatever the order of insertion. -/

namespace Ninebot

abbrev Dict (α : Type) : Type := Finmap fun _ : String => α

def hardwareIds : List (Nat × String) :=
  [(125, "KickScooter E2/E2 Plus"), (141, "eKickScooter E2 Pro")]

def defaultHardwareId : Nat := 141

/-- Immutable facts about a scooter, read once per connection. -/
structure ScooterInfo where
  address : String
  name : Option String := none
  hardwareId : Nat := defaultHardwareId
  serialNumber : Option Value := none
  controllerFirmware : Option Value := none
  bleFirmware : Option Value := none
  bmsFirmware : Option Value := none
  bmsSerialNumber : Option Value := none
  deriving DecidableEq, Repr

/-- A human readable model name. -/
def ScooterInfo.model (self : ScooterInfo) : String :=
  (hardwareIds.lookup self.hardwareId).getD ("Unknown model " ++ toString self.hardwareId)

/-- A snapshot of every register read during one poll. -/
structure ScooterState where
  values : Dict Value := ∅
  raw : Dict String := ∅
  failures : Dict String := ∅
  deriving DecidableEq

namespace ScooterState

/-- A decoded value, or nothing if the register was not read. -/
def get (self : ScooterState) (key : String) : Option Value := self.values.lookup key

/-- Merge another snapshot into this one. -/
def update (self other : ScooterState) : ScooterState where
  values := other.values ∪ self.values
  raw := other.raw ∪ self.raw
  -- A register that succeeded this time is no longer failing.
  failures := other.failures ∪
    other.values.foldl (fun failures key _ => failures.erase key)
      (fun _ _ _ _ _ => Finmap.erase_erase) self.failures

end ScooterState

/-- The hardware ID in Ninebot manufacturer advertisement data. -/
def parseHardwareId (manufacturerData : Bytes) : Option Nat :=
  manufacturerData.head?.map UInt8.toNat

end Ninebot
