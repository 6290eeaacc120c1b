import Ninebot.Coordinator

/-! # Entities

    `entity.py`, `sensor.py` and `binary_sensor.py`: the entities of an entry,
    the device information they hold, and the values they show.  Units, device
    classes and translation keys decide nothing and are left out.

    `format_mac` belongs to Home Assistant and is a parameter. -/

namespace Ninebot

/-! ## Devices -/

def manufacturer : String := "Segway-Ninebot"

/-- The fields of Home Assistant's `DeviceInfo` that an entity sets. -/
structure DeviceInfo where
  connections : List (String × String)
  manufacturer : String
  model : String
  modelId : String
  name : Option String
  serialNumber : Option Value
  swVersion : Option Value
  deriving DecidableEq

structure NinebotEntity where
  uniqueId : String
  deviceInfo : DeviceInfo
  deriving DecidableEq

/-- `NinebotEntity.__init__`.  The coordinator's info is read here and nowhere else. -/
def NinebotEntity.make (formatMac : String → String) (address : String)
    (coordinator : Coordinator) (key : String) : NinebotEntity where
  uniqueId := formatMac address ++ "_" ++ key
  deviceInfo :=
    let info := coordinator.info
    { connections := [("bluetooth", formatMac address)]
      manufacturer := manufacturer
      model := info.model
      modelId := toString info.hardwareId
      name := info.name
      serialNumber := info.serialNumber
      swVersion := info.controllerFirmware }

/-! ## Getters -/

/-- `isinstance(value, (str, int, float))` -/
def Value.isPlain : Value → Bool
  | .floats _ => false
  | _ => true

/-- A getter for a plain register value. -/
def plainValue (key : String) (state : ScooterState) : Option Value :=
  (state.get key).filter Value.isPlain

/-- A register that decodes to a tuple, or the empty tuple. -/
def tupleOf (key : String) (state : ScooterState) : List Rat :=
  match state.get key with
  | some (.floats values) => values
  | _ => []

/-- A getter for one of the two BMS temperature probes. -/
def temperature (index : Nat) (state : ScooterState) : Option Value :=
  ((tupleOf "battery_temperatures" state)[index]?).map .float

inductive CellStat where
  | min | max | delta
  deriving DecidableEq, Repr

/-- The summary of a tuple of cell voltages. -/
def CellStat.of (stat : CellStat) (cells : List Rat) : Option Rat :=
  match cells.min?, cells.max? with
  | some low, some high =>
      match stat with
      | .min => some (round low 3)
      | .max => some (round high 3)
      | .delta => some (round (high - low) 3)
  -- An empty tuple.
  | _, _ => none

/-- A getter summarizing the per-cell voltages. -/
def cellStat (stat : CellStat) (state : ScooterState) : Option Value :=
  (stat.of (tupleOf "cell_voltages" state)).map .float

/-- The attribute `cells` of the sensor for the lowest cell. -/
def cellsAttribute (state : ScooterState) : List Rat := tupleOf "cell_voltages" state

/-! ## Sensors -/

structure SensorDescription where
  key : String
  valueFn : ScooterState → Option Value

/-- A sensor for the register of the same name. -/
def SensorDescription.plain (key : String) : SensorDescription := ⟨key, plainValue key⟩

def sensors : List SensorDescription :=
  [.plain "battery_level", .plain "battery_percent", .plain "speed", .plain "total_distance",
   .plain "trip_distance", .plain "remaining_range", .plain "body_temperature",
   ⟨"battery_temperature_1", temperature 0⟩, ⟨"battery_temperature_2", temperature 1⟩,
   .plain "battery_voltage", .plain "battery_current", .plain "battery_remaining_capacity",
   .plain "battery_design_capacity", .plain "battery_cycles", .plain "battery_deep_discharges",
   ⟨"cell_voltage_min", cellStat .min⟩, ⟨"cell_voltage_max", cellStat .max⟩,
   ⟨"cell_voltage_delta", cellStat .delta⟩,
   .plain "uptime", .plain "max_power", .plain "error_code", .plain "warning_code",
   .plain "gear_mode", .plain "light_mode", .plain "traction_control"]

/-- `bool(value)` -/
def Value.truthy : Value → Bool
  | .int n => n ≠ 0
  | .float x => x ≠ 0
  | .bool b => b
  | .str s => s ≠ ""
  | .floats values => values ≠ []

/-- The lock device class reports "unlocked" when on. -/
def unlocked (state : ScooterState) : Option Bool :=
  (state.get "locked").map fun locked => !locked.truthy

/-- Does the scooter report an error or a warning? -/
def problem (state : ScooterState) : Option Bool :=
  match state.get "error_code", state.get "warning_code" with
  | none, none => none
  | error, warning =>
      some ((error.map Value.truthy).getD false || (warning.map Value.truthy).getD false)

structure BinarySensorDescription where
  key : String
  valueFn : ScooterState → Option Bool

def binarySensors : List BinarySensorDescription :=
  [⟨"locked", unlocked⟩, ⟨"problem", problem⟩]

end Ninebot
