import Mathlib.Data.Rat.Floor
import Ninebot.Pynebot.Protocol

/-! # Registers

    `pynebot/registers.py`: the decoders, a register with its `convert`, and
    the register map of the E2 Pro.

    A decoded float is an exact rational here.  Every scale is a decimal, so
    the rational is the number that the source's `round(value * scale, 4)`
    names; its nearest binary fraction is not modelled. -/

namespace Ninebot

/-- What a decoder may return. -/
inductive Value where
  | int : Int → Value
  | float : Rat → Value
  | bool : Bool → Value
  | str : String → Value
  | floats : List Rat → Value
  deriving DecidableEq, Repr

/-! ## Decoders -/

/-- `int.from_bytes(data, "little", signed=False)`, which takes a slice of any
    length, the empty one included. -/
def fromBytes (data : Bytes) : Nat := data.foldr (fun b n => b.toNat + 256 * n) 0

/-- `int.from_bytes(data, "little", signed=True)`: the sign bit is the top bit
    of the bytes given, however few they are. -/
def fromBytesSigned (data : Bytes) : Int :=
  if 2 * fromBytes data < 256 ^ data.length then fromBytes data
  else (fromBytes data : Int) - 256 ^ data.length

def u16 (data : Bytes) : Nat := fromBytes (data.take 2)

def s16 (data : Bytes) : Int := fromBytesSigned (data.take 2)

/-- Two little-endian 16-bit words, low word first. -/
def u32 (data : Bytes) : Nat := u16 (data.take 2) ||| (u16 ((data.drop 2).take 2) <<< 16)

/-- The ASCII characters that `str.strip` removes. -/
def isSpace (b : UInt8) : Bool := b = 0x20 ∨ (0x09 ≤ b ∧ b ≤ 0x0D) ∨ (0x1C ≤ b ∧ b ≤ 0x1F)

def strip (data : Bytes) : Bytes :=
  ((data.dropWhile isSpace).reverse.dropWhile isSpace).reverse

/-- NUL-padded ASCII; bytes outside ASCII are ignored. -/
def string (data : Bytes) : String :=
  String.ofList ((strip ((data.takeWhile (· ≠ 0)).filter (· < 0x80))).map fun b =>
    Char.ofNat b.toNat)

/-- A packed firmware version (`0x0213` is "2.1.3"). -/
def version (data : Bytes) : String :=
  let raw := u16 data
  toString (raw >>> 8) ++ "." ++ toString ((raw >>> 4) &&& 0x0F) ++ "." ++
    toString (raw &&& 0x0F)

/-- The two BMS probes, each a byte biased by 20 degrees. -/
def temperaturePair (data : Bytes) : Except Exc Value := do
  let first ← Packet.byteAt data 0
  let second ← Packet.byteAt data 1
  return .floats [(first.toNat : Int) - 20, (second.toNat : Int) - 20]

/-- `range(0, len(data) - 1, 2)` -/
def cellOffsets (data : Bytes) : List Nat := (List.range (data.length / 2)).map (2 * ·)

/-- Per-cell voltages, in volts. -/
def cellVoltages (data : Bytes) : List Rat :=
  let cells := (cellOffsets data).map fun offset => u16 ((data.drop offset).take 2)
  (cells.filter (· ≠ 0)).map fun cell => (cell : Rat) / 1000

/-- One bit of a 16-bit bitfield. -/
def bit (position : Nat) (data : Bytes) : Bool := u16 data &&& (1 <<< position) ≠ 0

/-! ## Scaling -/

/-- `round(x, digits)`: to the nearest number with so many decimals, ties to
    the even one. -/
def round (x : Rat) (digits : Nat) : Rat :=
  let scale : Rat := (10 ^ digits : Nat)
  let low := (x * scale).floor
  let rest := x * scale - low
  let n := if rest < 1 / 2 then low else if 1 / 2 < rest then low + 1
    else if low % 2 = 0 then low else low + 1
  n / scale

/-- The number that `isinstance(value, (int, float))` lets through; a Python
    `bool` is an `int`. -/
def Value.number : Value → Option Rat
  | .int n => some n
  | .float x => some x
  | .bool b => some (if b then 1 else 0)
  | .str _ => none
  | .floats _ => none

/-- A readable register on one of the scooter's boards. -/
structure Register where
  key : String
  board : DeviceId
  index : Nat
  length : Nat
  decode : Bytes → Except Exc Value := fun data => .ok (.int (u16 data))
  scale : Rat := 1
  static : Bool := false

/-- Decode and scale a raw register payload. -/
def Register.convert (self : Register) (data : Bytes) : Except Exc Value := do
  let value ← self.decode data
  if self.scale ≠ 1 then
    match value.number with
    | some x => return .float (round (x * self.scale) 4)
    | none => return value
  else return value

/-! ## The register map -/

def decodeS16 (data : Bytes) : Except Exc Value := .ok (.int (s16 data))
def decodeU32 (data : Bytes) : Except Exc Value := .ok (.int (u32 data))
def decodeString (data : Bytes) : Except Exc Value := .ok (.str (string data))
def decodeHex (data : Bytes) : Except Exc Value := .ok (.str (hexUpper data))
def decodeVersion (data : Bytes) : Except Exc Value := .ok (.str (version data))
def decodeCellVoltages (data : Bytes) : Except Exc Value := .ok (.floats (cellVoltages data))
def decodeBit (position : Nat) (data : Bytes) : Except Exc Value := .ok (.bool (bit position data))

/-- The register that the handshake reads to confirm its session key. -/
def serialNumber : Register :=
  { key := "serial_number", board := .mcu, index := 0x10, length := 14, decode := decodeString,
    static := true }

def mcuRegisters : List Register :=
  [serialNumber,
   { key := "controller_firmware", board := .mcu, index := 0x1A, length := 2,
     decode := decodeVersion, static := true },
   { key := "error_code", board := .mcu, index := 0x1B, length := 2 },
   { key := "warning_code", board := .mcu, index := 0x1C, length := 2 },
   { key := "remaining_range", board := .mcu, index := 0x25, length := 2, scale := 1 / 100 },
   { key := "uptime", board := .mcu, index := 0x3B, length := 2 },
   { key := "body_temperature", board := .mcu, index := 0x3E, length := 2, scale := 1 / 10 },
   { key := "bms_firmware", board := .mcu, index := 0x67, length := 2, decode := decodeVersion,
     static := true },
   { key := "ble_firmware", board := .mcu, index := 0x68, length := 2, decode := decodeVersion,
     static := true },
   { key := "activation_date", board := .mcu, index := 0x69, length := 2, static := true },
   { key := "gear_mode", board := .mcu, index := 0x75, length := 2 },
   { key := "deceleration_mode", board := .mcu, index := 0x76, length := 2 },
   { key := "pedestrian_mode", board := .mcu, index := 0x77, length := 2 },
   { key := "light_mode", board := .mcu, index := 0x7A, length := 2 },
   { key := "cruise_control", board := .mcu, index := 0x7C, length := 2 },
   { key := "start_speed", board := .mcu, index := 0x7F, length := 2, scale := 1 / 1000 },
   { key := "encryption_flag", board := .mcu, index := 0x95, length := 2, static := true },
   { key := "battery_percent", board := .mcu, index := 0xB4, length := 2 },
   { key := "speed", board := .mcu, index := 0xB5, length := 2, scale := 1 / 1000 },
   { key := "total_distance", board := .mcu, index := 0xB7, length := 4, decode := decodeU32,
     scale := 1 / 1000 },
   { key := "trip_distance", board := .mcu, index := 0xB9, length := 2, scale := 1 / 100 },
   { key := "cpu_id", board := .mcu, index := 0xDA, length := 12, decode := decodeHex,
     static := true },
   { key := "traction_control", board := .mcu, index := 0xF3, length := 2 }]

def bmsRegisters : List Register :=
  [{ key := "bms_serial_number", board := .bms, index := 0x02, length := 14,
     decode := decodeString, static := true },
   { key := "bms_manufacture_date", board := .bms, index := 0x0A, length := 2, static := true },
   { key := "bms_version", board := .bms, index := 0x0E, length := 2, decode := decodeVersion,
     static := true },
   { key := "battery_cycles", board := .bms, index := 0x59, length := 2 },
   { key := "battery_design_capacity", board := .bms, index := 0x5A, length := 2,
     static := true },
   { key := "max_power", board := .bms, index := 0x82, length := 2, static := true },
   { key := "battery_deep_discharges", board := .bms, index := 0x89, length := 2 },
   { key := "battery_remaining_capacity", board := .bms, index := 0x8A, length := 2 },
   { key := "battery_voltage", board := .bms, index := 0x8C, length := 2, scale := 1 / 100 },
   { key := "battery_current", board := .bms, index := 0x8D, length := 2, decode := decodeS16,
     scale := 1 / 100 },
   { key := "battery_level", board := .bms, index := 0x8F, length := 2 },
   { key := "battery_temperatures", board := .bms, index := 0x96, length := 4,
     decode := temperaturePair },
   { key := "cell_voltages", board := .bms, index := 0xA0, length := 26,
     decode := decodeCellVoltages },
   { key := "battery_capacity_throughput", board := .bms, index := 0xE1, length := 4,
     decode := decodeU32 },
   { key := "battery_energy_throughput", board := .bms, index := 0xE3, length := 4,
     decode := decodeU32 }]

def bleRegisters : List Register :=
  [{ key := "locked", board := .ble, index := 0x1C, length := 2, decode := decodeBit 0 },
   { key := "ble_part_number", board := .ble, index := 0x59, length := 14,
     decode := decodeString, static := true }]

def registers : List Register := mcuRegisters ++ bmsRegisters ++ bleRegisters

/-- `REGISTERS_BY_KEY[key]` -/
def registersByKey (key : String) : Except Exc Register :=
  match registers.find? (fun reg => reg.key == key) with
  | some reg => .ok reg
  | none => .error ⟨.keyError, "'" ++ key ++ "'"⟩

def staticRegisters : List Register := registers.filter (·.static)

def dynamicRegisters : List Register := registers.filter (fun reg => !reg.static)

/-- No key is listed twice, so the lookup by key loses no register. -/
theorem registers_keys_nodup : (registers.map (·.key)).Nodup := by decide

end Ninebot
