import Mathlib.Data.UInt
import Ninebot.Pynebot.Exceptions

/-! # Proto2 frames

    `pynebot/protocol.py`: the plaintext layout

      5A A5 | LEN | SRC | DST | CMD | IDX | DATA[LEN]

    with its encoder, its decoder, the test that pairs a reply with its
    request, and the frame size that reassembly reads off the length byte.
    An index is an `Int`, as in the source; only the encoder reduces it to a
    byte. -/

namespace Ninebot

abbrev Bytes := List UInt8

/-! ## Constants -/

def proto2Magic : Bytes := [0x5A, 0xA5]

/-- Length of the application key exchanged during pairing. -/
def appKeyLength : Nat := 16

/-- Magic (2), length, source, target, command and index (1 each). -/
def headerLength : Nat := 7

def maxDataLength : Nat := 0xFF

/-- Bytes that must arrive before a frame's length is known. -/
def lengthFieldOffset : Nat := 3

/-- CRC (4) plus message counter (2), appended by the encryption layer. -/
def encryptionOverhead : Nat := 6

/-! ## Texts -/

def hexDigit (n : Nat) : Char := (Nat.digitChar n).toUpper

/-- `self.hex().upper()` -/
def hexUpper (self : Bytes) : String :=
  String.ofList (self.flatMap fun b => [hexDigit (b.toNat / 16), hexDigit (b.toNat % 16)])

/-- `self.hex()` -/
def hexLower (self : Bytes) : String :=
  String.ofList (self.flatMap fun b =>
    [Nat.digitChar (b.toNat / 16), Nat.digitChar (b.toNat % 16)])

/-- The format `{n:02X}`. -/
def format02X (n : Int) : String :=
  let digits := (Nat.toDigits 16 n.natAbs).map Char.toUpper
  if n < 0 then String.ofList ('-' :: digits)
  else String.ofList (List.replicate (2 - digits.length) '0' ++ digits)

/-! ## Commands and boards -/

inductive Command where
  | read | write | writeNoReply | readAck | writeAck | init | ping | pair
  deriving DecidableEq, Repr

def Command.toByte : Command → UInt8
  | .read => 0x01
  | .write => 0x02
  | .writeNoReply => 0x03
  | .readAck => 0x04
  | .writeAck => 0x05
  | .init => 0x5B
  | .ping => 0x5C
  | .pair => 0x5D

def Command.name : Command → String
  | .read => "READ"
  | .write => "WRITE"
  | .writeNoReply => "WRITE_NO_REPLY"
  | .readAck => "READ_ACK"
  | .writeAck => "WRITE_ACK"
  | .init => "INIT"
  | .ping => "PING"
  | .pair => "PAIR"

def Command.all : List Command :=
  [.read, .write, .writeNoReply, .readAck, .writeAck, .init, .ping, .pair]

/-- `Command(value)` -/
def Command.ofByte (value : UInt8) : Except Exc Command :=
  match Command.all.find? (fun c => c.toByte == value) with
  | some c => .ok c
  | none => .error ⟨.valueError, toString value.toNat ++ " is not a valid Command"⟩

/-- `RESPONSE_COMMANDS.get(command, command)` -/
def Command.response : Command → Command
  | .read => .readAck
  | .write => .writeAck
  | c => c

/-- Board addresses within the vehicle. -/
inductive DeviceId where
  | mcu | ble | bms | host | phone
  deriving DecidableEq, Repr

def DeviceId.toByte : DeviceId → UInt8
  | .mcu => 0x20
  | .ble => 0x21
  | .bms => 0x22
  | .host => 0x3D
  | .phone => 0x3E

def DeviceId.name : DeviceId → String
  | .mcu => "MCU"
  | .ble => "BLE"
  | .bms => "BMS"
  | .host => "HOST"
  | .phone => "PHONE"

def DeviceId.all : List DeviceId := [.mcu, .ble, .bms, .host, .phone]

/-- `DeviceId(value)` -/
def DeviceId.ofByte (value : UInt8) : Except Exc DeviceId :=
  match DeviceId.all.find? (fun d => d.toByte == value) with
  | some d => .ok d
  | none => .error ⟨.valueError, toString value.toNat ++ " is not a valid DeviceId"⟩

@[simp] theorem Command.ofByte_toByte (c : Command) : Command.ofByte c.toByte = .ok c := by
  cases c <;> rfl

@[simp] theorem DeviceId.ofByte_toByte (d : DeviceId) : DeviceId.ofByte d.toByte = .ok d := by
  cases d <;> rfl

/-! ## Packets -/

/-- A single Proto2 frame. -/
structure Packet where
  source : DeviceId
  target : DeviceId
  command : Command
  index : Int
  data : Bytes := []
  deriving DecidableEq, Repr

namespace Packet

/-- `index & 0xFF` -/
def indexByte (self : Packet) : UInt8 := UInt8.ofNat (self.index % 256).toNat

/-- Serialize to wire format, without encryption. -/
def pack (self : Packet) : Except Exc Bytes :=
  if self.data.length > maxDataLength then
    .error ⟨.ninebotProtocolError, "Data segment too long: " ++ toString self.data.length⟩
  else
    .ok (proto2Magic ++ [UInt8.ofNat self.data.length, self.source.toByte, self.target.toByte,
      self.command.toByte, self.indexByte] ++ self.data)

/-- `raw[i]` -/
def byteAt (raw : Bytes) (i : Nat) : Except Exc UInt8 :=
  match raw[i]? with
  | some b => .ok b
  | none => .error ⟨.indexError, "index out of range"⟩

/-- The clause `except ValueError` of `unpack`. -/
def unknownField {α : Type} : Except Exc α → Except Exc α
  | .error e =>
      if e.isInstance [.valueError] then
        .error ⟨.ninebotProtocolError, "Unknown field in frame: " ++ e.msg⟩
      else .error e
  | .ok a => .ok a

/-- Parse a decrypted frame. -/
def unpack (raw : Bytes) : Except Exc Packet := do
  if raw.length < headerLength then
    throw ⟨.ninebotProtocolError, "Frame too short: " ++ toString raw.length ++ " bytes"⟩
  if raw.take 2 ≠ proto2Magic then
    throw ⟨.ninebotProtocolError, "Bad preamble: " ++ hexLower (raw.take 2)⟩
  let length ← byteAt raw 2
  if raw.length < headerLength + length.toNat then
    throw ⟨.ninebotProtocolError, "Truncated frame: want " ++
      toString (headerLength + length.toNat) ++ ", got " ++ toString raw.length⟩
  -- Only these three lookups are inside the `try`.
  let (source, target, command) ← unknownField (do
    let source ← DeviceId.ofByte (← byteAt raw 3)
    let target ← DeviceId.ofByte (← byteAt raw 4)
    let command ← Command.ofByte (← byteAt raw 5)
    return (source, target, command))
  let index ← byteAt raw 6
  return ⟨source, target, command, index.toNat, (raw.drop headerLength).take length.toNat⟩

/-- Is this packet a valid response to `request`?  Handshake commands carry a
    status in the index, so only register traffic is matched on it. -/
def matchesRequest (self request : Packet) : Bool :=
  if self.source ≠ request.target ∨ self.target ≠ request.source then false
  else if self.command ≠ request.command.response then false
  -- Register traffic: the index is the address that was asked for.
  else if request.command.toByte < Command.init.toByte then self.index = request.index
  else true

theorem command_of_matchesRequest {self request : Packet}
    (h : self.matchesRequest request = true) : self.command = request.command.response := by
  unfold matchesRequest at h
  by_contra hcommand
  simp [hcommand] at h

/-- `str(self)` -/
def str (self : Packet) : String :=
  let suffix := if self.data = [] then "" else " data=" ++ hexUpper self.data
  self.source.name ++ "->" ++ self.target.name ++ " " ++ self.command.name ++
    " idx=0x" ++ format02X self.index ++ suffix

end Packet

/-- The total encrypted length of the frame starting at `raw`, once enough of
    it has arrived to tell. -/
def expectedFrameLength (raw : Bytes) : Option Nat :=
  if raw.length < lengthFieldOffset then none
  else some ((raw.getD 2 0).toNat + headerLength + encryptionOverhead)

end Ninebot
