import Ninebot.Pynebot.Client

/-! # The in-memory scooter of the tests

    `tests/fake_scooter.py`: a cipher that keeps the lengths and hides
    nothing, and the replies of a scooter that answers at once.  Concrete runs
    are run against it. -/

namespace Ninebot

/-! ## The cipher -/

def cryptoTrailer : Bytes := List.replicate 6 0

/-- Length-preserving stand-in for `NbCrypto`. -/
inductive StubCrypto where
  | stub
  deriving DecidableEq, Repr

instance : Cipher StubCrypto where
  start := .stub
  encrypt _ s data := (data ++ cryptoTrailer, s)
  decrypt _ s data := (.ok (data.take (data.length - cryptoTrailer.length)), s)

/-! ## Replies -/

def bleKey : Bytes := (List.range 16).map UInt8.ofNat

def serialChallenge : Bytes :=
  [0x4E, 0x32, 0x47, 0x58, 0x32, 0x33, 0x31, 0x38, 0x30, 0x30, 0x30, 0x32, 0x31, 0x36]

/-- A reply, sent in one notification. -/
def notification (l : Nat) (packet : Packet) : Event :=
  .notify l (match packet.pack with
    | .ok plaintext => plaintext ++ cryptoTrailer
    | .error _ => [])

def respond (l : Nat) (packet : Packet) : Step := .event (notification l packet)

/-- The reply to INIT. -/
def initReply : Packet := ⟨.ble, .host, .init, 0, bleKey ++ serialChallenge⟩

/-- The reply to PING: is this the key the scooter was paired with? -/
def pingReply (paired : Bool) : Packet := ⟨.ble, .host, .ping, if paired then 1 else 0, []⟩

def pairReply : Packet := ⟨.ble, .host, .pair, 1, []⟩

def readReply (board : DeviceId) (index : Int) (data : Bytes) : Packet :=
  ⟨board, .host, .readAck, index, data⟩

/-! ## Faults -/

/-- What bleak raises on a link that is down. -/
def linkFault : Fault := ⟨⟨.bleakError, "Not connected"⟩, rfl⟩

/-- A timer fires. -/
def timerFault : Fault := ⟨⟨.timeoutError, ""⟩, rfl⟩

/-! ## Worlds -/

def storedKey : Bytes := (List.range 16).map UInt8.ofNat

/-- A client of this scooter. -/
def fakeClient (appKey : Option Bytes) : Client StubCrypto :=
  Client.make "C0:FF:EE:00:00:01" (some "E2 Pro 0216") none appKey ⟨List.replicate 16 0, rfl⟩

/-- A world in which nothing has happened yet to the client. -/
def World.ofScript (client : Client StubCrypto) (script : List Step) : World StubCrypto where
  self := client
  links := fun _ => ⟨false, false, .found 20⟩
  opened := 0
  now := 0
  script := script
  gas := 100
  secrets := fun n => ⟨List.replicate 16 (UInt8.ofNat n), rfl⟩
  drawn := 0
  trace := []

/-- A world in which link 0 is up and subscribed. -/
def World.online (client : Client StubCrypto) (script : List Step) : World StubCrypto :=
  { World.ofScript { client with client := some 0 } script with
    links := fun l => ⟨l = 0, true, .found 20⟩
    opened := 1 }

/-! ## Handshakes -/

/-- The handshake of a paired scooter on link `l`, up to the closing PAIR's answer. -/
def greetPaired (l : Nat) : List Step :=
  [.answer (.linked (.found 20)), .answer .ok,
    .answer .ok, respond l initReply, .answer .ok,
    .answer .ok, .answer .ok, respond l (pingReply true), .answer .ok,
    .answer .ok, .answer .ok, respond l pairReply, .answer .ok]

/-- The verification is answered, and the first poll begins. -/
def verified : List Step :=
  greetPaired 0 ++ [.answer .ok, respond 0 (readReply .mcu 0x10 serialChallenge), .answer .ok]

/-! ## Polls -/

/-- A link that is verified at once, and a poll that reads every register. -/
def answered : List Step :=
  verified ++ (pollRegisters true).flatMap fun register =>
    [.answer .ok, respond 0 (readReply register.board register.index
      (if register.key = "serial_number" then serialChallenge
        else List.replicate register.length 1)), .answer .ok]

end Ninebot
