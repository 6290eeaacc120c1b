import Mathlib.Logic.Function.Basic
import Ninebot.Lib.Coro
import Ninebot.Lib.Reassembly
import Ninebot.Pynebot.Models

/-! # The world of one client

    The fields of a `NinebotClient`, and around them what its awaited calls
    depend on: the BLE links, the clock, the cipher and the scooter.

    ## Runs

    Whatever the client does not decide is read from a *script*.  While a call
    is awaited, `Step.event` lets the event loop do something else: deliver a
    notification, lose a link, let time pass, or let another task take the
    link out of the client.  `Step.answer` completes the awaited call, or is
    skipped when that call cannot complete so.  A script that ends leaves the
    coroutine pending, so the runs over all scripts are all finite prefixes of
    all schedules, for every scooter.

    ## Observations

    `trace` lists what happened, newest first.  No code reads it.  The
    position of an entry is the number of entries before it. -/

namespace Ninebot

/-! ## The cipher

    `miauth.nb.nbcrypto.NbCrypto` is not part of the repository.  It is a
    parameter: whatever it keeps between calls is an arbitrary type, and its
    two operations are arbitrary functions of that, of the data, and of what
    its setters have been given. -/

/-- What the setters of an `NbCrypto` object have been given. -/
structure Keys where
  name : Bytes
  bleData : Option Bytes := none
  appData : Option Bytes := none
  deriving DecidableEq, Repr

class Cipher (κ : Type) where
  start : κ
  encrypt : Keys → κ → Bytes → Bytes × κ
  decrypt : Keys → κ → Bytes → Except Exc Bytes × κ

/-- An `NbCrypto` object. -/
structure NbCrypto (κ : Type) where
  keys : Keys
  state : κ

/-! ## Links -/

/-- What `services.get_characteristic(NUS_RX_CHAR_UUID)` does on a link. -/
inductive RxChar where
  | raises : Fault → RxChar
  | missing : RxChar
  | found (maxWriteWithoutResponseSize : Nat) : RxChar

/-- A `BleakClient` that `establish_connection` returned. -/
structure Link where
  isConnected : Bool
  /-- Notifications are delivered to `_on_notify`. -/
  subscribed : Bool
  rx : RxChar

/-! ## Observations -/

inductive LogLevel where
  | info | warning | error
  deriving DecidableEq, Repr

inductive Obs where
  /-- `establish_connection` returned this link. -/
  | opened (l : Nat)
  /-- A packet was encrypted under `keys`, to be written to `l`. -/
  | sent (time l : Nat) (keys : Keys) (packet : Packet)
  | wrote (l : Nat) (chunk : Bytes)
  /-- `write_gatt_char` raised. -/
  | writeFailed (l : Nat)
  /-- `_send` raised `NinebotConnectionError`. -/
  | sendFailed (packet : Packet)
  /-- `_connect_transport` emptied the buffer and the queue. -/
  | cleared
  /-- `_dispatch` decoded a packet; its last byte came over `l`. -/
  | received (time l : Nat) (packet : Packet)
  /-- `_receive` took the packet that was received at this position. -/
  | taken (time : Nat) (l : Option Nat) (packet : Packet) (receivedAt : Nat)
  /-- `_request` returned this response. -/
  | answered (l : Option Nat) (request response : Packet) (receivedAt : Nat)
  /-- `_request` gave up. -/
  | unanswered (l : Option Nat) (request : Packet)
  /-- `_handshake` returned. -/
  | handshaken (l : Option Nat)
  /-- `establish_connection` raised. -/
  | notOpened
  /-- `start_notify` raised this. -/
  | notifyFailed (l : Nat) (e : Exc)
  /-- `disconnect()` took this link out of the client. -/
  | disconnecting (l : Nat)
  /-- `stop_notify` raised this. -/
  | stopFailed (l : Nat) (e : Exc)
  | disconnected (l : Nat)
  | disconnectFailed (l : Nat)
  /-- A link that was up went down by itself. -/
  | lost (l : Nat)
  /-- Another task entered `disconnect()` and took this link out of the client. -/
  | detached (l : Option Nat)
  | log (level : LogLevel) (text : String)
  deriving DecidableEq, Repr

/-! ## State -/

/-- A queued packet, with the position at which it was received. -/
structure Arrival where
  packet : Packet
  receivedAt : Nat
  deriving DecidableEq, Repr

/-- The fields of a `NinebotClient`.  Times are in milliseconds. -/
structure Client (κ : Type) where
  address : String
  name : String
  requestTimeout : Nat
  pairingTimeout : Nat
  appKey : Bytes
  appKeyWasSupplied : Bool
  crypto : NbCrypto κ
  client : Option Nat
  responses : List Arrival
  buffer : Bytes
  chunkSize : Nat
  serialChallenge : Bytes

/-- `secrets.token_bytes(APP_KEY_LENGTH)` -/
def AppKey : Type := { key : Bytes // key.length = appKeyLength }

inductive Event where
  /-- A notification on link `l`. -/
  | notify (l : Nat) (data : Bytes)
  | linkLost (l : Nat)
  | tick (n : Nat)
  /-- Another task enters `disconnect()` and takes the link out of the client. -/
  | detach

/-- How an awaited call may complete. -/
inductive Answer where
  /-- The call returns. -/
  | ok
  /-- `establish_connection` returns a link with this RX characteristic. -/
  | linked (rx : RxChar)
  /-- The call raises, or its timer fires. -/
  | fail (f : Fault)

inductive Step where
  | event (e : Event)
  | answer (a : Answer)

structure World (κ : Type) where
  self : Client κ
  links : Nat → Link
  /-- How many links `establish_connection` has returned; the next one's number. -/
  opened : Nat
  now : Nat
  script : List Step
  /-- How many iterations of one `while` loop are observed before the run is cut. -/
  gas : Nat
  secrets : Nat → AppKey
  /-- How many secrets have been drawn. -/
  drawn : Nat
  trace : List Obs

abbrev M (κ : Type) : Type → Type := Coro (World κ) Exc

namespace World

variable {κ : Type}

def log (w : World κ) (o : Obs) : World κ := { w with trace := o :: w.trace }

def isUp (w : World κ) (l : Nat) : Bool := (w.links l).isConnected

/-- `is_connected` -/
def isConnected (w : World κ) : Bool :=
  match w.self.client with
  | some l => w.isUp l
  | none => false

def setLink (w : World κ) (l : Nat) (link : Link) : World κ :=
  { w with links := Function.update w.links l link }

/-- The link goes down, by itself or because it was closed. -/
def close (w : World κ) (l : Nat) : World κ :=
  w.setLink l { w.links l with isConnected := false }

def subscribe (w : World κ) (l : Nat) (on : Bool) : World κ :=
  w.setLink l { w.links l with subscribed := on }

def setClient (w : World κ) (client : Option Nat) : World κ :=
  { w with self := { w.self with client := client } }

def setBuffer (w : World κ) (buffer : Bytes) : World κ :=
  { w with self := { w.self with buffer := buffer } }

def setResponses (w : World κ) (responses : List Arrival) : World κ :=
  { w with self := { w.self with responses := responses } }

def setCrypto (w : World κ) (crypto : NbCrypto κ) : World κ :=
  { w with self := { w.self with crypto := crypto } }

def setScript (w : World κ) (script : List Step) : World κ := { w with script := script }

/-! ## Notifications -/

/-- Queue bound of `_responses`. -/
def maxResponses : Nat := 64

/-- `self._responses.put_nowait(packet)` -/
def putNowait (w : World κ) (arrival : Arrival) : World κ :=
  if w.self.responses.length < maxResponses then
    w.setResponses (w.self.responses ++ [arrival])
  else
    -- `asyncio.QueueFull`: the packet that arrives is the one dropped.
    w.log (.log .warning (w.self.name ++ ": response queue full, dropping packet"))

end World

/-- The loop of `_on_notify`.  Each frame is cut out of the buffer and handed
    to `dispatch`, whose state `s` the loop does not look at. -/
def onNotifyLoop {σ : Type} (dispatch : σ → Bytes → σ) : Nat → Bytes → σ → Bytes × σ
  | 0, buffer, s => (buffer, s)
  | fuel + 1, buffer, s =>
      match Reassembly.find proto2Magic buffer with
      | none =>
          -- Keep only a possible split preamble.
          (buffer.drop (buffer.length - 1), s)
      | some start =>
          let buffer := buffer.drop start
          match expectedFrameLength buffer with
          | none => (buffer, s)
          | some total =>
              -- A partial frame waits: decrypting it would corrupt the counter.
              if buffer.length < total then (buffer, s)
              else onNotifyLoop dispatch fuel (buffer.drop total) (dispatch s (buffer.take total))

/-- `_on_notify`.  A frame has at least one byte, so the loop turns at most
    once for each byte and once more. -/
def onNotify {σ : Type} (dispatch : σ → Bytes → σ) (buffer : Bytes) (s : σ) (data : Bytes) :
    Bytes × σ :=
  let buffer := buffer ++ data
  onNotifyLoop dispatch (buffer.length + 1) buffer s

namespace World

variable {κ : Type} [Cipher κ]

/-- Decrypt one complete frame and queue the packet it contains. -/
def dispatch (l : Nat) (w : World κ) (frame : Bytes) : World κ :=
  let (plaintext, state) := Cipher.decrypt w.self.crypto.keys w.self.crypto.state frame
  let w := w.setCrypto { w.self.crypto with state := state }
  -- Every exception of the cipher and of `unpack` is caught, and the frame dropped;
  -- the cipher has moved on all the same.
  match plaintext with
  | .error _ => w
  | .ok plaintext =>
      match Packet.unpack plaintext with
      | .error _ => w
      | .ok packet => (w.log (.received w.now l packet)).putNowait ⟨packet, w.trace.length⟩

/-- A notification reaches the client while its link is up and subscribed. -/
def notified (w : World κ) (l : Nat) (data : Bytes) : World κ :=
  if (w.links l).isConnected ∧ (w.links l).subscribed then
    let (buffer, w) := onNotify (dispatch l) w.self.buffer w data
    w.setBuffer buffer
  else w

def apply (w : World κ) : Event → World κ
  | .notify l data => w.notified l data
  | .linkLost l => if w.isUp l then (w.close l).log (.lost l) else w
  | .tick n => { w with now := w.now + n }
  | .detach => (w.setClient none).log (.detached w.self.client)

end World

/-! ## Awaiting -/

section Await

variable {κ α : Type} [Cipher κ]

/-- Run the script until an answer completes the awaited call. -/
def awaitFrom (complete : Answer → World κ → Option (Res Exc α × World κ)) :
    List Step → World κ → Res Exc α × World κ
  | [], w => (.pending, w.setScript [])
  | .event e :: rest, w => awaitFrom complete rest (w.apply e)
  | .answer a :: rest, w =>
      match complete a (w.setScript rest) with
      | some r => r
      -- This answer is not for the awaited call: skipped.
      | none => awaitFrom complete rest w

def await (complete : Answer → World κ → Option (Res Exc α × World κ)) : M κ α :=
  fun w => awaitFrom complete w.script w

end Await

end Ninebot
