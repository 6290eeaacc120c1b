import Ninebot.Pynebot.World

/-! # The client

    `pynebot/client.py`, method by method.  A method is a coroutine over the
    world; an awaited call of bleak, of the connector or of the response queue
    is an `await` of the script.  Debug lines are left out; the lines at INFO
    and above are logged. -/

namespace Ninebot

variable {κ : Type}

/-! ## Constants -/

def defaultChunkSize : Nat := 20

/-- One second. -/
def pairingRetryInterval : Nat := 1000

/-- `REQUEST_TIMEOUT` -/
def defaultRequestTimeout : Nat := 5000

/-- `PAIRING_TIMEOUT` -/
def defaultPairingTimeout : Nat := 30000

def maxConsecutiveTimeouts : Nat := 3

def wordSize : Nat := 2

/-! ## Construction -/

/-- `name or deviceName or "Unnamed"` -/
def clientName (name deviceName : Option String) : String :=
  ((name.filter (· ≠ "")).or (deviceName.filter (· ≠ ""))).getD "Unnamed"

/-- `NinebotClient.__init__`.  A key that is empty counts as supplied, but a
    fresh one is used. -/
def Client.make [Cipher κ] (address : String) (name deviceName : Option String)
    (appKey : Option Bytes) (fresh : AppKey)
    (requestTimeout : Nat := defaultRequestTimeout)
    (pairingTimeout : Nat := defaultPairingTimeout) : Client κ where
  address := address
  name := clientName name deviceName
  requestTimeout := requestTimeout
  pairingTimeout := pairingTimeout
  -- `app_key or token_bytes(...)` takes an empty key for none, `is not None` does not.
  appKey := match appKey with
    | none => fresh.1
    | some key => if key = [] then fresh.1 else key
  appKeyWasSupplied := appKey.isSome
  crypto := ⟨{ name := [] }, Cipher.start⟩
  client := none
  responses := []
  buffer := []
  chunkSize := defaultChunkSize
  serialChallenge := []

/-! ## Primitive steps -/

namespace M

def log (o : Obs) : M κ Unit := Coro.modify fun w => w.log o

def info (text : String) : M κ Unit := do
  let w ← Coro.get
  log (.log .info (w.self.name ++ ": " ++ text))

/-- `secrets.token_bytes(APP_KEY_LENGTH)` -/
def tokenBytes : M κ Bytes := do
  let w ← Coro.get
  Coro.modify fun w => { w with drawn := w.drawn + 1 }
  return (w.secrets w.drawn).1

end M

def noAttribute (name : String) : Exc :=
  ⟨.attributeError, "'NoneType' object has no attribute '" ++ name ++ "'"⟩

section Awaited

variable [Cipher κ]

/-- `await establish_connection(BleakClient, self._device, self._name)` -/
def establishConnection : M κ Nat := await fun a w =>
  match a with
  | .linked rx =>
      some (.ret w.opened, ({ w.setLink w.opened ⟨true, false, rx⟩ with
        opened := w.opened + 1 }).log (.opened w.opened))
  | .fail f => some (.raised f.1, w.log .notOpened)
  | .ok => none

/-- A call that returns nothing: `done` is what its return does, `failed` what
    an exception does. -/
def awaitCall (done : World κ → World κ) (failed : Exc → World κ → World κ) : M κ Unit :=
    await fun a w =>
  match a with
  | .ok => some (.ret (), done w)
  | .fail f => some (.raised f.1, failed f.1 w)
  | .linked _ => none

/-- `await client.start_notify(NUS_TX_CHAR_UUID, self._on_notify)` -/
def startNotify (l : Nat) : M κ Unit :=
  awaitCall (·.subscribe l true) fun e w => w.log (.notifyFailed l e)

/-- `await client.stop_notify(NUS_TX_CHAR_UUID)` -/
def stopNotify (l : Nat) : M κ Unit :=
  awaitCall (·.subscribe l false) fun e w => w.log (.stopFailed l e)

/-- `await client.disconnect()`, of bleak. -/
def closeLink (l : Nat) : M κ Unit :=
  awaitCall (fun w => (w.close l).log (.disconnected l)) fun _ w => w.log (.disconnectFailed l)

/-- `await self._client.write_gatt_char(NUS_RX_CHAR_UUID, chunk)` -/
def writeGattChar (chunk : Bytes) : M κ Unit := do
  match (← Coro.get).self.client with
  | none => Coro.raise (noAttribute "write_gatt_char")
  | some l => awaitCall (·.log (.wrote l chunk)) fun _ w => w.log (.writeFailed l)

/-- `self._client.services.get_characteristic(NUS_RX_CHAR_UUID)` -/
def getRxCharacteristic : M κ (Option Nat) := do
  let w ← Coro.get
  match w.self.client with
  | none => Coro.raise (noAttribute "services")
  | some l =>
      match (w.links l).rx with
      | .raises f => Coro.raise f.1
      | .missing => return none
      | .found size => return some size

/-- Take the oldest queued packet, if there is one. -/
def popResponse (w : World κ) : Option (Arrival × World κ) :=
  match w.self.responses with
  | [] => none
  | a :: rest =>
      some (a, (w.setResponses rest).log (.taken w.now w.self.client a.packet a.receivedAt))

/-- `async with asyncio.timeout(timeout): return await self._responses.get()`.
    A queued packet is taken without suspending.  Otherwise the task is resumed
    when the queue has a packet, or the timer fires once the time is over;
    when both can happen, either may be first. -/
def getResponse (timeout : Nat) : M κ Arrival := fun w =>
  match popResponse w with
  | some (a, w') => (.ret a, w')
  | none =>
      await (fun answer w' =>
        match answer with
        | .ok => (popResponse w').map fun (a, w'') => (.ret a, w'')
        | .fail _ =>
            if w.now + timeout ≤ w'.now then some (.raised ⟨.timeoutError, ""⟩, w') else none
        | .linked _ => none) w

end Awaited

/-! ## Requests -/

section Requests

variable [Cipher κ]

/-- Write the chunks of one encrypted frame. -/
def writeChunks : List Bytes → M κ Unit
  | [] => return ()
  | chunk :: rest => do
      writeGattChar chunk
      writeChunks rest

/-- Encrypt and write a packet, chunked to the negotiated MTU. -/
def send (packet : Packet) : M κ Unit := do
  let w ← Coro.get
  match w.self.client with
  | some l =>
      if w.isUp l then
        match packet.pack with
        | .error e => Coro.raise e
        | .ok plaintext =>
            let (payload, state) :=
              Cipher.encrypt w.self.crypto.keys w.self.crypto.state plaintext
            -- The cipher has moved on before the first chunk is written.
            Coro.modify fun w => (w.setCrypto { w.self.crypto with state := state }).log
              (.sent w.now l w.self.crypto.keys packet)
            match ← Coro.attempt Exc.isTransport
              (writeChunks (Reassembly.slices w.self.chunkSize payload)) with
            | .ok () => return ()
            -- Any other exception of the link passes.
            | .error err =>
                M.log (.sendFailed packet)
                Coro.raise ⟨.ninebotConnectionError, "Write failed: " ++ err.msg⟩
      else
        M.log (.sendFailed packet)
        Coro.raise ⟨.ninebotConnectionError, "Not connected"⟩
  | none =>
      M.log (.sendFailed packet)
      Coro.raise ⟨.ninebotConnectionError, "Not connected"⟩

/-- Wait for the next decoded packet. -/
def receive (timeout : Nat) : M κ Arrival := do
  match ← Coro.attempt (·.isInstance [.timeoutError]) (getResponse timeout) with
  | .ok a => return a
  | .error _ => Coro.raise ⟨.ninebotTimeoutError, "Timed out waiting for a response"⟩

/-- The loop of `_request`. -/
def requestLoop (packet : Packet) (deadline : Nat) : Nat → M κ Packet
  | 0 => Coro.pend
  | gas + 1 => do
      let w ← Coro.get
      if deadline ≤ w.now then
        M.log (.unanswered w.self.client packet)
        Coro.raise ⟨.ninebotTimeoutError, "No response to " ++ packet.str⟩
      else
        match ← Coro.attempt (·.isInstance [.ninebotTimeoutError]) (receive (deadline - w.now)) with
        | .error err =>
            M.log (.unanswered w.self.client packet)
            Coro.raise err
        | .ok response =>
            if response.packet.matchesRequest packet then
              M.log (.answered w.self.client packet response.packet response.receivedAt)
              return response.packet
            -- Unsolicited: ignored, and the deadline stays.
            else requestLoop packet deadline gas

/-- Send a packet and wait for its matching response. -/
def request (packet : Packet) (timeout : Option Nat := none) : M κ Packet := do
  send packet
  let w ← Coro.get
  requestLoop packet (w.now + timeout.getD w.self.requestTimeout) w.gas

end Requests

/-! ## Links -/

section Links

variable [Cipher κ]

/-- Tear down the BLE link. -/
def disconnect : M κ Unit := do
  let w ← Coro.get
  -- `client, self._client = self._client, None`
  Coro.modify (·.setClient none)
  match w.self.client with
  | none => return ()
  | some l =>
      M.log (.disconnecting l)
      if w.isUp l then
        -- Best effort: these failures are only debug lines.
        let _ ← Coro.attempt (·.isInstance [.bleakError, .osError]) (stopNotify l)
        let _ ← Coro.attempt (·.isInstance [.bleakError, .osError]) (closeLink l)
        return ()
      else return ()

/-- Fresh cipher under the name key, empty buffer, empty queue. -/
def World.resetTransport (w : World κ) : World κ :=
  { w with
    self := { w.self with
      crypto := ⟨{ name := w.self.name.toUTF8.data.toList }, Cipher.start⟩
      buffer := []
      responses := [] }
    trace := .cleared :: w.trace }

/-- Open the BLE link and subscribe to notifications. -/
def connectTransport : M κ Unit := do
  Coro.modify World.resetTransport
  match ← Coro.attempt Exc.isTransport (do
    let l ← establishConnection
    Coro.modify (·.setClient (some l))
    startNotify l) with
  | .error err =>
      -- The link is forgotten here; when it was `start_notify` that failed, it is up.
      Coro.modify (·.setClient none)
      Coro.raise ⟨.ninebotConnectionError, "Could not connect: " ++ err.msg⟩
  | .ok () =>
      match ← getRxCharacteristic with
      -- Only this error path takes the link down.
      | none =>
          disconnect
          Coro.raise ⟨.ninebotConnectionError,
            "Device does not expose the Nordic UART RX characteristic"⟩
      | some size =>
          Coro.modify fun w => { w with self := { w.self with
            chunkSize := if size = 0 then defaultChunkSize else size } }

end Links

/-! ## Registers -/

section Reads

variable [Cipher κ]

/-- `Packet(DeviceId.HOST, register.board, Command.READ, register.index + word, bytes((n,)))` -/
def readRequest (register : Register) (word : Nat) (n : UInt8) : Packet :=
  ⟨.host, register.board, .read, register.index + word, [n]⟩

/-- Read the given words one at a time. -/
def walk (register : Register) : List Nat → Bytes → M κ Bytes
  | [], payload => return payload
  | word :: rest, payload => do
      let response ← request (readRequest register word 2)
      walk register rest (payload ++ response.data.take 2)

/-- The words of a register. -/
def Register.words (self : Register) : List Nat := List.range ((self.length + 1) / 2)

/-- Read a register word by word. -/
def walkRegister (register : Register) : M κ Bytes := do
  let payload ← walk register register.words []
  return payload.take register.length

/-- The bulk read: `bytes((register.length,))` raises beyond one byte. -/
def bulkRead (register : Register) : M κ Packet := do
  if register.length < 256 then
    request (readRequest register 0 (UInt8.ofNat register.length))
  else Coro.raise ⟨.valueError, "bytes must be in range(0, 256)"⟩

/-- Read a register's raw payload: one bulk read, then the walk. -/
def readRegister (register : Register) : M κ Bytes := do
  match ← Coro.attempt (·.isInstance [.ninebotTimeoutError]) (bulkRead register) with
  | .ok response =>
      -- A reply that is too short is dropped, and the words are read instead.
      if response.data.length ≥ register.length then
        return response.data.take register.length
      else walkRegister register
  | .error err =>
      -- A register of one word has nothing to walk.
      if register.length ≤ wordSize then Coro.raise err
      else walkRegister register

end Reads

/-! ## Handshake -/

section Handshake

variable [Cipher κ]

def initRequest : Packet := ⟨.host, .ble, .init, 0, []⟩

def pingRequest (appKey : Bytes) : Packet := ⟨.host, .ble, .ping, 0, appKey⟩

def pairRequest (challenge : Bytes) : Packet := ⟨.host, .ble, .pair, 0, challenge⟩

def pairingRequired : Exc :=
  ⟨.ninebotPairingRequiredError,
    "Scooter did not accept pairing. Press its power button while" ++
      " Home Assistant is connecting, then try again."⟩

/-- Is this packet the scooter's consent? -/
def acceptsPairing (response : Packet) : Bool :=
  (response.command = .ping ∨ response.command = .pair) ∧ response.index = 1

/-- The loop of `_await_pairing`. -/
def awaitPairingLoop (deadline : Nat) : Nat → M κ Unit
  | 0 => Coro.pend
  | gas + 1 => do
      let w ← Coro.get
      if w.now < deadline then
        send (pairRequest w.self.serialChallenge)
        match ← Coro.attempt (·.isInstance [.ninebotTimeoutError])
          (receive pairingRetryInterval) with
        -- `except NinebotTimeoutError: continue`
        | .error _ => awaitPairingLoop deadline gas
        | .ok response =>
            if acceptsPairing response.packet then return ()
            else awaitPairingLoop deadline gas
      else Coro.raise pairingRequired

/-- Re-send pairing requests until the user accepts, or time out. -/
def awaitPairing : M κ Unit := do
  M.info "press the scooter's power button to pair"
  let w ← Coro.get
  awaitPairingLoop (w.now + w.self.pairingTimeout) w.gas

/-- Read a known-good register to confirm the session key works. -/
def verifySession : M κ Unit := do
  match ← Coro.attempt (·.isInstance [.ninebotTimeoutError, .ninebotProtocolError])
    (readRegister serialNumber) with
  | .ok _ => return ()
  | .error err => Coro.raise ⟨.ninebotAuthError, "Session key rejected: " ++ err.msg⟩

def World.setBleData (w : World κ) (init : Bytes) : World κ :=
  { w with self := { w.self with
      serialChallenge := init.drop appKeyLength
      crypto := { w.self.crypto with
        keys := { w.self.crypto.keys with bleData := some (init.take appKeyLength) } } } }

def World.setAppData (w : World κ) : World κ :=
  w.setCrypto { w.self.crypto with
    keys := { w.self.crypto.keys with appData := some w.self.appKey } }

/-- Run the INIT/PING/PAIR sequence and derive the session key. -/
def handshake : M κ Unit := do
  let init ← request initRequest
  if init.data.length < appKeyLength then
    Coro.raise ⟨.ninebotAuthError,
      "INIT response too short: " ++ toString init.data.length ++ " bytes"⟩
  else
    Coro.modify (·.setBleData init.data)
    let ping ← request (pingRequest (← Coro.get).self.appKey)
    -- Both ways to be paired go on to the session key.
    if ping.index = 0 then awaitPairing
    Coro.modify World.setAppData
    let _ ← request (pairRequest (← Coro.get).self.serialChallenge)
    verifySession
    M.log (.handshaken (← Coro.get).self.client)

/-- Replace the stored key by a fresh one. -/
def discardKey : M κ Unit := do
  M.info "stored pairing key rejected, re-pairing from scratch"
  let key ← M.tokenBytes
  Coro.modify fun w => { w with self := { w.self with appKey := key, appKeyWasSupplied := false } }

/-- Connect and complete the encrypted handshake. -/
def connect : M κ Unit := do
  connectTransport
  match ← Coro.attempt (·.isInstance [.ninebotAuthError]) handshake with
  | .ok () => return ()
  | .error err =>
      -- `_app_key_was_supplied` is read after the handshake, and cleared by `discardKey`.
      if (← Coro.get).self.appKeyWasSupplied then
        discardKey
        disconnect
        connectTransport
        handshake
      else Coro.raise err

end Handshake

/-! ## Polls -/

section Polls

variable [Cipher κ]

def ScooterState.fail (self : ScooterState) (key text : String) : ScooterState :=
  { self with failures := self.failures.insert key text }

def ScooterState.record (self : ScooterState) (key : String) (payload : Bytes) : ScooterState :=
  { self with raw := self.raw.insert key (hexUpper payload) }

def ScooterState.decoded (self : ScooterState) (key : String) (value : Value) : ScooterState :=
  { self with values := self.values.insert key value }

/-- The loop of `async_poll` over the registers still to read. -/
def pollLoop : List Register → ScooterState → Nat → M κ ScooterState
  | [], state, _ => return state
  | register :: rest, state, consecutiveTimeouts => do
      match ← Coro.attempt (·.isInstance [.ninebotError]) (readRegister register) with
      | .error err =>
          let state := state.fail register.key err.msg
          if err.isInstance [.ninebotTimeoutError] then
            if maxConsecutiveTimeouts ≤ consecutiveTimeouts + 1 then
              Coro.raise ⟨.ninebotConnectionError,
                "Scooter stopped responding after " ++ register.key⟩
            else pollLoop rest state (consecutiveTimeouts + 1)
          -- Another protocol error neither counts as a timeout nor resets the count.
          else pollLoop rest state consecutiveTimeouts
      | .ok payload =>
          let state := state.record register.key payload
          match register.convert payload with
          -- The bytes are in `raw` by now, whether or not they decode.
          | .ok value => pollLoop rest (state.decoded register.key value) 0
          | .error err =>
              if err.isInstance [.valueError, .indexError] then
                pollLoop rest (state.fail register.key ("Could not decode: " ++ err.msg)) 0
              else Coro.raise err

/-- The registers that one poll reads. -/
def pollRegisters (includeStatic : Bool) : List Register :=
  if includeStatic then staticRegisters ++ dynamicRegisters else dynamicRegisters

/-- Read every register and return a snapshot. -/
def asyncPoll (includeStatic : Bool := false) : M κ ScooterState := do
  if (← Coro.get).isConnected then
    pollLoop (pollRegisters includeStatic) {} 0
  else Coro.raise ⟨.ninebotConnectionError, "Not connected"⟩

/-- The body of a decoder's result, raised as the decoder raises it. -/
def liftExcept {α : Type} : Except Exc α → M κ α
  | .ok a => return a
  | .error e => Coro.raise e

/-- Read and decode a single register by key. -/
def asyncRead (key : String) : M κ Value := do
  let register ← liftExcept (registersByKey key)
  let payload ← readRegister register
  liftExcept (register.convert payload)

end Polls

/-- Assemble device metadata from a snapshot containing static values. -/
def Client.buildInfo (self : Client κ) (state : ScooterState) (hardwareId : Nat) :
    ScooterInfo where
  address := self.address
  name := some self.name
  hardwareId := hardwareId
  serialNumber := state.get "serial_number"
  controllerFirmware := state.get "controller_firmware"
  bleFirmware := state.get "ble_firmware"
  bmsFirmware := state.get "bms_firmware"
  bmsSerialNumber := state.get "bms_serial_number"

end Ninebot
