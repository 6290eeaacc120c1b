import Ninebot.Wire

/-! # The scooter's side

    The `FakeScooter` of `tests/fake_scooter.py`, method by method: it puts
    together what is written to it, decodes the requests, and answers them
    from its registers, in notifications no longer than its chunk size.

    This file defines:
    - `RegisterFile`: what the registers hold
    - `FakeScooter`, with `writeGattChar` and what that calls
    - `FakeScooter.reply`: the answer to a request, if there is one
    - `FakeScooter.handled`: the scooter after a request -/

namespace Ninebot

open Coro

/-! ## State -/

/-- `registers`: board and index, each with its payload, in the order of the `dict`. -/
structure RegisterFile where
  entries : List ((DeviceId × Int) × Bytes)
  nodup : (entries.map Prod.fst).Nodup

/-- `registers.get(key)` -/
def RegisterFile.get (self : RegisterFile) (key : DeviceId × Int) : Option Bytes :=
  self.entries.lookup key

/-- `DEFAULT_REGISTERS` -/
def defaultRegisters : RegisterFile where
  entries :=
    [((.mcu, 0x10), serialChallenge), ((.mcu, 0x1A), [0x13, 0x02]), ((.mcu, 0x1B), [0x00, 0x00]),
    ((.mcu, 0x1C), [0x00, 0x00]), ((.mcu, 0x25), [0x10, 0x27]), ((.mcu, 0x3B), [0xE8, 0x03]),
    ((.mcu, 0x3E), [0xF4, 0x01]), ((.mcu, 0x67), [0x10, 0x02]), ((.mcu, 0x68), [0x09, 0x02]),
    ((.mcu, 0x69), [0x01, 0x00]), ((.mcu, 0x75), [0x01, 0x00]), ((.mcu, 0x76), [0x00, 0x00]),
    ((.mcu, 0x77), [0x00, 0x00]), ((.mcu, 0x7A), [0x01, 0x00]), ((.mcu, 0x7C), [0x00, 0x00]),
    ((.mcu, 0x7F), [0xD0, 0x07]), ((.mcu, 0x95), [0x01, 0x00]), ((.mcu, 0xB4), [0x55, 0x00]),
    ((.mcu, 0xB5), [0x00, 0x00]), ((.mcu, 0xB7), [0x20, 0x4E, 0x00, 0x00]),
    ((.mcu, 0xB9), [0xC8, 0x00]), ((.mcu, 0xDA), (List.range 12).map UInt8.ofNat),
    ((.mcu, 0xF3), [0x01, 0x00]),
    ((.bms, 0x02),
      [0x42, 0x4D, 0x53, 0x31, 0x32, 0x33, 0x34, 0x35, 0x36, 0x37, 0x38, 0x39, 0x30, 0x31]),
    ((.bms, 0x0A), [0x01, 0x00]), ((.bms, 0x0E), [0x21, 0x01]), ((.bms, 0x59), [0x2A, 0x00]),
    ((.bms, 0x5A), [0x10, 0x0E]), ((.bms, 0x82), [0x2C, 0x01]), ((.bms, 0x89), [0x00, 0x00]),
    ((.bms, 0x8A), [0xD0, 0x07]), ((.bms, 0x8C), [0x9C, 0x0F]), ((.bms, 0x8D), [0x9C, 0xFF]),
    ((.bms, 0x8F), [0x52, 0x00]), ((.bms, 0x96), [0x2B, 0x2C, 0x00, 0x00]),
    ((.bms, 0xA0), (List.range 13).flatMap fun index => [UInt8.ofNat (0x3C + index), 0x0F]),
    ((.bms, 0xE1), [0x40, 0x1F, 0x00, 0x00]), ((.bms, 0xE3), [0x88, 0x13, 0x00, 0x00]),
    ((.ble, 0x1C), [0x00, 0x00]),
    ((.ble, 0x59), [0x42, 0x4C, 0x45, 0x50, 0x41, 0x52, 0x54, 0x30, 0x30, 0x30, 0x31, 0x32, 0x33])]
  nodup := by decide

structure FakeScooter where
  pairedAppKey : Option Bytes
  requireButtonPress : Bool
  chunkSize : Nat
  /-- `range(0, n, 0)` raises. -/
  chunkSize_pos : 0 < chunkSize
  supportsBulkReads : Bool
  registers : RegisterFile
  unreadable : List (DeviceId × Int)
  pairAttempts : Nat := 0
  requests : List Packet := []
  /-- `_notify` is set. -/
  subscribed : Bool := false
  rxBuffer : Bytes := []
  /-- What `_notify` has been called with, oldest first. -/
  notified : List Bytes := []

/-- `FakeScooter()` -/
def FakeScooter.make (pairedAppKey : Option Bytes) : FakeScooter where
  pairedAppKey := pairedAppKey
  requireButtonPress := false
  chunkSize := 20
  chunkSize_pos := by decide
  supportsBulkReads := true
  registers := defaultRegisters
  unreadable := []

/-- A method of the scooter. -/
abbrev Peer : Type → Type := Coro FakeScooter Exc

namespace FakeScooter

def setRxBuffer (self : FakeScooter) (rxBuffer : Bytes) : FakeScooter :=
  { self with rxBuffer := rxBuffer }

def notify (self : FakeScooter) (chunks : List Bytes) : FakeScooter :=
  { self with notified := self.notified ++ chunks }

def setRequest (self : FakeScooter) (request : Packet) : FakeScooter :=
  { self with requests := self.requests ++ [request] }

/-- `self.pair_attempts += 1` -/
def attempted (self : FakeScooter) : FakeScooter :=
  { self with pairAttempts := self.pairAttempts + 1 }

/-- `self.paired_app_key = self.paired_app_key or b""` -/
def accepted (self : FakeScooter) : FakeScooter :=
  { self with pairedAppKey := some (self.pairedAppKey.getD []) }

/-! ## Behaviour -/

/-- Send a response, split across notification-sized chunks. -/
def respond (packet : Packet) : Peer Unit := do
  let scooter ← Coro.get
  if scooter.subscribed then
    match packet.pack with
    | .error e => Coro.raise e
    | .ok plaintext =>
        Coro.modify (·.notify (Reassembly.slices scooter.chunkSize (plaintext ++ cryptoTrailer)))
  -- An `AssertionError`, which no handler names.
  else Coro.raise ⟨.exception, "assert self._notify is not None"⟩

end FakeScooter

/-- Walked reads land on an offset word of a longer register. -/
def RegisterFile.within (self : RegisterFile) (board : DeviceId) (index : Int) : Option Bytes :=
  self.entries.findSome? fun entry =>
    let offset := (index - entry.1.2) * 2
    if entry.1.1 = board ∧ 0 < offset ∧ offset < entry.2.length then
      some (entry.2.drop offset.toNat)
    else none

/-- `request.data[0] if request.data else 2` -/
def Packet.wanted (self : Packet) : Nat :=
  match self.data with
  | [] => 2
  | n :: _ => n.toNat

namespace FakeScooter

/-- Answer a register read. -/
def handleRead (request : Packet) : Peer Unit := do
  let scooter ← Coro.get
  let key := (request.target, request.index)
  if key ∈ scooter.unreadable then return ()
  else
    match (scooter.registers.get key).or
      (scooter.registers.within request.target request.index) with
    | none => return ()
    | some payload =>
        if 2 < request.wanted ∧ scooter.supportsBulkReads = false then return ()
        else respond (readReply request.target request.index (payload.take request.wanted))

/-- Decode a request and emit the matching response. -/
def handle (frame : Bytes) : Peer Unit := do
  match Packet.unpack (frame.take (frame.length - cryptoTrailer.length)) with
  | .error e => Coro.raise e
  | .ok request =>
      Coro.modify (·.setRequest request)
      match request.command with
      | .init => respond initReply
      | .ping => respond (pingReply (decide ((← Coro.get).pairedAppKey = some request.data)))
      | .pair =>
          Coro.modify attempted
          if (← Coro.get).requireButtonPress then return ()
          else
            Coro.modify accepted
            respond pairReply
      | .read => handleRead request
      | _ => return ()

/-- The loop of `write_gatt_char`.  No frame is empty, so it turns at most once
    for each byte and once more. -/
def drain : Nat → Peer Unit
  | 0 => Coro.pend
  | fuel + 1 => do
      let scooter ← Coro.get
      match expectedFrameLength scooter.rxBuffer with
      | none => return ()
      | some total =>
          if scooter.rxBuffer.length < total then return ()
          else
            Coro.modify (·.setRxBuffer (scooter.rxBuffer.drop total))
            handle (scooter.rxBuffer.take total)
            drain fuel

/-- Accept a chunk of a request and answer once a frame is complete. -/
def writeGattChar (data : Bytes) : Peer Unit := do
  Coro.modify fun s => s.setRxBuffer (s.rxBuffer ++ data)
  drain ((← Coro.get).rxBuffer.length + 1)

/-! ## Answers -/

/-- The answer to a register read. -/
def readAnswer (self : FakeScooter) (request : Packet) : Option Packet :=
  if (request.target, request.index) ∈ self.unreadable then none
  else
    ((self.registers.get (request.target, request.index)).or
      (self.registers.within request.target request.index)).bind fun payload =>
        if 2 < request.wanted ∧ self.supportsBulkReads = false then none
        else some (readReply request.target request.index (payload.take request.wanted))

/-- The answer to a request, if there is one. -/
def reply (self : FakeScooter) (request : Packet) : Option Packet :=
  match request.command with
  | .init => some initReply
  | .ping => some (pingReply (decide (self.pairedAppKey = some request.data)))
  | .pair => if self.requireButtonPress then none else some pairReply
  | .read => self.readAnswer request
  | _ => none

/-- What the scooter remembers of a request. -/
def noted (self : FakeScooter) (request : Packet) : FakeScooter :=
  match request.command with
  | .pair =>
      if self.requireButtonPress then (self.setRequest request).attempted
      else (self.setRequest request).attempted.accepted
  | _ => self.setRequest request

/-- The bytes of one frame. -/
def frame (packet : Packet) : Bytes := packet.plaintext ++ cryptoTrailer

/-- The notifications of an answer. -/
def chunks (self : FakeScooter) (answer : Option Packet) : List Bytes :=
  answer.elim [] fun packet => Reassembly.slices self.chunkSize (frame packet)

/-- The scooter after a request. -/
def handled (self : FakeScooter) (request : Packet) : FakeScooter :=
  (self.noted request).notify (self.chunks (self.reply request))

/-- The answers to requests that come one after the other. -/
def answers (self : FakeScooter) : List Packet → List Packet
  | [] => []
  | request :: rest => (self.reply request).toList ++ (self.handled request).answers rest

variable {S : FakeScooter} {p request : Packet} {ps : List Packet} {rest : Bytes}

@[simp] theorem handled_requests : (S.handled p).requests = S.requests ++ [p] := by
  unfold handled noted
  split
  · split <;> rfl
  · rfl

@[simp] theorem handled_rxBuffer : (S.handled p).rxBuffer = S.rxBuffer := by
  unfold handled noted
  split
  · split <;> rfl
  · rfl

@[simp] theorem handled_subscribed : (S.handled p).subscribed = S.subscribed := by
  unfold handled noted
  split
  · split <;> rfl
  · rfl

@[simp] theorem handled_chunkSize : (S.handled p).chunkSize = S.chunkSize := by
  unfold handled noted
  split
  · split <;> rfl
  · rfl

@[simp] theorem handled_notified :
    (S.handled p).notified = S.notified ++ S.chunks (S.reply p) := by
  unfold handled noted
  split
  · split <;> rfl
  · rfl

/-- Reassembly and behaviour do not meet. -/
theorem handled_setRxBuffer (b : Bytes) :
    (S.setRxBuffer b).handled p = (S.handled p).setRxBuffer b := by
  have hbutton : (S.setRxBuffer b).requireButtonPress = S.requireButtonPress := rfl
  unfold handled noted
  rw [hbutton]
  split
  · split <;> rfl
  · rfl

end FakeScooter

/-! ## One request -/

/-- The fields of a packet fit into its frame. -/
structure Packet.Fits (p : Packet) : Prop where
  index_nonneg : 0 ≤ p.index
  index_le : p.index ≤ 255
  data : p.data.length ≤ maxDataLength

theorem Packet.Fits.pack {p : Packet} (h : p.Fits) : p.pack = .ok p.plaintext :=
  Packet.pack_eq_ok.mpr ⟨h.data, rfl⟩

theorem Packet.Fits.unpack {p : Packet} (h : p.Fits) : Packet.unpack p.plaintext = .ok p :=
  Packet.unpack_pack h.index_nonneg h.index_le h.pack

theorem IsFrame.cutFrame {f : Bytes} (h : IsFrame f) (t : Bytes) :
    cutFrame (f ++ t) = some (f, t) := by
  obtain ⟨n, hn, hlen⟩ := h.length
  have hget : (f ++ t)[2]? = some n := by
    rw [List.getElem?_append_left (by omega)]
    exact hn
  rw [cutFrame_of_complete hget (by rw [List.length_append]; omega), ← hlen, List.take_left,
    List.drop_left]

theorem Packet.wanted_le (p : Packet) : p.wanted ≤ maxDataLength := by
  unfold Packet.wanted
  split
  · decide
  · next n _ _ =>
    have := n.toNat_lt
    unfold maxDataLength
    omega

namespace FakeScooter

variable {S : FakeScooter} {p answer : Packet} {ps : List Packet} {rest : Bytes}

theorem frame_take (p : Packet) :
    (frame p).take ((frame p).length - cryptoTrailer.length) = p.plaintext := by
  rw [frame, List.length_append, Nat.add_sub_cancel, List.take_left]

theorem notify_none : S.notify (S.chunks none) = S := by
  show { S with notified := S.notified ++ [] } = S
  rw [List.append_nil]

theorem readReply_fits (hp : p.Fits) (payload : Bytes) :
    (readReply p.target p.index (payload.take p.wanted)).Fits := by
  have hwanted := p.wanted_le
  refine ⟨hp.index_nonneg, hp.index_le, ?_⟩
  show (payload.take p.wanted).length ≤ maxDataLength
  rw [List.length_take]
  omega

theorem readAnswer_eq_some (h : S.readAnswer p = some answer) :
    ∃ payload : Bytes, answer = readReply p.target p.index (payload.take p.wanted) := by
  unfold readAnswer at h
  split at h
  · cases h
  · obtain ⟨payload, _, hpayload⟩ := Option.bind_eq_some_iff.mp h
    split at hpayload
    · cases hpayload
    · cases hpayload
      exact ⟨payload, rfl⟩

/-- An answer fits into its frame. -/
theorem reply_fits (hp : p.Fits) (h : S.reply p = some answer) : answer.Fits := by
  unfold reply at h
  split at h
  · cases h
    exact ⟨by decide, by decide, by decide⟩
  · cases h
    unfold pingReply
    split <;> exact ⟨by decide, by decide, by decide⟩
  · split at h
    · cases h
    · cases h
      exact ⟨by decide, by decide, by decide⟩
  · obtain ⟨payload, rfl⟩ := readAnswer_eq_some h
    exact readReply_fits hp payload
  · cases h

theorem respond_eq (hsub : S.subscribed = true) (hp : p.Fits) :
    respond p S = (.ret (), S.notify (S.chunks (some p))) := by
  unfold respond
  rw [get_bind]
  simp only [hsub, if_true, hp.pack]
  rfl

theorem handleRead_eq (hsub : S.subscribed = true) (hp : p.Fits) :
    handleRead p S = (.ret (), S.notify (S.chunks (S.readAnswer p))) := by
  unfold handleRead readAnswer
  rw [get_bind]
  by_cases hun : (p.target, p.index) ∈ S.unreadable
  · simp only [hun, if_true, notify_none]
    rfl
  · simp only [hun, if_false]
    rcases (S.registers.get (p.target, p.index)).or
      (S.registers.within p.target p.index) with _ | payload
    · simp only [Option.bind_none, notify_none]
      rfl
    · by_cases hbulk : 2 < p.wanted ∧ S.supportsBulkReads = false
      · simp only [Option.bind_some, hbulk, and_self, if_true, notify_none]
        rfl
      · simp only [Option.bind_some, hbulk, if_false]
        exact respond_eq hsub (readReply_fits hp payload)

/-- `_handle` on the frame of a request. -/
theorem handle_frame (hsub : S.subscribed = true) (hp : p.Fits) :
    handle (frame p) S = (.ret (), S.handled p) := by
  have hfits : ∀ answer, S.reply p = some answer → answer.Fits := fun _ h => reply_fits hp h
  have hsilent : (S.setRequest p).notify (S.chunks none) = S.setRequest p := notify_none
  unfold handle
  rw [frame_take, hp.unpack]
  show (Coro.modify (·.setRequest p) >>= _) S = _
  rw [modify_bind]
  unfold reply at hfits
  unfold handled reply noted
  cases hc : p.command with
  | init =>
    rw [hc] at hfits
    exact respond_eq (S := S.setRequest p) hsub (hfits _ rfl)
  | ping =>
    rw [hc] at hfits
    exact respond_eq (S := S.setRequest p) hsub (hfits _ rfl)
  | pair =>
    rw [hc] at hfits
    simp only [modify_bind, get_bind]
    show (if S.requireButtonPress then _ else _ : Peer Unit) _ = _
    -- A PAIR is counted, and answered only once the button was pressed.
    by_cases hbutton : S.requireButtonPress = true
    · simp only [hbutton, if_true]
      exact congrArg (Prod.mk _) (notify_none (S := (S.setRequest p).attempted)).symm
    · simp only [hbutton] at hfits ⊢
      exact respond_eq (S := (S.setRequest p).attempted.accepted) hsub (hfits _ rfl)
  | read => exact handleRead_eq (S := S.setRequest p) hsub hp
  | write | writeNoReply | readAck | writeAck => exact congrArg (Prod.mk _) hsilent.symm

/-! ## Reassembly -/

/-- The scooter's buffer: a frame is where it begins, and nothing is skipped. -/
def rxTokenizer : Reassembly.Tokenizer UInt8 where
  next := cutFrame
  keep := id
  next_append := cutFrame_append
  next_shorter := by
    intro s f r h
    obtain ⟨n, _, hlen, _, rfl⟩ := cutFrame_eq_some h
    rw [List.length_drop]
    omega
  next_keep := fun _ _ => rfl
  keep_keep := fun _ _ _ => rfl
  keep_nil := rfl

theorem drain_none {fuel : Nat} (h : cutFrame S.rxBuffer = none) :
    drain (fuel + 1) S = (.ret (), S) := by
  unfold cutFrame at h
  rw [drain, get_bind]
  rcases hlen : expectedFrameLength S.rxBuffer with _ | total
  · rfl
  · rw [hlen] at h
    have hshort : S.rxBuffer.length < total := by
      by_contra hlong
      simp [hlong] at h
    simp only [hshort, if_true]
    rfl

theorem drain_some {fuel : Nat} {f r : Bytes} (h : cutFrame S.rxBuffer = some (f, r)) :
    drain (fuel + 1) S = (handle f >>= fun _ => drain fuel) (S.setRxBuffer r) := by
  unfold cutFrame at h
  rw [drain, get_bind]
  rcases hlen : expectedFrameLength S.rxBuffer with _ | total
  · rw [hlen] at h
    cases h
  · simp only [hlen, Option.ite_none_left_eq_some, Option.some.injEq, Prod.mk.injEq] at h
    obtain ⟨hlong, rfl, rfl⟩ := h
    simp only [hlong, if_false]
    rfl

/-- The loop of `write_gatt_char` on a buffer of whole requests and a rest. -/
theorem drain_frames (hps : ∀ p ∈ ps, p.Fits) {fuel : Nat} (hsub : S.subscribed = true)
    (hfuel : S.rxBuffer.length < fuel)
    (htokens : rxTokenizer.tokens S.rxBuffer = (ps.map frame, rest)) :
    drain fuel S = (.ret (), ps.foldl handled (S.setRxBuffer rest)) := by
  -- By induction on the requests: each leaves a shorter buffer, so that the fuel is enough.
  obtain ⟨fuel, rfl⟩ := Nat.exists_eq_succ_of_ne_zero (Nat.ne_zero_of_lt hfuel)
  induction ps generalizing S fuel with
  | nil =>
    rcases hnext : cutFrame S.rxBuffer with _ | ⟨f, r⟩
    · rw [rxTokenizer.tokens_none hnext] at htokens
      obtain rfl : S.rxBuffer = rest := congrArg Prod.snd htokens
      exact drain_none hnext
    · rw [rxTokenizer.tokens_some hnext] at htokens
      cases htokens
  | cons p ps ih =>
    rcases hnext : cutFrame S.rxBuffer with _ | ⟨f, r⟩
    · rw [rxTokenizer.tokens_none hnext] at htokens
      cases htokens
    · have hshort : r.length < S.rxBuffer.length := rxTokenizer.next_shorter hnext
      rw [rxTokenizer.tokens_some hnext] at htokens
      obtain ⟨⟨rfl, hframes⟩, hrest⟩ : (f = frame p ∧ (rxTokenizer.tokens r).1 = ps.map frame) ∧
          (rxTokenizer.tokens r).2 = rest := by simpa using htokens
      have hhandle := handle_frame (S := S.setRxBuffer r) hsub (hps p List.mem_cons_self)
      obtain ⟨fuel, rfl⟩ : ∃ n, fuel = n + 1 := Nat.exists_eq_succ_of_ne_zero (by omega)
      have hsub' : ((S.handled p).setRxBuffer r).subscribed = true := by
        show (S.handled p).subscribed = true
        rw [handled_subscribed, hsub]
      have hroom : ((S.handled p).setRxBuffer r).rxBuffer.length < fuel + 1 := by
        show r.length < fuel + 1
        omega
      have hloop := ih (fun q hq => hps q (List.mem_cons_of_mem _ hq)) hsub'
        (Prod.ext hframes hrest) fuel hroom
      rw [drain_some hnext, bind_of_ret hhandle, handled_setRxBuffer, hloop, List.foldl_cons,
        handled_setRxBuffer]
      rfl

theorem writeGattChar_frames (data : Bytes) (hps : ∀ p ∈ ps, p.Fits) (hsub : S.subscribed = true)
    (htokens : rxTokenizer.tokens (S.rxBuffer ++ data) = (ps.map frame, rest)) :
    writeGattChar data S = (.ret (), ps.foldl handled (S.setRxBuffer rest)) := by
  unfold writeGattChar
  rw [modify_bind, get_bind]
  exact drain_frames (S := S.setRxBuffer (S.rxBuffer ++ data)) hps hsub (Nat.lt_succ_self _) htokens

/-- Write chunks one after the other. -/
def writeAll : List Bytes → Peer Unit
  | [] => return ()
  | chunk :: rest => do
      writeGattChar chunk
      writeAll rest

theorem foldl_handled_setRxBuffer (b : Bytes) :
    ps.foldl handled (S.setRxBuffer b) = (ps.foldl handled S).setRxBuffer b := by
  induction ps generalizing S with
  | nil => rfl
  | cons p ps ih => rw [List.foldl_cons, List.foldl_cons, handled_setRxBuffer, ih]

theorem foldl_handled_subscribed : (ps.foldl handled S).subscribed = S.subscribed := by
  induction ps generalizing S with
  | nil => rfl
  | cons p ps ih => rw [List.foldl_cons, ih, handled_subscribed]

/-- However requests are cut into writes, they are handled one after the other. -/
theorem writeAll_frames (chunks : List Bytes) (hps : ∀ p ∈ ps, p.Fits)
    (hsub : S.subscribed = true) (hkept : rxTokenizer.tokens S.rxBuffer = ([], S.rxBuffer))
    (htokens : rxTokenizer.tokens (S.rxBuffer ++ chunks.flatten) = (ps.map frame, rest)) :
    writeAll chunks S = (.ret (), ps.foldl handled (S.setRxBuffer rest)) := by
  induction chunks generalizing S ps with
  | nil =>
    rw [List.flatten_nil, List.append_nil, hkept] at htokens
    obtain ⟨hps, rfl⟩ : ps = [] ∧ S.rxBuffer = rest := by simpa using htokens
    subst hps
    rfl
  | cons chunk chunks ih =>
    rw [List.flatten_cons, ← List.append_assoc, rxTokenizer.tokens_append] at htokens
    obtain ⟨hframes, hrest⟩ := Prod.ext_iff.mp htokens
    -- The requests that this write completes, and those that later ones complete.
    obtain ⟨before, after, rfl, hbefore, hafter⟩ := List.map_eq_append_iff.mp hframes.symm
    have hwrite := writeGattChar_frames (S := S) chunk
      (fun p hp => hps p (List.mem_append_left _ hp)) hsub (Prod.ext hbefore.symm rfl)
    rw [writeAll, bind_of_ret hwrite, foldl_handled_setRxBuffer]
    have hlater := ih (fun p hp => hps p (List.mem_append_right _ hp))
      (S := (before.foldl handled S).setRxBuffer (rxTokenizer.tokens (S.rxBuffer ++ chunk)).2)
      (by rw [← hsub]; exact foldl_handled_subscribed) (rxTokenizer.tokens_kept _)
      (Prod.ext hafter.symm hrest)
    rw [hlater, List.foldl_append, ← foldl_handled_setRxBuffer, ← foldl_handled_setRxBuffer]
    rfl

/-! ## Both directions -/

theorem isFrame_frame (hp : p.Fits) : IsFrame (frame p) :=
  isFrame_encrypt (StubCrypto.inverts { name := [] } { name := [] }) (s := .stub) (r := .stub)
    trivial hp.data

/-- The frames of packets that fit are cut off at both ends of the link. -/
theorem tokens_frames (ps : List Packet) (hps : ∀ p ∈ ps, p.Fits) :
    rxTokenizer.tokens (ps.map frame).flatten = (ps.map frame, []) ∧
      proto2Tokenizer.tokens (ps.map frame).flatten = (ps.map frame, []) := by
  have hframe : ∀ f ∈ ps.map frame, IsFrame f := by
    intro f hf
    obtain ⟨p, hp, rfl⟩ := List.mem_map.mp hf
    exact isFrame_frame (hps p hp)
  have hstray : Stray [] := by simp [Stray, proto2Magic]
  have hrx := rxTokenizer.tokens_flatten (fun f hf t => (hframe f hf).cutFrame t) []
  have hproto := proto2Tokenizer.tokens_flatten
    (fun f hf t => nextFrame_stray hstray (hframe f hf) t) []
  rw [List.append_nil] at hrx hproto
  rw [hrx, hproto, rxTokenizer.tokens_nil rfl, proto2Tokenizer.tokens_nil rfl, List.append_nil]
  exact ⟨rfl, rfl⟩

theorem encryptAll_stub (keys : Keys) (s : StubCrypto) (ps : List Packet) :
    encryptAll keys s (ps.map Packet.plaintext) = ps.map frame := by
  induction ps with
  | nil => rfl
  | cons p ps ih => exact congrArg (frame p :: ·) ih

theorem chunks_flatten (answer : Option Packet) :
    (S.chunks answer).flatten = (answer.toList.map frame).flatten := by
  cases answer with
  | none => rfl
  | some p =>
    show (Reassembly.slices S.chunkSize (frame p)).flatten = frame p ++ []
    rw [Reassembly.slices_flatten S.chunkSize_pos, List.append_nil]

theorem foldl_handled_requests : (ps.foldl handled S).requests = S.requests ++ ps := by
  induction ps generalizing S with
  | nil => exact (List.append_nil _).symm
  | cons p ps ih => rw [List.foldl_cons, ih, handled_requests, List.append_assoc]; rfl

theorem foldl_handled_rxBuffer : (ps.foldl handled S).rxBuffer = S.rxBuffer := by
  induction ps generalizing S with
  | nil => rfl
  | cons p ps ih => rw [List.foldl_cons, ih, handled_rxBuffer]

/-- The notifications of a run of requests make up the frames of its answers. -/
theorem foldl_handled_notified (S : FakeScooter) (ps : List Packet) :
    ∃ notes, (ps.foldl handled S).notified = S.notified ++ notes ∧
    notes.flatten = ((S.answers ps).map frame).flatten := by
  induction ps generalizing S with
  | nil => exact ⟨[], (List.append_nil _).symm, rfl⟩
  | cons p ps ih =>
    obtain ⟨notes, hnotes, hflat⟩ := ih (S.handled p)
    refine ⟨S.chunks (S.reply p) ++ notes, ?_, ?_⟩
    · rw [List.foldl_cons, hnotes, handled_notified, List.append_assoc]
    · rw [List.flatten_append, hflat, chunks_flatten, answers, List.map_append,
        List.flatten_append]

theorem answers_fits (hps : ∀ p ∈ ps, p.Fits) : ∀ answer ∈ S.answers ps, answer.Fits := by
  induction ps generalizing S with
  | nil => simp [answers]
  | cons p ps ih =>
    intro answer hanswer
    rcases List.mem_append.mp hanswer with hhead | htail
    · exact reply_fits (hps p List.mem_cons_self) (Option.mem_toList.mp hhead)
    · exact ih (fun q hq => hps q (List.mem_cons_of_mem _ hq)) answer htail

theorem answers_length (S : FakeScooter) (ps : List Packet) :
    (S.answers ps).length ≤ ps.length := by
  induction ps generalizing S with
  | nil => exact Nat.le_refl _
  | cons p ps ih =>
    have hhead : (S.reply p).toList.length ≤ 1 := Option.length_toList_le
    have htail := ih (S.handled p)
    rw [answers, List.length_append, List.length_cons]
    omega

/-- Requests and answers.  Whatever the client sends, and however the link
    cuts it into writes, the scooter handles exactly these requests, in order;
    and however its notifications are cut, the client queues exactly its
    answers, in order. -/
theorem exchange_delivered (ps : List Packet) (hcount : ps.length ≤ World.maxResponses)
    (hps : ∀ p ∈ ps, p.Fits) {sender receiver : World StubCrypto} {l m : Nat}
    (hsend : Sending sender l sender.self.crypto.keys .stub
      (ps.map fun p => p.data.length + 13).sum)
    (hlisten : Listening receiver m receiver.self.crypto.keys .stub [])
    (hbuffer : receiver.self.buffer = []) (hsub : S.subscribed = true) (hrx : S.rxBuffer = []) :
    ∃ frames, (sendAll ps sender).1 = .ret frames ∧
      ∀ writes : List Bytes, writes.flatten = frames.flatten →
        ∃ S' notes, writeAll writes S = (.ret (), S') ∧ S'.requests = S.requests ++ ps ∧
          S'.rxBuffer = [] ∧ S'.notified = S.notified ++ notes ∧
          ∀ cuts : List Bytes, cuts.flatten = notes.flatten →
            (cuts.foldl (fun w d => w.notified m d) receiver).self.responses.map Arrival.packet
              = S.answers ps := by
  have hsync := StubCrypto.inverts sender.self.crypto.keys receiver.self.crypto.keys
  have hframes := sendAll_sending hsync (s := .stub) (r := .stub) trivial
    (fun p hp => (hps p hp).data) hsend
  rw [encryptAll_stub] at hframes
  refine ⟨ps.map frame, hframes, ?_⟩
  intro writes hwrites
  have hwrite := writeAll_frames writes hps hsub
    (by rw [hrx]; exact rxTokenizer.tokens_nil rfl)
    (by rw [hrx, List.nil_append, hwrites]; exact (tokens_frames ps hps).1)
  have hself : S.setRxBuffer [] = S := by
    show { S with rxBuffer := [] } = S
    rw [← hrx]
  rw [hself] at hwrite
  obtain ⟨notes, hnotes, hflat⟩ := foldl_handled_notified S ps
  -- The way back: the notifications make up the frames of the answers.
  refine ⟨_, notes, hwrite, foldl_handled_requests, ?_, hnotes, ?_⟩
  · rw [foldl_handled_rxBuffer, hrx]
  · intro cuts hcuts
    have hfits := answers_fits (S := S) hps
    have hroom := answers_length S ps
    obtain ⟨r', hr'⟩ := Listening.foldl_dispatch
      (StubCrypto.inverts sender.self.crypto.keys receiver.self.crypto.keys)
      (fun p hp => ⟨(hfits p hp).index_nonneg, (hfits p hp).index_le, (hfits p hp).data⟩)
      (s := .stub) trivial hlisten (by rw [List.length_nil]; omega)
    rw [foldl_notified hlisten.up hlisten.subscribed hbuffer, hcuts, hflat,
      (tokens_frames _ hfits).2]
    rw [encryptAll_stub] at hr'
    exact hr'.queue

theorem exchange_delivered_pairing :
    ∃ frames, (sendAll [initRequest, pairRequest [0x5A, 0xA5]]
        (World.online (fakeClient none) (List.replicate 28 (.answer .ok)))).1 = .ret frames ∧
      ∀ writes : List Bytes, writes.flatten = frames.flatten →
        ∃ S' notes, writeAll writes { make none with subscribed := true } = (.ret (), S') ∧
          S'.requests = [initRequest, pairRequest [0x5A, 0xA5]] ∧
          S'.rxBuffer = [] ∧ S'.notified = notes ∧
          ∀ cuts : List Bytes, cuts.flatten = notes.flatten →
            (cuts.foldl (fun w d => w.notified 0 d)
              (World.online (fakeClient none) [])).self.responses.map Arrival.packet
              = [initReply, pairReply] :=
  exchange_delivered _ (by decide)
    (List.forall_mem_cons.mpr ⟨⟨by decide, by decide, by decide⟩,
      List.forall_mem_cons.mpr ⟨⟨by decide, by decide, by decide⟩, List.forall_mem_nil _⟩⟩)
    ⟨rfl, rfl, by decide, rfl, rfl, by simp [Undisturbed, World.online, World.ofScript], by decide⟩
    ⟨rfl, rfl, rfl, rfl, rfl⟩ rfl rfl rfl

end FakeScooter

end Ninebot
