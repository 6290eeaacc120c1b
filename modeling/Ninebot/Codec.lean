import Ninebot.Pynebot.Protocol

/-! # The codec

    `Packet.pack` and `Packet.unpack` are inverse to each other: on packets
    whose data and index fit their bytes, and on the frames that `unpack`
    accepts, up to the bytes after the end of the frame.

    This file defines:
    - `Packet.header`: the seven bytes before the data
    - `Readable`: what `unpack` asks of a frame
    - `unpack_cases`: the two ways to leave `unpack`
    - `acknowledgement`: the reply that echoes the index byte of a request -/

namespace Ninebot

/-! ## Writing -/

namespace Packet

/-- The bytes that `pack` writes before the data. -/
def header (self : Packet) : Bytes :=
  [0x5A, 0xA5, UInt8.ofNat self.data.length, self.source.toByte, self.target.toByte,
    self.command.toByte, self.indexByte]

theorem pack_eq_ok {self : Packet} {raw : Bytes} :
    self.pack = .ok raw ↔ self.data.length ≤ maxDataLength ∧ raw = self.header ++ self.data := by
  unfold pack
  by_cases h : self.data.length > maxDataLength
  · simp only [h, if_true]
    constructor
    · intro hc
      cases hc
    · rintro ⟨hle, _⟩
      omega
  · simp only [h, if_false, Except.ok.injEq]
    constructor
    · rintro rfl
      exact ⟨by omega, rfl⟩
    · rintro ⟨_, rfl⟩
      rfl

theorem indexByte_toNat {self : Packet} (h0 : 0 ≤ self.index) (h1 : self.index ≤ 255) :
    (self.indexByte.toNat : Int) = self.index := by
  unfold indexByte
  rw [UInt8.toNat_ofNat']
  omega

end Packet

/-! ## The enumerations -/

/-- A lookup by byte finds the member with that byte, or there is none. -/
theorem find_toByte {α : Type} (toByte : α → UInt8) (all : List α) (b : UInt8) :
    (∃ a ∈ all, all.find? (fun a => toByte a == b) = some a ∧ toByte a = b) ∨
      (all.find? (fun a => toByte a == b) = none ∧ ∀ a ∈ all, toByte a ≠ b) := by
  rcases h : all.find? (fun a => toByte a == b) with _ | a
  · right
    refine ⟨rfl, fun a ha hb => ?_⟩
    have hno := List.find?_eq_none.mp h a ha
    simp [hb] at hno
  · left
    have hb := List.find?_some h
    exact ⟨a, List.mem_of_find?_eq_some h, rfl, by simpa using hb⟩

theorem DeviceId.mem_all (d : DeviceId) : d ∈ DeviceId.all := by
  cases d <;> decide

theorem Command.mem_all (c : Command) : c ∈ Command.all := by
  cases c <;> decide

theorem DeviceId.ofByte_cases (b : UInt8) :
    (∃ d : DeviceId, DeviceId.ofByte b = .ok d ∧ d.toByte = b) ∨
      ((∀ d : DeviceId, d.toByte ≠ b) ∧
        ∃ text, DeviceId.ofByte b = .error ⟨.valueError, text⟩) := by
  unfold DeviceId.ofByte
  rcases find_toByte DeviceId.toByte DeviceId.all b with ⟨d, _, hfind, hd⟩ | ⟨hfind, hno⟩
  · rw [hfind]
    exact Or.inl ⟨d, rfl, hd⟩
  · rw [hfind]
    exact Or.inr ⟨fun d => hno d d.mem_all, _, rfl⟩

theorem Command.ofByte_cases (b : UInt8) :
    (∃ c : Command, Command.ofByte b = .ok c ∧ c.toByte = b) ∨
      ((∀ c : Command, c.toByte ≠ b) ∧ ∃ text, Command.ofByte b = .error ⟨.valueError, text⟩) := by
  unfold Command.ofByte
  rcases find_toByte Command.toByte Command.all b with ⟨c, _, hfind, hc⟩ | ⟨hfind, hno⟩
  · rw [hfind]
    exact Or.inl ⟨c, rfl, hc⟩
  · rw [hfind]
    exact Or.inr ⟨fun c => hno c c.mem_all, _, rfl⟩

/-! ## Reading -/

/-- What `unpack` asks of a frame. -/
structure Readable (raw : Bytes) : Prop where
  header : headerLength ≤ raw.length
  magic : raw.take 2 = proto2Magic
  whole : headerLength + (raw.getD 2 0).toNat ≤ raw.length
  source : ∃ d : DeviceId, raw[3]? = some d.toByte
  target : ∃ d : DeviceId, raw[4]? = some d.toByte
  command : ∃ c : Command, raw[5]? = some c.toByte

namespace Packet

/-- The `try` of `unpack`. -/
def unpackFields (source target command : UInt8) : Except Exc (DeviceId × DeviceId × Command) :=
  unknownField (do
    let source ← DeviceId.ofByte source
    let target ← DeviceId.ofByte target
    let command ← Command.ofByte command
    return (source, target, command))

/-- Every lookup that fails is reported by the one `except` clause. -/
theorem unpackFields_cases (x y z : UInt8) :
    (∃ (s t : DeviceId) (c : Command), unpackFields x y z = .ok (s, t, c) ∧
      s.toByte = x ∧ t.toByte = y ∧ c.toByte = z) ∨
    (((∀ d : DeviceId, d.toByte ≠ x) ∨ (∀ d : DeviceId, d.toByte ≠ y) ∨
        ∀ c : Command, c.toByte ≠ z) ∧
      ∃ text, unpackFields x y z =
        .error ⟨.ninebotProtocolError, "Unknown field in frame: " ++ text⟩) := by
  unfold unpackFields
  rcases DeviceId.ofByte_cases x with ⟨s, hs, hx⟩ | ⟨hx, text, hs⟩
  · rcases DeviceId.ofByte_cases y with ⟨t, ht, hy⟩ | ⟨hy, text, ht⟩
    · rcases Command.ofByte_cases z with ⟨c, hc, hz⟩ | ⟨hz, text, hc⟩
      · left
        refine ⟨s, t, c, ?_, hx, hy, hz⟩
        rw [hs, ht, hc]
        rfl
      · rw [hs, ht, hc]
        exact Or.inr ⟨Or.inr (Or.inr hz), _, rfl⟩
    · rw [hs, ht]
      exact Or.inr ⟨Or.inr (Or.inl hy), _, rfl⟩
  · rw [hs]
    exact Or.inr ⟨Or.inl hx, _, rfl⟩

theorem header_bytes {raw : Bytes} (h : headerLength ≤ raw.length) :
    ∃ a b n x y z i rest, raw = a :: b :: n :: x :: y :: z :: i :: rest := by
  have hlen : (raw.take 7).length = 7 := by
    rw [List.length_take]
    exact Nat.min_eq_left h
  have hsplit : raw = raw.take 7 ++ raw.drop 7 := (List.take_append_drop 7 raw).symm
  generalize raw.take 7 = front at hlen hsplit
  obtain ⟨a, b, n, x, y, z, i, rfl⟩ : ∃ a b n x y z i, front = [a, b, n, x, y, z, i] := by
    rcases front with _ | ⟨a, _ | ⟨b, _ | ⟨n, _ | ⟨x, _ | ⟨y, _ | ⟨z, _ | ⟨i, _ | _⟩⟩⟩⟩⟩⟩⟩ <;>
      simp at hlen
    exact ⟨a, b, n, x, y, z, i, rfl⟩
  exact ⟨a, b, n, x, y, z, i, raw.drop 7, hsplit⟩

/-- `unpack` of a frame that has a header. -/
theorem unpack_cons (a b n x y z i : UInt8) (rest : Bytes) :
    unpack (a :: b :: n :: x :: y :: z :: i :: rest) =
      if [a, b] ≠ proto2Magic then
        .error ⟨.ninebotProtocolError, "Bad preamble: " ++ hexLower [a, b]⟩
      else if rest.length < n.toNat then
        .error ⟨.ninebotProtocolError, "Truncated frame: want " ++
          toString (headerLength + n.toNat) ++ ", got " ++ toString (headerLength + rest.length)⟩
      else (unpackFields x y z).map fun fields =>
        ⟨fields.1, fields.2.1, fields.2.2, i.toNat, rest.take n.toNat⟩ := by
  have hlen : (a :: b :: n :: x :: y :: z :: i :: rest).length = headerLength + rest.length := by
    simp only [List.length_cons, headerLength]
    omega
  have hheader : ¬ headerLength + rest.length < headerLength := by omega
  have hwhole : headerLength + rest.length < headerLength + n.toNat ↔ rest.length < n.toNat := by
    omega
  unfold unpack
  rw [hlen]
  -- The source checks the preamble before the length.
  by_cases hmagic : [a, b] = proto2Magic
  · by_cases hshort : rest.length < n.toNat
    · simp [hheader, hwhole, hmagic, hshort, byteAt, Bind.bind, Except.bind]
      rfl
    · simp [hheader, hwhole, hmagic, hshort, byteAt, Bind.bind, Except.bind]
      rcases hfields : unpackFields x y z with e | fields
      · unfold unpackFields at hfields
        simp only [Bind.bind, Except.bind] at hfields
        rw [hfields]
        rfl
      · unfold unpackFields at hfields
        simp only [Bind.bind, Except.bind] at hfields
        rw [hfields]
        rfl
  · simp [hheader, hmagic, Bind.bind, Except.bind]
    rfl

/-- What is packed can be read back. -/
theorem unpack_pack {self : Packet} {raw : Bytes} (h0 : 0 ≤ self.index) (h1 : self.index ≤ 255)
    (h : self.pack = .ok raw) : unpack raw = .ok self := by
  obtain ⟨hlen, rfl⟩ := pack_eq_ok.mp h
  have hn : (UInt8.ofNat self.data.length).toNat = self.data.length := by
    rw [UInt8.toNat_ofNat']
    unfold maxDataLength at hlen
    omega
  have hfields : unpackFields self.source.toByte self.target.toByte self.command.toByte =
      .ok (self.source, self.target, self.command) := by
    unfold unpackFields
    rw [DeviceId.ofByte_toByte, DeviceId.ofByte_toByte, Command.ofByte_toByte]
    rfl
  show unpack (0x5A :: 0xA5 :: _ :: _ :: _ :: _ :: _ :: self.data) = _
  rw [unpack_cons, if_neg (by decide), hn, if_neg (Nat.lt_irrefl _), hfields]
  show Except.ok (Packet.mk _ _ _ self.indexByte.toNat (self.data.take self.data.length)) = _
  rw [indexByte_toNat h0 h1, List.take_length]

/-- The header of a packet whose fields were read from these bytes. -/
theorem header_of_fields {s t : DeviceId} {c : Command} (n i : UInt8) {rest : Bytes}
    (h : n.toNat ≤ rest.length) :
    header ⟨s, t, c, i.toNat, rest.take n.toNat⟩ =
      [0x5A, 0xA5, n, s.toByte, t.toByte, c.toByte, i] := by
  have hn : UInt8.ofNat (rest.take n.toNat).length = n := by
    rw [List.length_take, Nat.min_eq_left h, UInt8.ofNat_toNat]
  have hi : indexByte ⟨s, t, c, i.toNat, rest.take n.toNat⟩ = i := by
    have hlt : i.toNat < 256 := i.toNat_lt
    show UInt8.ofNat ((i.toNat : Int) % 256).toNat = i
    rw [show ((i.toNat : Int) % 256).toNat = i.toNat from by omega, UInt8.ofNat_toNat]
  show [0x5A, 0xA5, UInt8.ofNat (rest.take n.toNat).length, _, _, _, indexByte _] = _
  rw [hn, hi]

/-- `unpack` returns a packet whose encoding is the frame up to its end, or
    it raises its own error and the frame is not readable. -/
theorem unpack_cases (raw : Bytes) :
    (∃ p, unpack raw = .ok p ∧ Readable raw ∧
      p.pack = .ok (raw.take (headerLength + (raw.getD 2 0).toNat))) ∨
    (¬ Readable raw ∧ ∃ text, unpack raw = .error ⟨.ninebotProtocolError, text⟩) := by
  by_cases hheader : raw.length < headerLength
  · right
    unfold unpack
    rw [if_pos hheader]
    exact ⟨fun h => absurd h.header (by omega), _, rfl⟩
  -- From here on the seven bytes of the header are there.
  obtain ⟨a, b, n, x, y, z, i, rest, rfl⟩ := header_bytes (Nat.le_of_not_lt hheader)
  rw [unpack_cons]
  have hwhole : headerLength + n.toNat ≤ (a :: b :: n :: x :: y :: z :: i :: rest).length ↔
      n.toNat ≤ rest.length := by
    simp only [List.length_cons, headerLength]
    omega
  by_cases hmagic : [a, b] ≠ proto2Magic
  · right
    rw [if_pos hmagic]
    exact ⟨fun h => hmagic h.magic, _, rfl⟩
  · rw [if_neg hmagic]
    by_cases hshort : rest.length < n.toNat
    · right
      rw [if_pos hshort]
      refine ⟨fun h => ?_, _, rfl⟩
      have := hwhole.mp h.whole
      omega
    · rw [if_neg hshort]
      have hn : n.toNat ≤ rest.length := by omega
      rcases unpackFields_cases x y z with ⟨s, t, c, hfields, rfl, rfl, rfl⟩ | ⟨hno, text, hfields⟩
      · left
        rw [hfields]
        refine ⟨⟨s, t, c, i.toNat, rest.take n.toNat⟩, rfl, ?_, ?_⟩
        · exact ⟨by omega, by simpa using hmagic, hwhole.mpr hn, ⟨s, rfl⟩, ⟨t, rfl⟩, ⟨c, rfl⟩⟩
        · apply pack_eq_ok.mpr
          have hlt : n.toNat < 256 := n.toNat_lt
          have hab : a = 0x5A ∧ b = 0xA5 := by simpa [proto2Magic] using hmagic
          -- Packing it again gives the bytes that were read, and drops the rest.
          constructor
          · show (rest.take n.toNat).length ≤ maxDataLength
            rw [List.length_take, maxDataLength]
            omega
          · rw [header_of_fields n i hn, hab.1, hab.2]
            show List.take (7 + n.toNat) _ = _
            rw [Nat.add_comm]
            rfl
      · right
        rw [hfields]
        refine ⟨fun h => ?_, _, rfl⟩
        rcases hno with hno | hno | hno
        · obtain ⟨d, hd⟩ := h.source
          exact hno d (by simpa using hd.symm)
        · obtain ⟨d, hd⟩ := h.target
          exact hno d (by simpa using hd.symm)
        · obtain ⟨c, hc⟩ := h.command
          exact hno c (by simpa using hc.symm)

/-- The length of the data is read from one byte. -/
theorem length_of_unpack {raw : Bytes} {p : Packet} (h : unpack raw = .ok p) :
    p.data.length ≤ maxDataLength := by
  rcases unpack_cases raw with ⟨q, hq, _, hpack⟩ | ⟨_, text, he⟩
  · rw [h] at hq
    cases hq
    exact (pack_eq_ok.mp hpack).1
  · rw [h] at he
    cases he

/-- The codec in both directions. -/
theorem codec_laws :
    (∀ p : Packet, p.data.length ≤ maxDataLength → 0 ≤ p.index → p.index ≤ 255 →
      p.pack >>= unpack = .ok p) ∧
    ∀ raw : Bytes,
      ((∃ p, unpack raw = .ok p) ↔ Readable raw) ∧
      (∀ p, unpack raw = .ok p →
        p.pack = .ok (raw.take (headerLength + (raw.getD 2 0).toNat))) ∧
      (¬ Readable raw → ∃ text, unpack raw = .error ⟨.ninebotProtocolError, text⟩) := by
  constructor
  · intro p hlen h0 h1
    have hpack := pack_eq_ok.mpr ⟨hlen, rfl⟩
    rw [hpack]
    exact unpack_pack h0 h1 hpack
  · intro raw
    -- What `unpack` accepts is read back; what it refuses is not readable.
    rcases unpack_cases raw with ⟨p, hp, hread, hpack⟩ | ⟨hread, text, he⟩
    · refine ⟨⟨fun _ => hread, fun _ => ⟨p, hp⟩⟩, ?_, fun hno => absurd hread hno⟩
      intro q hq
      rw [hp] at hq
      cases hq
      exact hpack
    · refine ⟨⟨?_, fun h => absurd h hread⟩, ?_, fun _ => ⟨text, he⟩⟩
      · rintro ⟨p, hp⟩
        rw [hp] at he
        cases he
      · intro p hp
        rw [hp] at he
        cases he

/-! ## Replies to register requests -/

/-- What a board answers a register request with: back to the sender, under the
    acknowledging command and the index byte of the frame that was sent. -/
def acknowledgement (self : Packet) (sent data : Bytes) : Packet :=
  ⟨self.target, self.source, self.command.response, (sent.getD 6 0).toNat, data⟩

/-- The index byte is the only trace that the index leaves in a frame. -/
theorem acknowledgement_index {self : Packet} {sent : Bytes} (h : self.pack = .ok sent)
    (data : Bytes) : (self.acknowledgement sent data).index = self.index % 256 := by
  obtain ⟨_, rfl⟩ := pack_eq_ok.mp h
  show (self.indexByte.toNat : Int) = _
  unfold indexByte
  rw [UInt8.toNat_ofNat']
  omega

/-- An acknowledgement is read back as it was packed. -/
theorem acknowledgement_unpack {self : Packet} {sent data : Bytes} (h : self.pack = .ok sent)
    (hdata : data.length ≤ maxDataLength) :
    (self.acknowledgement sent data).pack >>= unpack = .ok (self.acknowledgement sent data) := by
  have hindex := acknowledgement_index h data
  have hpack := pack_eq_ok.mpr
    ⟨show (self.acknowledgement sent data).data.length ≤ maxDataLength from hdata, rfl⟩
  rw [hpack]
  apply unpack_pack _ _ hpack
  · omega
  · omega

/-- For register traffic the matcher compares the indices, unreduced. -/
theorem matchesRequest_acknowledgement {self : Packet} (sent data : Bytes)
    (hcommand : self.command = .read ∨ self.command = .write) :
    (self.acknowledgement sent data).matchesRequest self = true ↔
      (self.acknowledgement sent data).index = self.index := by
  have hregister : self.command.toByte < Command.init.toByte := by
    rcases hcommand with h | h
    · rw [h]
      decide
    · rw [h]
      decide
  unfold matchesRequest
  simp [acknowledgement, hregister]

/-- A board that echoes the index byte is understood exactly when the index of
    the request is that byte. -/
theorem acknowledgement_matches_iff {request : Packet} {sent data : Bytes}
    (hcommand : request.command = .read ∨ request.command = .write)
    (hsent : request.pack = .ok sent) (hdata : data.length ≤ maxDataLength) :
    (∃ reply, (request.acknowledgement sent data).pack >>= unpack = .ok reply ∧
      reply.matchesRequest request = true) ↔ 0 ≤ request.index ∧ request.index ≤ 255 := by
  have hindex := acknowledgement_index hsent data
  rw [acknowledgement_unpack hsent hdata]
  constructor
  · rintro ⟨reply, hreply, hmatch⟩
    cases hreply
    rw [matchesRequest_acknowledgement sent data hcommand] at hmatch
    omega
  · rintro ⟨h0, h1⟩
    have hmatch := (matchesRequest_acknowledgement sent data hcommand).mpr (by omega)
    exact ⟨_, rfl, hmatch⟩

theorem acknowledgement_matches_word :
    (∃ reply, (acknowledgement ⟨.host, .bms, .read, 0xFF, [2]⟩
        [0x5A, 0xA5, 1, 0x3D, 0x22, 0x01, 0xFF, 2] [0, 0]).pack >>= unpack = .ok reply ∧
      reply.matchesRequest ⟨.host, .bms, .read, 0xFF, [2]⟩ = true) ↔
      (0 : Int) ≤ 0xFF ∧ (0xFF : Int) ≤ 255 :=
  acknowledgement_matches_iff (Or.inl rfl) (by decide) (by decide)

/-- The second word of a register at 0xFF is asked for under index 0x100. -/
theorem acknowledgement_wraps :
    ¬ ∀ (request : Packet) (sent data : Bytes),
      request.command = .read ∨ request.command = .write → request.pack = .ok sent →
      data.length ≤ maxDataLength →
      ∃ reply, (request.acknowledgement sent data).pack >>= unpack = .ok reply ∧
        reply.matchesRequest request = true := by
  intro h
  -- The frame carries index 0, and so does the reply.
  obtain ⟨reply, hreply, hmatch⟩ := h ⟨.host, .bms, .read, 0x100, [2]⟩
    [0x5A, 0xA5, 1, 0x3D, 0x22, 0x01, 0x00, 2] [0, 0] (Or.inl rfl) (by decide) (by decide)
  have hread : (acknowledgement ⟨.host, .bms, .read, 0x100, [2]⟩
      [0x5A, 0xA5, 1, 0x3D, 0x22, 0x01, 0x00, 2] [0, 0]).pack >>= unpack =
      .ok ⟨.bms, .host, .readAck, 0, [0, 0]⟩ := by decide
  rw [hread] at hreply
  cases hreply
  exact absurd hmatch (by decide)

end Packet

end Ninebot
