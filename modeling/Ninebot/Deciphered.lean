import Ninebot.Codec
import Ninebot.FakeScooter
import Ninebot.Framing

/-! # Frames after decryption

    Reassembly cuts a frame by its length byte, and the decoder reads the same
    byte again from the plaintext.  With a cipher that takes off the six bytes
    it had added, and leaves the first three alone, the two agree: no frame
    fails to decode for its preamble or its length.

    This file defines:
    - `Framed`: the frames that `_on_notify` hands to `_dispatch`
    - `Strips`: what decryption does to the size of a frame
    - `Whole`: a plaintext that is one frame, with nothing missing or left over -/

namespace Ninebot

/-! ## Frames -/

/-- A preamble, and as many bytes as the length byte asks for. -/
structure Framed (frame : Bytes) : Prop where
  magic : frame.take 2 = proto2Magic
  whole : frame.length = headerLength + (frame.getD 2 0).toNat + encryptionOverhead

/-- Every frame of a stream is cut so. -/
theorem Tokens.framed {s : Bytes} {frames : List Bytes} {rest : Bytes} (h : Tokens s frames rest) :
    ∀ frame ∈ frames, Framed frame := by
  induction h with
  | noMagic _ => simp
  | incomplete _ _ => simp
  | @frame s i n frames rest hi hn hlen _ ih =>
    intro frame hmem
    rcases List.mem_cons.mp hmem with rfl | hmem
    · have hmagic : (s.drop i).take 2 = proto2Magic := (List.prefix_iff_eq_take.mp hi.1).symm
      have hbyte : ((s.drop i).take (n.toNat + 13))[2]? = some n := by
        rw [List.getElem?_take_of_lt (by omega)]
        exact hn
      constructor
      · rw [List.take_take, Nat.min_eq_left (by omega)]
        exact hmagic
      · rw [List.length_take, Nat.min_eq_left hlen, List.getD_eq_getElem?_getD, hbyte]
        show n.toNat + 13 = 7 + n.toNat + 6
        omega
    · exact ih frame hmem

/-- Whatever the buffer held and however the bytes arrive, only such frames
    are dispatched. -/
theorem feed_framed (chunks : List Bytes) (buffer : Bytes) :
    ∃ (frames : List Bytes) (rest : Bytes), (∀ frame ∈ frames, Framed frame) ∧
      ∀ {σ : Type} (dispatch : σ → Bytes → σ) (s : σ),
        chunks.foldl (feed dispatch) (buffer, s) = (rest, frames.foldl dispatch s) := by
  induction chunks generalizing buffer with
  | nil => exact ⟨[], buffer, by simp, fun _ _ => rfl⟩
  | cons chunk chunks ih =>
    have hframed := (tokens_tokenizer (buffer ++ chunk)).framed
    obtain ⟨frames, rest, hlater, hfold⟩ := ih (proto2Tokenizer.tokens (buffer ++ chunk)).2
    refine ⟨(proto2Tokenizer.tokens (buffer ++ chunk)).1 ++ frames, rest, ?_, ?_⟩
    · intro frame hmem
      rcases List.mem_append.mp hmem with h | h
      · exact hframed frame h
      · exact hlater frame h
    · intro σ dispatch s
      rw [List.foldl_cons, feed, onNotify_eq, hfold, List.foldl_append]

/-! ## Plaintexts -/

/-- The bytes that encryption added are gone, and the first three are as they were. -/
structure Stripped (frame plaintext : Bytes) : Prop where
  length : plaintext.length = frame.length - encryptionOverhead
  start : plaintext.take lengthFieldOffset = frame.take lengthFieldOffset

/-- What `_dispatch` relies on when it decrypts. -/
def Cipher.Strips (κ : Type) [Cipher κ] : Prop :=
  ∀ (keys : Keys) (state state' : κ) (frame plaintext : Bytes),
    lengthFieldOffset + encryptionOverhead ≤ frame.length →
    Cipher.decrypt keys state frame = (.ok plaintext, state') → Stripped frame plaintext

/-- One frame from its preamble to its last byte. -/
structure Whole (plaintext : Bytes) : Prop where
  magic : plaintext.take 2 = proto2Magic
  length : plaintext.length = headerLength + (plaintext.getD 2 0).toNat

theorem Framed.stripped {frame plaintext : Bytes} (h : Framed frame)
    (hs : Stripped frame plaintext) : Whole plaintext := by
  have hstart : ∀ i < 3, plaintext[i]? = frame[i]? := by
    intro i hi
    rw [← List.getElem?_take_of_lt (l := plaintext) hi, ← List.getElem?_take_of_lt (l := frame) hi]
    exact congrArg (fun bytes : Bytes => bytes[i]?) hs.start
  have htake : plaintext.take 2 = frame.take 2 := by
    have := congrArg (List.take 2) hs.start
    simpa [List.take_take, lengthFieldOffset] using this
  have hbyte : plaintext.getD 2 0 = frame.getD 2 0 := by
    rw [List.getD_eq_getElem?_getD, List.getD_eq_getElem?_getD, hstart 2 (by omega)]
  have hlen := hs.length
  rw [h.whole, ← hbyte] at hlen
  exact ⟨htake.trans h.magic, by omega⟩

/-- The byte at this place names no member. -/
def UnknownField (plaintext : Bytes) : Prop :=
  (∀ d : DeviceId, plaintext[3]? ≠ some d.toByte) ∨
    (∀ d : DeviceId, plaintext[4]? ≠ some d.toByte) ∨
    ∀ c : Command, plaintext[5]? ≠ some c.toByte

/-- `unpack` of a whole frame: every byte goes into the packet, or a field is
    unknown. -/
theorem Whole.unpack {plaintext : Bytes} (h : Whole plaintext) :
    (∃ packet, Packet.unpack plaintext = .ok packet ∧ packet.pack = .ok plaintext) ∨
      (UnknownField plaintext ∧ ∃ text, Packet.unpack plaintext =
        .error ⟨.ninebotProtocolError, "Unknown field in frame: " ++ text⟩) := by
  have hlen := h.length
  rcases Packet.unpack_cases plaintext with ⟨packet, hunpack, _, hpack⟩ | ⟨hno, _, _⟩
  · left
    rw [← hlen, List.take_length] at hpack
    exact ⟨packet, hunpack, hpack⟩
  · right
    obtain ⟨a, b, n, x, y, z, i, rest, rfl⟩ :=
      Packet.header_bytes (show _ ≤ plaintext.length by omega)
    have hrest : ¬ rest.length < n.toNat := by
      simp only [List.length_cons, headerLength, List.getD_cons_succ, List.getD_cons_zero] at hlen
      omega
    have hmagic : ¬ [a, b] ≠ proto2Magic := not_not.mpr h.magic
    rw [Packet.unpack_cons, if_neg hmagic, if_neg hrest]
    -- Preamble and length are right, so it is one of the three lookups that failed.
    rcases Packet.unpackFields_cases x y z with ⟨s, t, c, _, rfl, rfl, rfl⟩ | ⟨hfields, _, herror⟩
    · exact absurd ⟨by omega, h.magic, by omega, ⟨s, rfl⟩, ⟨t, rfl⟩, ⟨c, rfl⟩⟩ hno
    · rw [herror]
      refine ⟨?_, _, rfl⟩
      simpa [UnknownField, eq_comm] using hfields

/-! ## Every stream -/

section Streams

variable {κ : Type} [Cipher κ]

/-- For every byte stream, cut in any way: what decryption makes of a frame that
    is dispatched is a whole frame, so that it decodes to a packet that accounts
    for all of it, or has an unknown field. -/
theorem dispatched_whole (hstrips : Cipher.Strips κ) (chunks : List Bytes) (buffer : Bytes) :
    ∃ (frames : List Bytes) (rest : Bytes),
      (∀ {σ : Type} (dispatch : σ → Bytes → σ) (s : σ),
        chunks.foldl (feed dispatch) (buffer, s) = (rest, frames.foldl dispatch s)) ∧
      ∀ frame ∈ frames, ∀ (keys : Keys) (state state' : κ) (plaintext : Bytes),
        Cipher.decrypt keys state frame = (.ok plaintext, state') →
        plaintext.take 2 = proto2Magic ∧
        plaintext.length = headerLength + (plaintext.getD 2 0).toNat ∧
        ((∃ packet, Packet.unpack plaintext = .ok packet ∧ packet.pack = .ok plaintext) ∨
          (UnknownField plaintext ∧ ∃ text, Packet.unpack plaintext =
            .error ⟨.ninebotProtocolError, "Unknown field in frame: " ++ text⟩)) := by
  obtain ⟨frames, rest, hframed, hfold⟩ := feed_framed chunks buffer
  refine ⟨frames, rest, hfold, ?_⟩
  intro frame hmem keys state state' plaintext hdecrypt
  have hframe := hframed frame hmem
  have hlong : lengthFieldOffset + encryptionOverhead ≤ frame.length := by
    have := hframe.whole
    unfold lengthFieldOffset headerLength at *
    omega
  have hwhole := hframe.stripped (hstrips keys state state' frame plaintext hlong hdecrypt)
  exact ⟨hwhole.magic, hwhole.length, hwhole.unpack⟩

end Streams

/-- The cipher of the tests keeps every byte but the last six. -/
theorem StubCrypto.strips : Cipher.Strips StubCrypto := by
  intro keys state state' frame plaintext hlong h
  obtain ⟨rfl, _⟩ : frame.take (frame.length - 6) = plaintext ∧ state = state' := by
    simpa [Cipher.decrypt, cryptoTrailer] using h
  unfold lengthFieldOffset encryptionOverhead at hlong
  constructor
  · rw [List.length_take, encryptionOverhead]
    omega
  · rw [lengthFieldOffset, List.take_take, Nat.min_eq_left (by omega)]

theorem dispatched_whole_stub :
    ∃ (frames : List Bytes) (rest : Bytes),
      (∀ {σ : Type} (dispatch : σ → Bytes → σ) (s : σ),
        [[0x5A], [0xA5, 0, 0x22, 0x3D, 0x04, 0x10] ++ cryptoTrailer].foldl (feed dispatch) ([], s) =
          (rest, frames.foldl dispatch s)) ∧
      ∀ frame ∈ frames, ∀ (keys : Keys) (state state' : StubCrypto) (plaintext : Bytes),
        Cipher.decrypt keys state frame = (.ok plaintext, state') →
        plaintext.take 2 = proto2Magic ∧
        plaintext.length = headerLength + (plaintext.getD 2 0).toNat ∧
        ((∃ packet, Packet.unpack plaintext = .ok packet ∧ packet.pack = .ok plaintext) ∨
          (UnknownField plaintext ∧ ∃ text, Packet.unpack plaintext =
            .error ⟨.ninebotProtocolError, "Unknown field in frame: " ++ text⟩)) :=
  dispatched_whole StubCrypto.strips _ []

end Ninebot
