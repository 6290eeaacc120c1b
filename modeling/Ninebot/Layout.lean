import Ninebot.Loop
import Ninebot.Reads

/-! # How registers lie in memory

    A register is some words of its board.  The scooter answers a read of a
    word from the register that begins there, or else from the first one that
    the word lies in.  Where no other register overlaps this one, the bulk read
    of the register and the walk over its words agree.

    This file defines:
    - `EntriesApart`: two registers that do not overlap
    - `FakeScooter.Holds`: a register that can be read -/

namespace Ninebot

open Coro FakeScooter

/-- The words of an entry. -/
def entryWords (entry : (DeviceId × Int) × Bytes) : Int := (entry.2.length + 1) / 2

/-- Two entries of one board have no word in common. -/
def EntriesApart (a b : (DeviceId × Int) × Bytes) : Prop :=
  a.1.1 = b.1.1 → a.1.2 + entryWords a ≤ b.1.2 ∨ b.1.2 + entryWords b ≤ a.1.2

instance (a b : (DeviceId × Int) × Bytes) : Decidable (EntriesApart a b) :=
  inferInstanceAs (Decidable (_ → _))

/-- No other register overlaps this one. -/
def RegisterFile.Clear (file : RegisterFile) (entry : (DeviceId × Int) × Bytes) : Prop :=
  ∀ other ∈ file.entries, entry ≠ other → EntriesApart entry other

instance (file : RegisterFile) (entry : (DeviceId × Int) × Bytes) : Decidable (file.Clear entry) :=
  inferInstanceAs (Decidable (∀ other ∈ file.entries, entry ≠ other → EntriesApart entry other))

/-- The register can be read, up to one byte that its last word may lack. -/
structure FakeScooter.Holds (S : FakeScooter) (register : Register) (payload : Bytes) : Prop where
  stored : S.registers.get (register.board, register.index) = some payload
  clear : S.registers.Clear ((register.board, (register.index : Int)), payload)
  whole : 2 * ((register.length + 1) / 2) ≤ payload.length + 1
  readable : ∀ word < (register.length + 1) / 2,
    (register.board, (register.index : Int) + word) ∉ S.unreadable

section Words

variable {file : RegisterFile} {board : DeviceId} {index : Int} {payload : Bytes} {word : Nat}

theorem findSome?_eq_of_unique {α β : Type} {f : α → Option β} {xs : List α} {a : α} {b : β}
    (hmem : a ∈ xs) (ha : f a = some b) (hunique : ∀ x ∈ xs, ∀ y, f x = some y → y = b) :
    xs.findSome? f = some b := by
  rcases hfound : xs.findSome? f with _ | y
  · rw [List.findSome?_eq_none_iff.mp hfound a hmem] at ha
    cases ha
  · obtain ⟨x, hx, hy⟩ := List.exists_of_findSome?_eq_some hfound
    rw [hunique x hx y hy]

theorem RegisterFile.mem_of_get (h : file.get (board, index) = some payload) :
    ((board, index), payload) ∈ file.entries := by
  obtain ⟨before, after, heq, _⟩ := List.lookup_eq_some_iff.mp h
  rw [heq]
  exact List.mem_append_right _ List.mem_cons_self

/-- Inside a register no other one begins. -/
theorem RegisterFile.get_inside (hclear : file.Clear ((board, index), payload)) (hpos : 0 < word)
    (hword : 2 * word < payload.length) : file.get (board, index + word) = none := by
  rcases hother : file.get (board, index + word) with _ | payload'
  · rfl
  · have hne : ((board, index), payload) ≠ ((board, index + (word : Int)), payload') := by
      intro heq
      have : index = index + word := congrArg (fun entry => entry.1.2) heq
      omega
    have hapart := hclear _ (mem_of_get hother) hne rfl
    simp only [entryWords] at hapart
    omega

/-- Inside a register it is this one that is read. -/
theorem RegisterFile.within_inside (hclear : file.Clear ((board, index), payload))
    (hget : file.get (board, index) = some payload) (hpos : 0 < word)
    (hword : 2 * word < payload.length) :
    file.within board (index + word) = some (payload.drop (2 * word)) := by
  have hthis := mem_of_get hget
  apply findSome?_eq_of_unique hthis
  · have hoffset : (index + (word : Int) - index) * 2 = ((2 * word : Nat) : Int) := by
      push_cast
      ring
    simp only [hoffset]
    rw [if_pos ⟨trivial, by omega, by omega⟩]
    rfl
  · rintro ⟨⟨board', index'⟩, payload'⟩ hmem y hy
    simp only [Option.ite_none_right_eq_some, Option.some.injEq] at hy
    obtain ⟨⟨rfl, hlow, hhigh⟩, rfl⟩ := hy
    by_cases heq : ((board', index), payload) = ((board', index'), payload')
    · obtain ⟨rfl, rfl⟩ : index = index' ∧ payload = payload' := by simpa using heq
      congr 1
      omega
    · have hapart := hclear _ hmem heq rfl
      simp only [entryWords] at hapart
      omega

end Words

/-! ## Reading a register -/

section Reading

variable {S : FakeScooter} {register : Register} {payload : Bytes} {word : Nat}

/-- The answer to a read of a register that is stored. -/
theorem hear_stored {p : Packet} (hread : p.command = .read)
    (hreadable : (p.target, p.index) ∉ S.unreadable)
    (hstored : (S.registers.get (p.target, p.index)).or
      (S.registers.within p.target p.index) = some payload) :
    S.hear p = if 2 < p.wanted ∧ S.supportsBulkReads = false then .error timedOut
      else .ok (readReply p.target p.index (payload.take p.wanted)) := by
  unfold FakeScooter.hear reply
  rw [hread]
  simp only [readAnswer, if_neg hreadable, hstored, Option.bind_some]
  by_cases hbulk : 2 < p.wanted ∧ S.supportsBulkReads = false
  · rw [if_pos hbulk, if_pos hbulk]
  · rw [if_neg hbulk, if_neg hbulk]

/-- The answer to a read of one word of a register. -/
theorem hear_word (h : S.Holds register payload)
    (hword : word < (register.length + 1) / 2) :
    S.hear (readRequest register word 2) =
      .ok (readReply register.board (register.index + word)
        ((payload.drop (2 * word)).take 2)) := by
  have hwhole := h.whole
  have hstored : (S.registers.get (register.board, (register.index : Int) + word)).or
      (S.registers.within register.board ((register.index : Int) + word)) =
        some (payload.drop (2 * word)) := by
    rcases Nat.eq_zero_or_pos word with rfl | hpos
    · have hzero : (register.index : Int) + (0 : Nat) = register.index := by omega
      rw [hzero, h.stored]
      rfl
    · rw [RegisterFile.get_inside h.clear hpos (by omega),
        RegisterFile.within_inside h.clear h.stored hpos (by omega)]
      rfl
  exact hear_stored (p := readRequest register word 2) rfl (h.readable word hword) hstored

/-- The answer to a bulk read, if bulk reads are answered. -/
theorem hear_bulk (h : S.Holds register payload) (hpos : 0 < register.length)
    (hlength : register.length < 256) :
    S.hear (readRequest register 0 (UInt8.ofNat register.length)) =
      if 2 < register.length ∧ S.supportsBulkReads = false then .error timedOut
      else .ok (readReply register.board register.index (payload.take register.length)) := by
  have hwanted : (readRequest register 0 (UInt8.ofNat register.length)).wanted =
      register.length := by
    show (UInt8.ofNat register.length).toNat = register.length
    rw [UInt8.toNat_ofNat']
    omega
  have hindex : (readRequest register 0 (UInt8.ofNat register.length)).index = register.index := by
    show (register.index : Int) + (0 : Nat) = register.index
    omega
  have hhear := hear_stored (S := S)
    (p := readRequest register 0 (UInt8.ofNat register.length)) rfl (h.readable 0 (by omega))
    (by rw [hindex]; exact congrArg (Option.or · _) h.stored)
  rw [hwanted, hindex] at hhear
  exact hhear

/-- The walk collects the words from the next one on. -/
theorem walked_words (h : S.Holds register payload) (word k : Nat)
    (hk : word + k ≤ (register.length + 1) / 2) :
    S.walked register (List.range' word k) (payload.take (2 * word)) =
      .ok (payload.take (2 * (word + k))) := by
  induction k generalizing word with
  | zero => rfl
  | succ k ih =>
    rw [List.range'_succ, walked, hear_word h (by omega)]
    have hnext : payload.take (2 * word) ++ ((payload.drop (2 * word)).take 2).take 2 =
        payload.take (2 * (word + 1)) := by
      rw [List.take_take, Nat.min_self, Nat.mul_succ, List.take_add]
    show S.walked register (List.range' (word + 1) k) (payload.take (2 * word) ++
      ((payload.drop (2 * word)).take 2).take 2) = _
    rw [hnext, ih (word + 1) (by omega)]
    congr 2
    omega

/-- However a register is read, its payload is what is read. -/
theorem outcome_holds (h : S.Holds register payload)
    (hpos : 0 < register.length) (hlength : register.length < 256) :
    S.outcome register = .ok (payload.take register.length) := by
  have hwalk : (S.walked register register.words []).map (·.take register.length) =
      .ok (payload.take register.length) := by
    have hwords := walked_words h 0 ((register.length + 1) / 2) (by omega)
    rw [← List.range_eq_range'] at hwords
    show (S.walked register (List.range ((register.length + 1) / 2))
      (payload.take (2 * 0))).map _ = _
    rw [hwords]
    show Except.ok ((payload.take _).take register.length) = _
    rw [List.take_take]
    congr 2
    omega
  unfold outcome
  rw [hear_bulk h hpos hlength, hwalk]
  by_cases hbulk : 2 < register.length ∧ S.supportsBulkReads = false
  · -- No answer to the bulk read: the words are read.
    rw [if_pos hbulk]
    exact if_neg (by unfold wordSize; omega)
  · rw [if_neg hbulk]
    have hshort : (readReply register.board register.index
        (payload.take register.length)).data.take register.length =
          payload.take register.length := by
      show (payload.take register.length).take register.length = _
      rw [List.take_take, Nat.min_self]
    simp only [hshort, ite_self]

end Reading

end Ninebot
