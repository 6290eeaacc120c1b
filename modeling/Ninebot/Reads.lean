import Ninebot.Requests

/-! # Reading one register

    What `_read_register` returns, in terms of the replies that it got: the
    beginning of one bulk reply, or the first two bytes of each word's reply,
    one after the other.  Only the bulk reply is checked for its length. -/

namespace Ninebot

open Coro

variable {κ : Type}

/-! ## Answers -/

/-- The request and the response of an answer. -/
def Obs.answer? : Obs → Option (Packet × Packet)
  | .answered _ request response _ => some (request, response)
  | _ => none

/-- The requests that were answered, with their responses, in order. -/
def World.answers (w : World κ) : List (Packet × Packet) := w.deeds.reverse.filterMap Obs.answer?

theorem World.answers_of_deeds {w w' : World κ} (new : List Obs)
    (h : w'.deeds = new ++ w.deeds) :
    w'.answers = w.answers ++ new.reverse.filterMap Obs.answer? := by
  rw [answers, answers, h, List.reverse_append, List.filterMap_append]

/-- An answer that was added is an entry of the trace since then. -/
theorem World.mem_answers {w w' : World κ} (h : w.trace <:+ w'.trace)
    {answers : List (Packet × Packet)} (ha : w'.answers = w.answers ++ answers) {q r : Packet}
    (hq : (q, r) ∈ answers) : ∃ l i, Obs.answered l q r i ∈ w.newTrace w' := by
  have heq := World.answers_of_deeds _ (World.deeds_eq_newDeeds h)
  rw [ha] at heq
  rw [List.append_cancel_left heq] at hq
  obtain ⟨o, ho, hanswer⟩ := List.mem_filterMap.mp hq
  have hmem := (World.mem_newDeeds_iff h).mp (List.mem_reverse.mp ho)
  cases o
  case answered l request response i =>
    cases hanswer
    exact ⟨l, i, hmem.1⟩
  all_goals cases hanswer

theorem SendEnds.answers {w w' : World κ} {p : Packet} {res : Res Exc Unit}
    (h : SendEnds w p res w') : w'.answers = w.answers := by
  have hnew : ∃ new, w'.deeds = new ++ w.deeds ∧ new.reverse.filterMap Obs.answer? = [] := by
    cases h with
    | down _ _ hd => exact ⟨[.sendFailed p], hd, rfl⟩
    | tooLong _ hd => exact ⟨[], hd, rfl⟩
    | failed _ _ hd => exact ⟨[.sendFailed p, _], hd, rfl⟩
    | foreign _ _ hd => exact ⟨[_], hd, rfl⟩
    | writing _ hd => exact ⟨[_], hd, rfl⟩
    | sent _ hd => exact ⟨[_], hd, rfl⟩
  obtain ⟨new, hdeeds, hnone⟩ := hnew
  rw [World.answers_of_deeds new hdeeds, hnone, List.append_nil]

/-- A request adds its answer, if it has one. -/
theorem request_answers [Cipher κ] (p : Packet) (t : Option Nat) (w : World κ) :
    Triple (request p t) w
      (fun r w' => r.matchesRequest p = true ∧ w'.answers = w.answers ++ [(p, r)])
      (fun _ w' => w'.answers = w.answers) (fun w' => w'.answers = w.answers) := by
  have h := request_ends p t w
  unfold Triple
  generalize request p t w = out at h ⊢
  obtain ⟨res, w'⟩ := out
  cases h with
  | refused hsend => exact hsend.answers
  | waiting _ hd => exact (World.answers_of_deeds [_] hd).trans (List.append_nil _)
  | unanswered _ _ hd => exact (World.answers_of_deeds [_, _] hd).trans (List.append_nil _)
  | answered _ hm _ hd => exact ⟨hm, World.answers_of_deeds [_, _] hd⟩

/-- What each request was answered, or that it was not. -/
abbrev Done : Type := List (Packet × Option Packet)

/-! ## Where a payload comes from -/

/-- What the peer reported for a register: one reply for all of it, or one for each word. -/
inductive Source where
  | bulk (reply : Packet)
  | words (replies : List Packet)

/-- Byte `i` of word `k`, if the peer reported it. -/
def Source.byte : Source → Nat → Nat → Option UInt8
  | .bulk reply, k, i => reply.data[2 * k + i]?
  | .words replies, k, i => replies[k]?.bind (·.data[i]?)

/-- A bulk reply covers the register; a word's reply covers what the register
    needs of that word. -/
def Source.Covers (register : Register) : Source → Prop
  | .bulk reply => register.length ≤ reply.data.length
  | .words replies => ∀ k reply, replies[k]? = some reply →
      min 2 (register.length - 2 * k) ≤ reply.data.length

/-- The payload is all of the register, byte for byte as the peer reported it. -/
structure Complete (register : Register) (source : Source) (payload : Bytes) : Prop where
  length : payload.length = register.length
  bytes : ∀ k i, i < 2 → 2 * k + i < register.length →
    ∃ b, source.byte k i = some b ∧ payload[2 * k + i]? = some b

/-- The bulk request for a register. -/
def bulkRequest (register : Register) : Packet :=
  readRequest register 0 (UInt8.ofNat register.length)

/-- The answers that one read of a register got. -/
inductive ReadFrom (register : Register) : List (Packet × Packet) → Source → Prop where
  | bulk {reply : Packet} : register.length ≤ reply.data.length →
      ReadFrom register [(bulkRequest register, reply)] (.bulk reply)
  /-- There may have been a bulk reply, but it was short. -/
  | words {short : List (Packet × Packet)} {replies : List Packet} :
      (short = [] ∨ ∃ reply, short = [(bulkRequest register, reply)] ∧
        reply.data.length < register.length) →
      replies.length = register.words.length →
      ReadFrom register (short ++ (register.words.map (readRequest register · 2)).zip replies)
        (.words replies)

/-! ## The words in a row -/

/-- What the walk makes of the words' replies. -/
def joinWords (replies : List Packet) : Bytes := replies.flatMap (·.data.take 2)

theorem joinWords_length {replies : List Packet} {n : Nat}
    (hlen : replies.length = (n + 1) / 2)
    (h : ∀ k reply, replies[k]? = some reply → min 2 (n - 2 * k) ≤ reply.data.length) :
    n ≤ (joinWords replies).length := by
  induction replies generalizing n with
  | nil =>
    rw [List.length_nil] at hlen
    omega
  | cons reply rest ih =>
    have hfirst := h 0 reply rfl
    rw [List.length_cons] at hlen
    have hrest := ih (n := n - 2) (by omega) (fun k r hk => by
      have := h (k + 1) r hk
      omega)
    have hjoin : joinWords (reply :: rest) = reply.data.take 2 ++ joinWords rest := rfl
    rw [hjoin, List.length_append, List.length_take]
    omega

/-- When no earlier word is short, every byte stands in its place. -/
theorem joinWords_getElem {replies : List Packet} {k i : Nat} {reply : Packet} (hi : i < 2)
    (hk : replies[k]? = some reply) (hshort : i < reply.data.length)
    (h : ∀ j < k, ∀ r, replies[j]? = some r → 2 ≤ r.data.length) :
    (joinWords replies)[2 * k + i]? = reply.data[i]? := by
  induction replies generalizing k with
  | nil => simp at hk
  | cons first rest ih =>
    have hjoin : joinWords (first :: rest) = first.data.take 2 ++ joinWords rest := rfl
    rw [hjoin]
    cases k with
    | zero =>
      obtain rfl : first = reply := by simpa using hk
      rw [Nat.mul_zero, Nat.zero_add, List.getElem?_append_left (by rw [List.length_take]; omega),
        List.getElem?_take_of_lt hi]
    | succ k =>
      have hfull := h 0 (Nat.succ_pos k) first rfl
      have htwo : (first.data.take 2).length = 2 := by
        rw [List.length_take]
        omega
      rw [List.getElem?_append_right (by omega), htwo]
      have hindex : 2 * (k + 1) + i - 2 = 2 * k + i := by omega
      rw [hindex]
      exact ih hk fun j hj r hr => h (j + 1) (by omega) r hr

/-- A walk returns the whole register exactly when no word's reply is short. -/
theorem complete_words_iff {register : Register} {replies : List Packet}
    (hlen : replies.length = register.words.length) :
    Complete register (.words replies) ((joinWords replies).take register.length) ↔
      (Source.words replies).Covers register := by
  have hwords : register.words.length = (register.length + 1) / 2 := List.length_range
  rw [hwords] at hlen
  constructor
  · intro h k reply hk
    -- The last byte that the register needs of word k was reported.
    rcases Nat.eq_zero_or_pos (min 2 (register.length - 2 * k)) with hzero | hpos
    · omega
    · obtain ⟨b, hb, _⟩ := h.bytes k (min 2 (register.length - 2 * k) - 1) (by omega) (by omega)
      have hb' : reply.data[min 2 (register.length - 2 * k) - 1]? = some b := by
        simpa [Source.byte, hk] using hb
      obtain ⟨hlt, _⟩ := List.getElem?_eq_some_iff.mp hb'
      omega
  · intro h
    refine ⟨?_, ?_⟩
    · have := joinWords_length hlen h
      rw [List.length_take]
      omega
    · intro k i hi hlt
      have hk : k < replies.length := by omega
      have hreply : replies[k]? = some replies[k] := List.getElem?_eq_getElem hk
      have hcover := h k replies[k] hreply
      have hshort : i < replies[k].data.length := by omega
      refine ⟨replies[k].data[i], by simp [Source.byte, hk, hshort], ?_⟩
      rw [List.getElem?_take_of_lt hlt, joinWords_getElem hi hreply hshort]
      · exact List.getElem?_eq_getElem hshort
      · intro j hj r hr
        have := h j r hr
        omega

/-! ## The read -/

/-- What a read returns was reported by the peer: all of it, if the replies
    cover the register, and not all of it if they do not. -/
def ReadResult (register : Register) (w : World κ) (payload : Bytes) (w' : World κ) : Prop :=
  ∃ answers source, w'.answers = w.answers ++ answers ∧ ReadFrom register answers source ∧
    (Complete register source payload ↔ source.Covers register)

theorem complete_bulk {register : Register} {reply : Packet}
    (h : register.length ≤ reply.data.length) :
    Complete register (.bulk reply) (reply.data.take register.length) := by
  refine ⟨by rw [List.length_take]; omega, ?_⟩
  intro k i hi hlt
  have hget : reply.data[2 * k + i]? = some reply.data[2 * k + i] :=
    List.getElem?_eq_getElem (by omega)
  exact ⟨_, hget, by rw [List.getElem?_take_of_lt hlt, hget]⟩

variable [Cipher κ]

/-- The walk asks for one word after the other and appends what it gets. -/
theorem walk_answers (register : Register) (words : List Nat) (payload : Bytes) (w : World κ) :
    Triple (walk register words payload) w
      (fun result w' => ∃ replies : List Packet, replies.length = words.length ∧
        w'.answers = w.answers ++ (words.map (readRequest register · 2)).zip replies ∧
        result = payload ++ joinWords replies)
      (fun _ _ => True) (fun _ => True) := by
  induction words generalizing payload w with
  | nil =>
    have hnone : joinWords [] = [] := rfl
    exact Triple.pure ⟨[], rfl, (List.append_nil _).symm, by rw [hnone, List.append_nil]⟩
  | cons word rest ih =>
    refine Triple.bind ((request_answers _ _ w).mono (fun _ _ h => h) (fun _ _ _ => trivial)
      (fun _ _ => trivial)) ?_
    intro reply w₁ hreply
    apply (ih (payload ++ reply.data.take 2) w₁).mono_ret
    intro result w₂ hresult
    obtain ⟨replies, hlen, hanswers, hpayload⟩ := hresult
    refine ⟨reply :: replies, congrArg (· + 1) hlen, ?_, ?_⟩
    · rw [hanswers, hreply.2, List.append_assoc]
      rfl
    · rw [hpayload, List.append_assoc]
      rfl

theorem walkRegister_result (register : Register) {w w₀ : World κ}
    {short : List (Packet × Packet)} (hw : w.answers = w₀.answers ++ short)
    (hshort : short = [] ∨ ∃ reply, short = [(bulkRequest register, reply)] ∧
      reply.data.length < register.length) :
    Triple (walkRegister register) w (ReadResult register w₀) (fun _ _ => True)
      (fun _ => True) := by
  apply Triple.bind (walk_answers register register.words [] w)
  intro result w₁ hresult
  obtain ⟨replies, hlen, hanswers, rfl⟩ := hresult
  refine Triple.pure ⟨_, .words replies, ?_, ReadFrom.words hshort hlen, ?_⟩
  · rw [hanswers, hw, List.append_assoc]
  · exact complete_words_iff hlen

theorem readRegister_result (register : Register) (w : World κ) :
    Triple (readRegister register) w (ReadResult register w) (fun _ _ => True)
      (fun _ => True) := by
  have hbulk : Triple (bulkRead register) w
      (fun r w' => w'.answers = w.answers ++ [(bulkRequest register, r)])
      (fun _ w' => w'.answers = w.answers) (fun _ => True) := by
    unfold bulkRead
    by_cases hlen : register.length < 256
    · rw [if_pos hlen]
      exact (request_answers _ _ w).mono (fun _ _ h => h.2) (fun _ _ h => h) (fun _ _ => trivial)
    · rw [if_neg hlen]
      exact Triple.raise rfl
  -- Where the walk starts: after a bulk read that failed, or one that is too short.
  refine readRegister_triple (T := fun w' => ∃ first, w'.answers = w.answers ++ first ∧
    (first = [] ∨ ∃ r : Packet, first = [(bulkRequest register, r)] ∧
      r.data.length < register.length)) (hbulk.mono ?_ ?_ (fun _ h => h)) ?_
  · intro response w' h
    split
    · next hfull =>
      refine ⟨_, .bulk response, h, ReadFrom.bulk hfull, ?_⟩
      exact ⟨fun _ => hfull, fun _ => complete_bulk hfull⟩
    · next hfull => exact ⟨_, h, Or.inr ⟨response, rfl, Nat.lt_of_not_le hfull⟩⟩
  · intro e w' h
    split
    · exact ⟨[], h.trans (List.append_nil _).symm, Or.inl rfl⟩
    · trivial
  · rintro w' ⟨first, h, hfirst⟩
    exact walkRegister_result register h hfirst

end Ninebot
