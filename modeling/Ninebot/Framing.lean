import Ninebot.Pynebot.World

/-! # Reassembly of frames

    `_on_notify` sees the scooter's bytes in notifications that may end
    anywhere.  Its buffer is a `Reassembly.Tokenizer`: what it hands to
    `_dispatch`, and what it keeps, depend on the bytes alone.

    `Tokens` says which frames a byte stream holds, without reference to the
    code: skip to the first preamble, cut one frame by its length byte, and
    repeat until the last frame is incomplete. -/

namespace Ninebot

/-! ## The leftmost tokenization -/

/-- The first preamble of `s` is at offset `i`. -/
def FirstMagic (s : Bytes) (i : Nat) : Prop :=
  proto2Magic <+: s.drop i ∧ ∀ j < i, ¬ proto2Magic <+: s.drop j

/-- Too few bytes for a length byte, or fewer than the length byte asks for. -/
def Incomplete (s : Bytes) : Prop := ∀ n, s[2]? = some n → s.length < n.toNat + 13

/-- The frames of a stream and what is left after the last one. -/
inductive Tokens : Bytes → List Bytes → Bytes → Prop where
  | noMagic {s : Bytes} : (∀ i, ¬ proto2Magic <+: s.drop i) → Tokens s [] (s.drop (s.length - 1))
  | incomplete {s : Bytes} {i : Nat} : FirstMagic s i → Incomplete (s.drop i) →
      Tokens s [] (s.drop i)
  | frame {s : Bytes} {i : Nat} {n : UInt8} {frames : List Bytes} {rest : Bytes} :
      FirstMagic s i → (s.drop i)[2]? = some n → n.toNat + 13 ≤ (s.drop i).length →
      Tokens ((s.drop i).drop (n.toNat + 13)) frames rest →
      Tokens s ((s.drop i).take (n.toNat + 13) :: frames) rest

/-- What the buffer may hold between two notifications. -/
def BufferOk (buffer : Bytes) : Prop :=
  (buffer.length ≤ 1 ∨ proto2Magic <+: buffer ∧ Incomplete buffer) ∧ buffer.length ≤ 267

theorem FirstMagic.unique {s : Bytes} {i j : Nat} (hi : FirstMagic s i) (hj : FirstMagic s j) :
    i = j := by
  rcases Nat.lt_trichotomy i j with h | h | h
  · exact absurd hi.1 (hj.2 i h)
  · exact h
  · exact absurd hj.1 (hi.2 j h)

/-- A stream has one leftmost tokenization. -/
theorem Tokens.unique {s : Bytes} {fs gs : List Bytes} {r q : Bytes} (h : Tokens s fs r)
    (h' : Tokens s gs q) : fs = gs ∧ r = q := by
  induction h generalizing gs with
  | noMagic hno =>
    cases h' with
    | noMagic _ => exact ⟨rfl, rfl⟩
    | incomplete hi _ => exact absurd hi.1 (hno _)
    | frame hi _ _ _ => exact absurd hi.1 (hno _)
  | incomplete hi hshort =>
    cases h' with
    | noMagic hno => exact absurd hi.1 (hno _)
    | incomplete hj _ => rw [hi.unique hj]; exact ⟨rfl, rfl⟩
    | frame hj hn hlen _ =>
      rw [← hi.unique hj] at hn hlen
      have := hshort _ hn
      omega
  | @frame s i n frames rest hi hn hlen _ ih =>
    cases h' with
    | noMagic hno => exact absurd hi.1 (hno _)
    | incomplete hj hshort =>
      rw [hi.unique hj] at hn hlen
      have := hshort _ hn
      omega
    | @frame _ j m _ _ hj hm hlen' htail =>
      -- Both cut the same frame at the first preamble.
      obtain rfl := hi.unique hj
      obtain rfl : n = m := by
        rw [hn] at hm
        exact Option.some.inj hm
      obtain ⟨rfl, rfl⟩ := ih htail
      exact ⟨rfl, rfl⟩

/-- A frame has at most 268 bytes, so an incomplete one has at most 267. -/
theorem Incomplete.length_le {s : Bytes} (h : Incomplete s) : s.length ≤ 267 := by
  cases hs : s[2]? with
  | none =>
    have := List.getElem?_eq_none_iff.mp hs
    omega
  | some n =>
    have := h n hs
    have := n.toNat_lt
    omega

theorem Tokens.bufferOk {s : Bytes} {frames : List Bytes} {rest : Bytes}
    (h : Tokens s frames rest) : BufferOk rest := by
  induction h with
  | @noMagic s _ =>
    have hlen : (s.drop (s.length - 1)).length ≤ 1 := by
      rw [List.length_drop]
      omega
    exact ⟨Or.inl hlen, by omega⟩
  | incomplete hi hshort => exact ⟨Or.inr ⟨hi.1, hshort⟩, hshort.length_le⟩
  | frame _ _ _ _ ih => exact ih

/-! ## The buffer as a tokenizer -/

theorem expectedFrameLength_eq_some {s : Bytes} {total : Nat} :
    expectedFrameLength s = some total ↔ ∃ n, s[2]? = some n ∧ total = n.toNat + 13 := by
  unfold expectedFrameLength lengthFieldOffset headerLength encryptionOverhead
  by_cases h : s.length < 3
  · rw [if_pos h, List.getElem?_eq_none (by omega)]
    simp
  · rw [if_neg h, List.getD_eq_getElem?_getD, List.getElem?_eq_getElem (by omega)]
    simp only [Option.some.injEq, Option.getD_some, exists_eq_left']
    omega

/-- Cut a frame off a stream that starts with a preamble. -/
def cutFrame (s : Bytes) : Option (Bytes × Bytes) :=
  match expectedFrameLength s with
  | none => none
  | some total => if s.length < total then none else some (s.take total, s.drop total)

/-- The first frame of a stream and what follows it. -/
def nextFrame (s : Bytes) : Option (Bytes × Bytes) :=
  (Reassembly.find proto2Magic s).bind fun i => cutFrame (s.drop i)

/-- What the buffer keeps of a stream that holds no complete frame. -/
def keepTail (s : Bytes) : Bytes :=
  match Reassembly.find proto2Magic s with
  | none => s.drop (s.length - 1)
  | some i => s.drop i

theorem cutFrame_eq_some {s f r : Bytes} (h : cutFrame s = some (f, r)) :
    ∃ n, s[2]? = some n ∧ n.toNat + 13 ≤ s.length ∧ f = s.take (n.toNat + 13) ∧
      r = s.drop (n.toNat + 13) := by
  unfold cutFrame at h
  cases hs : expectedFrameLength s with
  | none => rw [hs] at h; cases h
  | some total =>
    obtain ⟨n, hn, rfl⟩ := expectedFrameLength_eq_some.mp hs
    simp only [hs, Option.ite_none_left_eq_some, Option.some.injEq, Prod.mk.injEq] at h
    obtain ⟨hlen, rfl, rfl⟩ := h
    exact ⟨n, hn, by omega, rfl, rfl⟩

theorem cutFrame_of_complete {s : Bytes} {n : UInt8} (hn : s[2]? = some n)
    (hlen : n.toNat + 13 ≤ s.length) :
    cutFrame s = some (s.take (n.toNat + 13), s.drop (n.toNat + 13)) := by
  rw [cutFrame, expectedFrameLength_eq_some.mpr ⟨n, hn, rfl⟩]
  exact if_neg (by omega)

theorem cutFrame_eq_none {s : Bytes} (h : cutFrame s = none) : Incomplete s := by
  intro n hn
  by_contra hlen
  rw [cutFrame_of_complete hn (by omega)] at h
  cases h

theorem cutFrame_append {s f r : Bytes} (h : cutFrame s = some (f, r)) (t : Bytes) :
    cutFrame (s ++ t) = some (f, r ++ t) := by
  obtain ⟨n, hn, hlen, rfl, rfl⟩ := cutFrame_eq_some h
  have hn' : (s ++ t)[2]? = some n := by
    rw [List.getElem?_append_left (by omega)]
    exact hn
  rw [cutFrame_of_complete hn' (by rw [List.length_append]; omega),
    List.take_append_of_le_length hlen, List.drop_append_of_le_length hlen]

theorem nextFrame_of_find {s : Bytes} {i : Nat} (h : Reassembly.find proto2Magic s = some i) :
    nextFrame s = cutFrame (s.drop i) := by
  rw [nextFrame, h]
  rfl

theorem nextFrame_of_none {s : Bytes} (h : Reassembly.find proto2Magic s = none) :
    nextFrame s = none := by
  rw [nextFrame, h]
  rfl

/-- Where the kept tail lies in the stream. -/
theorem keepTail_find (s t : Bytes) :
    ∃ k ≤ s.length, (k = s.length → s = []) ∧ keepTail s = s.drop k ∧
      Reassembly.find proto2Magic (s ++ t) =
        (Reassembly.find proto2Magic (s.drop k ++ t)).map (· + k) := by
  unfold keepTail
  cases hs : Reassembly.find proto2Magic s with
  | none =>
    refine ⟨s.length - 1, by omega, ?_, rfl, Reassembly.find_append_of_none hs t⟩
    intro hk
    exact List.eq_nil_of_length_eq_zero (by omega)
  | some i =>
    have hlen : i + 2 ≤ s.length := Reassembly.find_length hs
    refine ⟨i, by omega, by omega, rfl, ?_⟩
    rw [Reassembly.find_append hs, Reassembly.find_append (Reassembly.find_drop hs)]
    simp

theorem drop_append_add {s : Bytes} {k : Nat} (hk : k ≤ s.length) (t : Bytes) (j : Nat) :
    (s ++ t).drop (j + k) = (s.drop k ++ t).drop j := by
  rw [Nat.add_comm, ← List.drop_drop, List.drop_append_of_le_length hk]

theorem nextFrame_keepTail (s t : Bytes) : nextFrame (keepTail s ++ t) = nextFrame (s ++ t) := by
  obtain ⟨k, hk, _, hkeep, hfind⟩ := keepTail_find s t
  rw [hkeep]
  cases hj : Reassembly.find proto2Magic (s.drop k ++ t) with
  | none =>
    rw [hj] at hfind
    rw [nextFrame_of_none hj, nextFrame_of_none hfind]
  | some j =>
    rw [hj] at hfind
    rw [nextFrame_of_find hj, nextFrame_of_find hfind, drop_append_add hk]

theorem keepTail_keepTail (s t : Bytes) : keepTail (keepTail s ++ t) = keepTail (s ++ t) := by
  obtain ⟨k, hk, hnil, hkeep, hfind⟩ := keepTail_find s t
  rw [hkeep]
  unfold keepTail
  cases hj : Reassembly.find proto2Magic (s.drop k ++ t) with
  | some j =>
    rw [hj] at hfind
    rw [hfind]
    exact (drop_append_add hk t j).symm
  | none =>
    rw [hj] at hfind
    rw [hfind]
    -- One byte is kept on both sides, unless there is none at all.
    show (s.drop k ++ t).drop _ = (s ++ t).drop _
    rcases Nat.eq_zero_or_pos (s.drop k ++ t).length with hzero | hpos
    · have hs : s = [] := by
        apply hnil
        rw [List.length_append, List.length_drop] at hzero
        omega
      subst hs
      rw [List.drop_nil]
    · rw [← drop_append_add hk]
      congr 1
      simp only [List.length_append, List.length_drop] at hpos ⊢
      omega

theorem nextFrame_append {s f r : Bytes} (h : nextFrame s = some (f, r)) (t : Bytes) :
    nextFrame (s ++ t) = some (f, r ++ t) := by
  cases hs : Reassembly.find proto2Magic s with
  | none =>
    rw [nextFrame_of_none hs] at h
    cases h
  | some i =>
    have hlen := Reassembly.find_length hs
    rw [nextFrame_of_find hs] at h
    rw [nextFrame_of_find (Reassembly.find_append hs t),
      List.drop_append_of_le_length (by omega)]
    exact cutFrame_append h t

theorem nextFrame_shorter {s f r : Bytes} (h : nextFrame s = some (f, r)) :
    r.length < s.length := by
  cases hs : Reassembly.find proto2Magic s with
  | none =>
    rw [nextFrame_of_none hs] at h
    cases h
  | some i =>
    rw [nextFrame_of_find hs] at h
    obtain ⟨n, _, hlen, _, rfl⟩ := cutFrame_eq_some h
    simp only [List.length_drop] at hlen ⊢
    omega

/-- The buffer of `_on_notify`. -/
def proto2Tokenizer : Reassembly.Tokenizer UInt8 where
  next := nextFrame
  keep := keepTail
  next_append := nextFrame_append
  next_shorter := nextFrame_shorter
  next_keep := fun _ t => nextFrame_keepTail _ t
  keep_keep := fun _ t _ => keepTail_keepTail _ t
  keep_nil := rfl

theorem firstMagic_of_find {s : Bytes} {i : Nat} (h : Reassembly.find proto2Magic s = some i) :
    FirstMagic s i := (Reassembly.find_eq_some.mp h).2

/-- The tokenizer cuts the leftmost tokenization. -/
theorem tokens_tokenizer (s : Bytes) :
    Tokens s (proto2Tokenizer.tokens s).1 (proto2Tokenizer.tokens s).2 := by
  -- By induction on what is left: every frame that is cut off makes it shorter.
  induction hn : s.length using Nat.strongRecOn generalizing s with
  | _ n ih =>
    cases hs : Reassembly.find proto2Magic s with
    | none =>
      have hkeep : keepTail s = s.drop (s.length - 1) := by rw [keepTail, hs]
      rw [proto2Tokenizer.tokens_none (nextFrame_of_none hs)]
      show Tokens s [] (keepTail s)
      rw [hkeep]
      exact Tokens.noMagic (Reassembly.find_eq_none.mp hs)
    | some i =>
      have hnext := nextFrame_of_find hs
      cases hcut : cutFrame (s.drop i) with
      | none =>
        have hkeep : keepTail s = s.drop i := by rw [keepTail, hs]
        rw [hcut] at hnext
        rw [proto2Tokenizer.tokens_none hnext]
        show Tokens s [] (keepTail s)
        rw [hkeep]
        exact Tokens.incomplete (firstMagic_of_find hs) (cutFrame_eq_none hcut)
      | some p =>
        obtain ⟨f, r⟩ := p
        rw [hcut] at hnext
        have hshort := nextFrame_shorter hnext
        rw [proto2Tokenizer.tokens_some hnext]
        obtain ⟨m, hm, hlen, rfl, rfl⟩ := cutFrame_eq_some hcut
        exact Tokens.frame (firstMagic_of_find hs) hm hlen (ih _ (by omega) _ rfl)

/-! ## The loop of `_on_notify` -/

section Loop

variable {σ : Type} (dispatch : σ → Bytes → σ)

theorem onNotifyLoop_eq (fuel : Nat) (buffer : Bytes) (s : σ) :
    onNotifyLoop dispatch fuel buffer s =
      ((proto2Tokenizer.run fuel buffer).2,
        (proto2Tokenizer.run fuel buffer).1.foldl dispatch s) := by
  induction fuel generalizing buffer s with
  | zero => rfl
  | succ fuel ih =>
    rw [onNotifyLoop]
    cases hs : Reassembly.find proto2Magic buffer with
    | none =>
      rw [proto2Tokenizer.run_none (nextFrame_of_none hs)]
      simp [proto2Tokenizer, keepTail, hs]
    | some i =>
      have hnext : proto2Tokenizer.next buffer = cutFrame (buffer.drop i) := nextFrame_of_find hs
      have hkeep : proto2Tokenizer.keep buffer = buffer.drop i := by
        show keepTail buffer = _
        rw [keepTail, hs]
      cases hlen : expectedFrameLength (buffer.drop i) with
      | none =>
        rw [cutFrame, hlen] at hnext
        rw [proto2Tokenizer.run_none hnext, hkeep]
        simp [hlen]
      | some total =>
        rw [cutFrame, hlen] at hnext
        -- A frame that is not complete waits, as in the tokenizer.
        by_cases hshort : (buffer.drop i).length < total
        · simp only [hshort, if_true] at hnext
          rw [proto2Tokenizer.run_none hnext, hkeep]
          simp only [hlen, hshort, if_true, List.foldl_nil]
        · simp only [hshort, if_false] at hnext
          rw [proto2Tokenizer.run_some hnext]
          simp only [hlen, hshort, if_false, ih, List.foldl_cons]

/-- One notification: cut what was buffered together with what came, and
    dispatch the frames in order. -/
theorem onNotify_eq (buffer : Bytes) (s : σ) (data : Bytes) :
    onNotify dispatch buffer s data =
      ((proto2Tokenizer.tokens (buffer ++ data)).2,
        (proto2Tokenizer.tokens (buffer ++ data)).1.foldl dispatch s) := by
  rw [onNotify, onNotifyLoop_eq]
  rfl

/-- `_on_notify` on a buffer paired with the state of `_dispatch`. -/
def feed (st : Bytes × σ) (data : Bytes) : Bytes × σ := onNotify dispatch st.1 st.2 data

theorem foldl_feed_eq (chunks : List Bytes) (frames : List Bytes) (buffer : Bytes) (s : σ) :
    chunks.foldl (feed dispatch) (buffer, frames.foldl dispatch s) =
      ((chunks.foldl proto2Tokenizer.feed (frames, buffer)).2,
        (chunks.foldl proto2Tokenizer.feed (frames, buffer)).1.foldl dispatch s) := by
  induction chunks generalizing frames buffer with
  | nil => rfl
  | cons c cs ih =>
    rw [List.foldl_cons, List.foldl_cons, feed, onNotify_eq, ← List.foldl_append, ih]
    rfl

/-- From an empty buffer, the notifications amount to the stream they make up. -/
theorem foldl_feed_flatten (chunks : List Bytes) (s : σ) :
    chunks.foldl (feed dispatch) ([], s) =
      ((proto2Tokenizer.tokens chunks.flatten).2,
        (proto2Tokenizer.tokens chunks.flatten).1.foldl dispatch s) := by
  have h := foldl_feed_eq dispatch chunks [] [] s
  rw [proto2Tokenizer.foldl_feed chunks [] [] (proto2Tokenizer.tokens_nil rfl)] at h
  simpa using h

end Loop

/-- However the scooter's bytes are divided into notifications, `_dispatch`
    sees the frames of the leftmost tokenization, in order, and the buffer
    keeps what is left of it: as if the bytes had come at once.  After every
    notification the buffer holds at most one byte, or the beginning of one
    incomplete frame. -/
theorem onNotify_chunks (chunks : List Bytes) :
    ∃ frames rest, Tokens chunks.flatten frames rest ∧
      (∀ frames' rest', Tokens chunks.flatten frames' rest' → frames' = frames ∧ rest' = rest) ∧
      ∀ {σ : Type} (dispatch : σ → Bytes → σ) (s : σ),
        chunks.foldl (feed dispatch) ([], s) = (rest, frames.foldl dispatch s) ∧
        onNotify dispatch [] s chunks.flatten = (rest, frames.foldl dispatch s) ∧
        ∀ k, BufferOk ((chunks.take k).foldl (feed dispatch) ([], s)).1 := by
  have htok := tokens_tokenizer chunks.flatten
  refine ⟨_, _, htok, fun _ _ h => h.unique htok, ?_⟩
  intro σ dispatch s
  refine ⟨foldl_feed_flatten dispatch chunks s, onNotify_eq dispatch [] s _, ?_⟩
  intro k
  rw [foldl_feed_flatten]
  exact (tokens_tokenizer _).bufferOk

end Ninebot
