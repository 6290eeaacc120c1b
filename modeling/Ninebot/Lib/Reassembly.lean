import Mathlib.Data.List.Basic
import Mathlib.Data.List.Infix
import Mathlib.Data.List.Induction

/-! # Searching, slicing and cutting byte streams

    This file defines:
    - `find`: the first occurrence of a pattern (`bytes.find`)
    - `slices`: the slices that a `range(0, len, n)` loop cuts
    - `Tokenizer`: a stream cut into frames while it arrives, and the theorem
      that the frames do not depend on how the stream was divided
-/

namespace Reassembly

variable {α : Type}

/-! ## First occurrence of a pattern -/

/-- The offset of the first occurrence of `pat`. -/
def find [BEq α] (pat : List α) : List α → Option Nat
  | [] => if pat.isPrefixOf [] then some 0 else none
  | x :: xs => if pat.isPrefixOf (x :: xs) then some 0 else (find pat xs).map (· + 1)

theorem prefix_append_of_le {pat s : List α} (t : List α) (h : pat.length ≤ s.length) :
    pat <+: s ++ t ↔ pat <+: s :=
  ⟨fun hp => List.prefix_of_prefix_length_le hp (List.prefix_append s t) h,
    fun hp => hp.trans (List.prefix_append s t)⟩

section Find

variable [BEq α] [LawfulBEq α] {pat s : List α} {i : Nat}

theorem find_cons_pos {x : α} {xs : List α} (h : pat <+: x :: xs) :
    find pat (x :: xs) = some 0 := by
  rw [find, if_pos (List.isPrefixOf_iff_prefix.mpr h)]

theorem find_cons_neg {x : α} {xs : List α} (h : ¬ pat <+: x :: xs) :
    find pat (x :: xs) = (find pat xs).map (· + 1) := by
  rw [find, if_neg (fun hp => h (List.isPrefixOf_iff_prefix.mp hp))]

/-- The pattern is where it was found, and nowhere before. -/
theorem find_eq_some :
    find pat s = some i ↔ i ≤ s.length ∧ pat <+: s.drop i ∧ ∀ j < i, ¬ pat <+: s.drop j := by
  induction s generalizing i with
  | nil =>
    cases pat with
    | nil => cases i <;> simp [find]
    | cons x xs => simp [find]
  | cons x xs ih =>
    -- Either the pattern is found here, or it is looked for in the rest.
    by_cases hp : pat <+: x :: xs
    · rw [find_cons_pos hp]
      constructor
      · rintro ⟨⟩
        exact ⟨Nat.zero_le _, hp, by simp⟩
      · rintro ⟨_, _, hleast⟩
        cases i with
        | zero => rfl
        | succ i => exact absurd hp (hleast 0 (Nat.succ_pos i))
    · rw [find_cons_neg hp, Option.map_eq_some_iff]
      constructor
      · rintro ⟨j, hj, rfl⟩
        obtain ⟨hlen, hpre, hleast⟩ := ih.mp hj
        refine ⟨Nat.succ_le_succ hlen, hpre, ?_⟩
        intro k hk
        cases k with
        | zero => exact hp
        | succ k => exact hleast k (by omega)
      · rintro ⟨hlen, hpre, hleast⟩
        cases i with
        | zero => exact absurd hpre hp
        | succ i =>
          refine ⟨i, ih.mpr ⟨Nat.le_of_succ_le_succ hlen, hpre, ?_⟩, rfl⟩
          intro k hk
          exact hleast (k + 1) (by omega)

theorem find_eq_none : find pat s = none ↔ ∀ j, ¬ pat <+: s.drop j := by
  induction s with
  | nil => cases pat <;> simp [find]
  | cons x xs ih =>
    by_cases hp : pat <+: x :: xs
    · rw [find_cons_pos hp]
      constructor
      · intro h
        cases h
      · intro h
        exact absurd hp (h 0)
    · rw [find_cons_neg hp, Option.map_eq_none_iff, ih]
      constructor
      · intro h j
        cases j with
        | zero => exact hp
        | succ j => exact h j
      · intro h j
        exact h (j + 1)

theorem find_length (h : find pat s = some i) : i + pat.length ≤ s.length := by
  obtain ⟨hlen, hpre, _⟩ := find_eq_some.mp h
  have := hpre.length_le
  rw [List.length_drop] at this
  omega

/-- An occurrence stays the first one when the stream goes on. -/
theorem find_append (h : find pat s = some i) (t : List α) : find pat (s ++ t) = some i := by
  have hlen := find_length h
  obtain ⟨hi, hpre, hleast⟩ := find_eq_some.mp h
  refine find_eq_some.mpr ⟨by rw [List.length_append]; omega, ?_, ?_⟩
  · rw [List.drop_append_of_le_length hi]
    exact hpre.trans (List.prefix_append _ _)
  · intro j hj
    rw [List.drop_append_of_le_length (by omega), prefix_append_of_le]
    · exact hleast j hj
    · rw [List.length_drop]
      omega

theorem find_drop (h : find pat s = some i) : find pat (s.drop i) = some 0 := by
  obtain ⟨_, hpre, _⟩ := find_eq_some.mp h
  exact find_eq_some.mpr ⟨Nat.zero_le _, hpre, by simp⟩

/-- Where the pattern has not occurred yet, an occurrence begins in the last
    `pat.length - 1` elements at the earliest. -/
theorem find_append_of_none (h : find pat s = none) (t : List α) :
    find pat (s ++ t) =
      (find pat (s.drop (s.length - (pat.length - 1)) ++ t)).map
        (· + (s.length - (pat.length - 1))) := by
  induction s with
  | nil => simp
  | cons x xs ih =>
    -- A pattern that straddles the end begins among the last places of `s`.
    rcases Nat.lt_or_ge xs.length (pat.length - 1) with hshort | hlong
    · have hk : (x :: xs).length - (pat.length - 1) = 0 := by
        rw [List.length_cons]
        omega
      rw [hk]
      simp
    · have hp : ¬ pat <+: x :: xs := by
        have := find_eq_none.mp h 0
        rwa [List.drop_zero] at this
      have htail : find pat xs = none := by
        rw [find_cons_neg hp] at h
        simpa using h
      have hpt : ¬ pat <+: x :: (xs ++ t) := by
        intro hpre
        exact hp ((prefix_append_of_le t (by rw [List.length_cons]; omega)).mp hpre)
      have hk : (x :: xs).length - (pat.length - 1) = xs.length - (pat.length - 1) + 1 := by
        rw [List.length_cons]
        omega
      rw [List.cons_append, find_cons_neg hpt, ih htail, hk, List.drop_succ_cons,
        Option.map_map]
      rfl

end Find

/-! ## Slices -/

/-- The slices `s[i : i + n]` for `i` in `range(0, len(s), n)`. -/
def slices (n : Nat) (s : List α) : List (List α) :=
  (List.range ((s.length + n - 1) / n)).map fun i => (s.drop (i * n)).take n

/-- The slices make up the whole. -/
theorem slices_flatten {n : Nat} (hn : 0 < n) (s : List α) : (slices n s).flatten = s := by
  have hmain : ∀ k, ((List.range k).map fun i => (s.drop (i * n)).take n).flatten
      = s.take (k * n) := by
    intro k
    induction k with
    | zero => simp
    | succ k ih =>
      rw [List.range_succ, List.map_append, List.flatten_append, ih, Nat.succ_mul, List.take_add]
      simp
  rw [slices, hmain, List.take_of_length_le]
  have := Nat.div_add_mod (s.length + n - 1) n
  have := Nat.mod_lt (s.length + n - 1) hn
  rw [Nat.mul_comm]
  omega

/-! ## Cutting a stream into frames -/

/-- A way to cut frames off a stream that is still arriving.  `next` takes the
    first complete frame off; while there is none, `keep` is what is worth
    keeping.  The laws say that a frame, once complete, is not changed by what
    follows, and that nothing `keep` drops can matter later. -/
structure Tokenizer (α : Type) where
  next : List α → Option (List α × List α)
  keep : List α → List α
  next_append : ∀ {s f r}, next s = some (f, r) → ∀ t, next (s ++ t) = some (f, r ++ t)
  next_shorter : ∀ {s f r}, next s = some (f, r) → r.length < s.length
  next_keep : ∀ {s}, next s = none → ∀ t, (next (keep s ++ t)) = next (s ++ t)
  keep_keep : ∀ {s}, next s = none → ∀ t, next (s ++ t) = none →
    keep (keep s ++ t) = keep (s ++ t)
  keep_nil : keep [] = []

namespace Tokenizer

variable (T : Tokenizer α)

def run : Nat → List α → List (List α) × List α
  | 0, s => ([], s)
  | n + 1, s =>
      match T.next s with
      | none => ([], T.keep s)
      | some (f, r) => (f :: (run n r).1, (run n r).2)

theorem run_none {s : List α} (h : T.next s = none) (n : Nat) :
    T.run (n + 1) s = ([], T.keep s) := by
  rw [run, h]

theorem run_some {s f r : List α} (h : T.next s = some (f, r)) (n : Nat) :
    T.run (n + 1) s = (f :: (T.run n r).1, (T.run n r).2) := by
  rw [run, h]

/-- The frames of a stream, and what is kept of it after the last one. -/
def tokens (s : List α) : List (List α) × List α := T.run (s.length + 1) s

theorem run_eq_tokens {n : Nat} {s : List α} (h : s.length < n) : T.run n s = T.tokens s := by
  suffices hmain : ∀ (n m : Nat) (s : List α), s.length < n → s.length < m →
      T.run n s = T.run m s from hmain n (s.length + 1) s h (Nat.lt_succ_self _)
  intro n
  induction n with
  | zero => intro m s hn; omega
  | succ n ih =>
    intro m s hn hm
    obtain ⟨m, rfl⟩ := Nat.exists_eq_succ_of_ne_zero (Nat.ne_zero_of_lt hm)
    rw [run, run]
    cases hs : T.next s with
    | none => rfl
    | some p =>
      obtain ⟨f, r⟩ := p
      have hr := T.next_shorter hs
      simp only [ih m r (by omega) (by omega)]

theorem tokens_none {s : List α} (h : T.next s = none) : T.tokens s = ([], T.keep s) :=
  T.run_none h _

theorem tokens_some {s f r : List α} (h : T.next s = some (f, r)) :
    T.tokens s = (f :: (T.tokens r).1, (T.tokens r).2) := by
  have hr := T.next_shorter h
  rw [tokens, T.run_some h, T.run_eq_tokens (by omega)]

/-- Cutting a stream is cutting its beginning, then what was kept of it
    together with the rest. -/
theorem tokens_append (s t : List α) :
    T.tokens (s ++ t) =
      ((T.tokens s).1 ++ (T.tokens ((T.tokens s).2 ++ t)).1,
        (T.tokens ((T.tokens s).2 ++ t)).2) := by
  induction hn : s.length using Nat.strongRecOn generalizing s with
  | _ n ih =>
    cases hs : T.next s with
    | none =>
      rw [T.tokens_none hs]
      have hkeep := T.next_keep hs t
      cases hst : T.next (s ++ t) with
      | none =>
        rw [hst] at hkeep
        rw [T.tokens_none hst, T.tokens_none hkeep, T.keep_keep hs t hst]
        rfl
      | some p =>
        rw [hst] at hkeep
        rw [T.tokens_some hst, T.tokens_some hkeep]
        rfl
    | some p =>
      obtain ⟨f, r⟩ := p
      have hr := T.next_shorter hs
      rw [T.tokens_some hs, T.tokens_some (T.next_append hs t), ih r.length (by omega) r rfl]
      rfl

/-- Frames that are cut off whatever follows them are cut off one by one. -/
theorem tokens_flatten {frames : List (List α)}
    (h : ∀ f ∈ frames, ∀ t, T.next (f ++ t) = some (f, t)) (t : List α) :
    T.tokens (frames.flatten ++ t) = (frames ++ (T.tokens t).1, (T.tokens t).2) := by
  induction frames with
  | nil => rfl
  | cons f frames ih =>
    have hnext := h f List.mem_cons_self (frames.flatten ++ t)
    rw [List.flatten_cons, List.append_assoc, T.tokens_some hnext,
      ih fun g hg => h g (List.mem_cons_of_mem _ hg)]
    rfl

/-- What is kept holds no frame, and all of it is kept again. -/
theorem tokens_kept (s : List α) : T.tokens (T.tokens s).2 = ([], (T.tokens s).2) := by
  have h := T.tokens_append s []
  rw [List.append_nil, List.append_nil] at h
  have h1 := congrArg Prod.fst h
  have h2 := congrArg Prod.snd h
  rw [List.self_eq_append_right] at h1
  exact Prod.ext h1 h2.symm

theorem tokens_nil (h : T.next [] = none) : T.tokens [] = ([], []) := by
  rw [T.tokens_none h, T.keep_nil]

/-- One arrival: cut what was kept together with what came. -/
def feed (st : List (List α) × List α) (chunk : List α) : List (List α) × List α :=
  (st.1 ++ (T.tokens (st.2 ++ chunk)).1, (T.tokens (st.2 ++ chunk)).2)

/-- However a stream is divided, its frames and what is kept are the same. -/
theorem foldl_feed (chunks : List (List α)) (frames : List (List α)) (b : List α)
    (hb : T.tokens b = ([], b)) :
    chunks.foldl T.feed (frames, b) =
      (frames ++ (T.tokens (b ++ chunks.flatten)).1, (T.tokens (b ++ chunks.flatten)).2) := by
  induction chunks generalizing frames b with
  | nil => simp [hb]
  | cons c cs ih =>
    rw [List.foldl_cons, feed, ih _ _ (T.tokens_kept _), List.flatten_cons, ← List.append_assoc,
      T.tokens_append (b ++ c)]
    simp

end Tokenizer

end Reassembly
