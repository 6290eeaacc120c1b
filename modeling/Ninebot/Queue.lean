import Ninebot.Requests

/-! # The response queue

    Where an answer comes from.  Positions number the entries of the trace
    from its beginning.  Every queued packet remembers the position at which
    it was received; packets are taken in the order of these positions, each
    at most once, and an answer is a packet that was just taken.

    `Orderly start` says so of everything since position `start`, where the
    queue was empty. -/

namespace Ninebot

open Coro

variable {κ : Type}

/-! ## Positions -/

/-- What this receives. -/
def Obs.heard : Obs → Option Packet
  | .received _ _ p => some p
  | _ => none

/-- The entry at a position of the trace. -/
def World.at (w : World κ) (i : Nat) : Option Obs := w.trace.reverse[i]?

theorem World.at_lt {w : World κ} {i : Nat} {o : Obs} (h : w.at i = some o) :
    i < w.trace.length := by
  obtain ⟨hi, _⟩ := List.getElem?_eq_some_iff.mp h
  rwa [List.length_reverse] at hi

/-- Entries stay where they are. -/
theorem World.at_later {w w' : World κ} (hw : w.trace <:+ w'.trace) {i : Nat} {o : Obs}
    (h : w.at i = some o) : w'.at i = some o := by
  have hi := World.at_lt h
  obtain ⟨new, hnew⟩ := hw
  rw [World.at, ← hnew, List.reverse_append, List.getElem?_append_left]
  · exact h
  · rwa [List.length_reverse]

theorem World.at_of_append {w : World κ} {later rest : List Obs} {o : Obs}
    (h : w.trace = later ++ o :: rest) : w.at rest.length = some o := by
  rw [World.at, h, List.reverse_append, List.reverse_cons, List.append_assoc,
    List.getElem?_append_right]
  · simp
  · rw [List.length_reverse]

/-- The trace around a position: what came later, and what came before. -/
theorem World.append_of_at {w : World κ} {i : Nat} {o : Obs} (h : w.at i = some o) :
    ∃ later rest, w.trace = later ++ o :: rest ∧ rest.length = i := by
  obtain ⟨hi, heq⟩ := List.getElem?_eq_some_iff.mp h
  refine ⟨(w.trace.reverse.drop (i + 1)).reverse, (w.trace.reverse.take i).reverse, ?_, ?_⟩
  · have hsplit : w.trace.reverse =
        w.trace.reverse.take i ++ o :: w.trace.reverse.drop (i + 1) := by
      rw [← heq, ← List.drop_eq_getElem_cons hi, List.take_append_drop]
    have hreverse := congrArg List.reverse hsplit
    simpa using hreverse
  · rw [List.length_reverse, List.length_take]
    omega

theorem World.at_log_self (w : World κ) (o : Obs) : (w.log o).at w.trace.length = some o :=
  World.at_of_append (show (w.log o).trace = [] ++ o :: w.trace from rfl)

theorem World.at_log {w : World κ} {o x : Obs} {i : Nat} (h : (w.log o).at i = some x) :
    w.at i = some x ∨ (i = w.trace.length ∧ x = o) := by
  rw [World.at, World.log, List.reverse_cons] at h
  by_cases hi : i < w.trace.reverse.length
  · rw [List.getElem?_append_left hi] at h
    exact Or.inl h
  · rw [List.getElem?_append_right (by omega)] at h
    obtain ⟨hlt, heq⟩ := List.getElem?_eq_some_iff.mp h
    simp only [List.length_reverse, List.length_singleton] at hi hlt heq
    have hzero : i - w.trace.length = 0 := by omega
    simp only [hzero, List.getElem_singleton] at heq
    exact Or.inr ⟨by omega, heq.symm⟩

/-- What lies beyond the length of an earlier trace is new. -/
theorem World.mem_newTrace_of_at {w w' : World κ} (hw : w.trace <:+ w'.trace) {i : Nat} {o : Obs}
    (hi : w.trace.length ≤ i) (h : w'.at i = some o) : o ∈ w.newTrace w' := by
  rw [World.at, World.trace_eq_newTrace hw, List.reverse_append,
    List.getElem?_append_right (by rwa [List.length_reverse])] at h
  exact List.mem_reverse.mp (List.mem_of_getElem? h)

theorem World.at_of_mem_newTrace {w w' : World κ} (hw : w.trace <:+ w'.trace) {o : Obs}
    (h : o ∈ w.newTrace w') : ∃ i, w.trace.length ≤ i ∧ w'.at i = some o := by
  obtain ⟨i, hi⟩ := List.getElem?_of_mem (List.mem_reverse.mpr h)
  refine ⟨w.trace.length + i, Nat.le_add_right _ _, ?_⟩
  rw [World.at, World.trace_eq_newTrace hw, List.reverse_append, List.getElem?_append_right]
  · simpa using hi
  · rw [List.length_reverse]
    exact Nat.le_add_right _ _

/-! ## The invariant -/

structure Orderly (start : Nat) (w : World κ) : Prop where
  begun : start ≤ w.trace.length
  queued : ∀ a ∈ w.self.responses,
    start ≤ a.receivedAt ∧ (∃ s m, w.at a.receivedAt = some (.received s m a.packet)) ∧
      ∀ j, a.receivedAt ≤ j → w.at j ≠ some .cleared
  sorted : w.self.responses.Pairwise fun a b => a.receivedAt < b.receivedAt
  taken : ∀ t s l p i, start ≤ t → w.at t = some (.taken s l p i) →
    start ≤ i ∧ i < t ∧ (∃ r m, w.at i = some (.received r m p)) ∧
      (∀ j, i ≤ j → j < t → w.at j ≠ some .cleared) ∧ ∀ a ∈ w.self.responses, i < a.receivedAt
  fifo : ∀ t t' s s' l l' p p' i i', start ≤ t → t < t' → w.at t = some (.taken s l p i) →
    w.at t' = some (.taken s' l' p' i') → i < i'
  answered : ∀ t l q r i, start ≤ t → w.at t = some (.answered l q r i) →
    r.matchesRequest q = true ∧
      ∃ t' s l', start ≤ t' ∧ t' + 1 = t ∧ w.at t' = some (.taken s l' r i)

namespace Orderly

variable {start : Nat} {w w' : World κ}

/-- An empty queue is in order. -/
theorem of_empty {w : World κ} (h : w.self.responses = []) : Orderly w.trace.length w where
  begun := Nat.le_refl _
  queued a ha := by
    rw [h] at ha
    cases ha
  sorted := by
    rw [h]
    exact List.Pairwise.nil
  taken t _ _ _ _ ht hat := absurd (World.at_lt hat) (by omega)
  fifo t _ _ _ _ _ _ _ _ _ ht _ hat := absurd (World.at_lt hat) (by omega)
  answered t _ _ _ _ ht hat := absurd (World.at_lt hat) (by omega)

/-- The invariant is about the trace and the queue, and the queue may lose packets. -/
theorem shrink (h : Orderly start w) (htrace : w'.trace = w.trace)
    (hqueue : w'.self.responses.Sublist w.self.responses) : Orderly start w' := by
  have hat : w'.at = w.at := by
    funext i
    rw [World.at, World.at, htrace]
  obtain ⟨hbegun, hqueued, hsorted, htaken, hfifo, hanswered⟩ := h
  constructor
  · rwa [htrace]
  · rw [hat]
    exact fun a ha => hqueued a (hqueue.subset ha)
  · exact hsorted.sublist hqueue
  · rw [hat]
    intro t s l p i ht h
    obtain ⟨hstart, hlt, hreceived, hkept, hrest⟩ := htaken t s l p i ht h
    exact ⟨hstart, hlt, hreceived, hkept, fun a ha => hrest a (hqueue.subset ha)⟩
  · rwa [hat]
  · rwa [hat]

theorem congr (h : Orderly start w) (htrace : w'.trace = w.trace)
    (hqueue : w'.self.responses = w.self.responses) : Orderly start w' :=
  h.shrink htrace (hqueue ▸ List.Sublist.refl _)

/-- A queue that is emptied is in order. -/
theorem empty (h : Orderly start w) (htrace : w'.trace = w.trace)
    (hqueue : w'.self.responses = []) : Orderly start w' :=
  h.shrink htrace (hqueue ▸ List.nil_sublist _)

/-- One more entry, and the queue has lost packets at most.  A packet that is
    taken was queued before all that stay, an answer was just taken, and
    nothing stays in a queue that is cleared. -/
theorem append (h : Orderly start w) {o : Obs} (htrace : w'.trace = o :: w.trace)
    (hqueue : w'.self.responses.Sublist w.self.responses)
    (htakes : ∀ s l p i, o = .taken s l p i → ∃ a ∈ w.self.responses, a.packet = p ∧
      a.receivedAt = i ∧ ∀ b ∈ w'.self.responses, i < b.receivedAt)
    (hanswers : ∀ l q r i, o = .answered l q r i → r.matchesRequest q = true ∧
      ∃ t s l', start ≤ t ∧ t + 1 = w.trace.length ∧ w.at t = some (.taken s l' r i))
    (hclears : o = .cleared → w'.self.responses = []) :
    Orderly start w' := by
  have hlater : w.trace <:+ w'.trace := by
    rw [htrace]
    exact List.suffix_cons _ _
  -- An entry is one of the old ones or `o`, which is the last.
  have hsplit : ∀ {i x}, w'.at i = some x → w.at i = some x ∨ (i = w.trace.length ∧ x = o) := by
    intro i x hat
    rw [World.at, htrace] at hat
    exact World.at_log hat
  constructor
  · exact Nat.le_trans h.begun hlater.length_le
  · intro a ha
    obtain ⟨hstart, ⟨s, m, hrec⟩, hkept⟩ := h.queued a (hqueue.subset ha)
    refine ⟨hstart, ⟨s, m, World.at_later hlater hrec⟩, ?_⟩
    intro j hj hcleared
    rcases hsplit hcleared with hold | ⟨_, heq⟩
    · exact hkept j hj hold
    · rw [hclears heq.symm] at ha
      cases ha
  · exact h.sorted.sublist hqueue
  · intro t s l p i ht hat
    -- Nothing was cleared before the last entry that was not cleared before.
    have hold : ∀ {j}, j < w.trace.length → w.at j ≠ some .cleared → w'.at j ≠ some .cleared := by
      intro j hj hnot hcleared
      rcases hsplit hcleared with hold | ⟨rfl, _⟩
      · exact hnot hold
      · exact Nat.lt_irrefl _ hj
    rcases hsplit hat with hold' | ⟨rfl, rfl⟩
    · obtain ⟨hstart, hlt, ⟨r, m, hrec⟩, hkept, hrest⟩ := h.taken t s l p i ht hold'
      have hlast := World.at_lt hold'
      exact ⟨hstart, hlt, ⟨r, m, World.at_later hlater hrec⟩,
        fun j hij hjt => hold (by omega) (hkept j hij hjt),
        fun b hb => hrest b (hqueue.subset hb)⟩
    · obtain ⟨a, ha, rfl, rfl, hrest⟩ := htakes _ _ _ _ rfl
      obtain ⟨hstart, ⟨r, m, hrec⟩, hkept⟩ := h.queued a ha
      exact ⟨hstart, World.at_lt hrec, ⟨r, m, World.at_later hlater hrec⟩,
        fun j hij hjt => hold hjt (hkept j hij), hrest⟩
  · -- What was taken at `t` left a queue of later packets.
    intro t t' s s' l l' p p' i i' ht htt hat hat'
    have hold : w.at t = some (.taken s l p i) := by
      rcases hsplit hat with hold | ⟨rfl, _⟩
      · exact hold
      · have hlt := World.at_lt hat'
        rw [htrace, List.length_cons] at hlt
        omega
    rcases hsplit hat' with hold' | ⟨rfl, rfl⟩
    · exact h.fifo t t' s s' l l' p p' i i' ht htt hold hold'
    · obtain ⟨a, ha, rfl, rfl, _⟩ := htakes _ _ _ _ rfl
      exact (h.taken t s l p i ht hold).2.2.2.2 a ha
  · intro t l q r i ht hat
    rcases hsplit hat with hold | ⟨rfl, rfl⟩
    · obtain ⟨hm, t', s, l', hstart, hnext, htaken⟩ := h.answered t l q r i ht hold
      exact ⟨hm, t', s, l', hstart, hnext, World.at_later hlater htaken⟩
    · obtain ⟨hm, t', s, l', hstart, hnext, htaken⟩ := hanswers _ _ _ _ rfl
      exact ⟨hm, t', s, l', hstart, hnext, World.at_later hlater htaken⟩

/-- Noting anything but a packet that is taken, an answer or a clearing. -/
theorem log (h : Orderly start w) {o : Obs} (htaken : ∀ s l p i, o ≠ .taken s l p i)
    (hanswered : ∀ l q r i, o ≠ .answered l q r i) (hcleared : o ≠ .cleared) :
    Orderly start (w.log o) :=
  h.append rfl (List.Sublist.refl _) (fun s l p i ho => absurd ho (htaken s l p i))
    (fun l q r i ho => absurd ho (hanswered l q r i)) fun ho => absurd ho hcleared

/-- The queue is cleared. -/
theorem clear (h : Orderly start w) (htrace : w'.trace = .cleared :: w.trace)
    (hqueue : w'.self.responses = []) : Orderly start w' :=
  h.append htrace (hqueue ▸ List.nil_sublist _) (by simp) (by simp) fun _ => hqueue

/-- A received packet goes to the end of the queue, if there is room. -/
theorem receive (h : Orderly start w) (l : Nat) (p : Packet) :
    Orderly start ((w.log (.received w.now l p)).putNowait ⟨p, w.trace.length⟩) := by
  have hlog : Orderly start (w.log (.received w.now l p)) := h.log (by simp) (by simp) (by simp)
  unfold World.putNowait
  split
  · -- Every position so far is smaller than the new one.
    have hold : ∀ a ∈ w.self.responses, a.receivedAt < w.trace.length :=
      fun a ha => World.at_lt (h.queued a ha).2.1.choose_spec.choose_spec
    constructor
    · exact hlog.begun
    · intro a ha
      rcases List.mem_append.mp ha with ha | ha
      · exact hlog.queued a ha
      · obtain rfl := List.mem_singleton.mp ha
        refine ⟨h.begun, ⟨_, _, World.at_log_self w _⟩, ?_⟩
        intro j hj hcleared
        rcases World.at_log hcleared with hold' | ⟨_, heq⟩
        · exact absurd (World.at_lt hold') (Nat.not_lt_of_le hj)
        · cases heq
    · refine List.pairwise_append.mpr ⟨hlog.sorted, List.pairwise_singleton _ _, ?_⟩
      intro a ha b hb
      obtain rfl := List.mem_singleton.mp hb
      exact hold a ha
    · intro t s m q i ht hat
      obtain ⟨h1, h2, h3, h4, h5⟩ := hlog.taken t s m q i ht hat
      refine ⟨h1, h2, h3, h4, ?_⟩
      intro a ha
      rcases List.mem_append.mp ha with ha | ha
      · exact h5 a ha
      · obtain rfl := List.mem_singleton.mp ha
        rcases World.at_log hat with hat | hat
        · exact Nat.lt_trans h2 (World.at_lt hat)
        · cases hat.2
    · exact hlog.fifo
    · exact hlog.answered
  · exact hlog.log (by simp) (by simp) (by simp)

/-- The oldest packet is taken. -/
theorem take (h : Orderly start w) {a : Arrival} (hp : popResponse w = some (a, w')) :
    Orderly start w' := by
  obtain ⟨rest, hq, rfl⟩ := popResponse_eq hp
  have hsorted := h.sorted
  rw [hq] at hsorted
  refine h.append rfl ?_ ?_ (by simp) (by simp)
  · show rest.Sublist w.self.responses
    rw [hq]
    exact List.sublist_cons_self a rest
  · intro s l p i ho
    cases ho
    refine ⟨a, ?_, rfl, rfl, (List.pairwise_cons.mp hsorted).1⟩
    rw [hq]
    exact List.mem_cons_self

/-- What was just taken becomes an answer. -/
theorem answer (h : Orderly start w) {w₀ : World κ} (hstart : start ≤ w₀.trace.length)
    {a : Arrival} (htook : Took w₀ a w) {q : Packet} (hm : a.packet.matchesRequest q = true)
    (l : Option Nat) : Orderly start (w.log (.answered l q a.packet a.receivedAt)) := by
  obtain ⟨rest, htrace, hsuffix⟩ := htook
  refine h.append rfl (List.Sublist.refl _) (by simp) ?_ (by simp)
  intro m q' r i ho
  cases ho
  refine ⟨hm, rest.length, w.now, w.self.client, Nat.le_trans hstart hsuffix.length_le, ?_, ?_⟩
  · rw [htrace]
    rfl
  · exact World.at_of_append (show w.trace = [] ++ _ :: rest from htrace)

/-- An answer matches its request, and is a packet that was received. -/
theorem received_of_answered {w₀ : World κ} (h : Orderly w₀.trace.length w)
    (hw : w₀.trace <:+ w.trace) {l : Option Nat} {q r : Packet} {i : Nat}
    (hans : .answered l q r i ∈ w₀.newTrace w) :
    r.matchesRequest q = true ∧ ∃ s m, .received s m r ∈ w₀.newTrace w := by
  obtain ⟨t, ht, hat⟩ := World.at_of_mem_newTrace hw hans
  obtain ⟨hm, t', s, l', ht', _, htaken⟩ := h.answered t l q r i ht hat
  obtain ⟨hi, _, ⟨s', m, hrec⟩, _⟩ := h.taken t' s l' r i ht' htaken
  exact ⟨hm, s', m, World.mem_newTrace_of_at hw hi hrec⟩

end Orderly

/-! ## Every step keeps it -/

/-- What came from a queue in order still does. -/
structure KeepsOrder (start : Nat) (w w' : World κ) : Prop where
  trace : w.trace <:+ w'.trace
  keeps : Orderly start w → Orderly start w'

namespace KeepsOrder

variable {start : Nat} {w w' w'' : World κ}

theorem refl (start : Nat) (w : World κ) : KeepsOrder start w w := ⟨List.suffix_refl _, id⟩

theorem trans (h : KeepsOrder start w w') (h' : KeepsOrder start w' w'') :
    KeepsOrder start w w'' :=
  ⟨h.trace.trans h'.trace, fun ho => h'.keeps (h.keeps ho)⟩

instance : Std.Refl (KeepsOrder (κ := κ) start) := ⟨refl start⟩

instance : IsTrans (World κ) (KeepsOrder start) := ⟨fun _ _ _ => trans⟩

/-- Steps that touch neither the trace nor the queue. -/
theorem congr (htrace : w'.trace = w.trace) (hqueue : w'.self.responses = w.self.responses) :
    KeepsOrder start w w' :=
  ⟨htrace ▸ List.suffix_refl _, fun h => h.congr htrace hqueue⟩

theorem log (w : World κ) {o : Obs} (h : o.isPlain = true) : KeepsOrder start w (w.log o) := by
  refine ⟨List.suffix_cons _ _, fun ho => ho.log ?_ ?_ ?_⟩
  · rintro s l p i rfl
    cases h
  · rintro l q r i rfl
    cases h
  · rintro rfl
    cases h

theorem hears (start : Nat) : Hears (KeepsOrder (κ := κ) start) where
  state _ _ := congr rfl rfl
  receive w l p hp := ⟨(SameSession.hears.receive w l p hp).trace, fun h => h.receive l p⟩
  buffer _ _ := congr rfl rfl
  lose w l _ := by
    have hclose : KeepsOrder start w (w.close l) := congr rfl rfl
    exact hclose.trans (log _ rfl)
  tick _ _ := congr rfl rfl

variable [Cipher κ]

theorem apply (e : Event) (w : World κ) : KeepsOrder start w (w.apply e) := by
  apply (hears start).apply e w
  intro _
  have hdetach : KeepsOrder start w (w.setClient none) := congr rfl rfl
  exact hdetach.trans ⟨List.suffix_cons _ _, fun ho => ho.log (by simp) (by simp) (by simp)⟩

theorem asks (start : Nat) : Asks (KeepsOrder (κ := κ) start) where
  event e w _ := apply e w
  script _ _ _ := congr rfl rfl
  note w _ h _ _ := log w h
  take h := ⟨(popResponse_sameSession h).trace, fun ho => ho.take h⟩
  deed w _ h _ := log w h
  cipher _ _ := congr rfl rfl
  answer l h htook hm :=
    ⟨h.trace.trans (List.suffix_cons _ _), fun ho => (h.keeps ho).answer ho.begun htook hm l⟩

end KeepsOrder

end Ninebot
