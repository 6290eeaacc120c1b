import Ninebot.Connect
import Ninebot.Reads

/-! # What waits

    The queue and the request that is waited for, told from what happened
    alone.  A client whose queue was cleared once has exactly the packets in
    its queue that its trace says, so that a statement about arrivals is one
    about lists of observations.

    This file defines:
    - `waiting`: the queue, going by a trace
    - `awaited`: the request that is waited for
    - `Ledger`: which requests were answered, going by what was in the queue
      while they were waited for -/

namespace Ninebot

open Coro

variable {κ : Type}

/-! ## Going by the trace -/

/-- The queue, going by what happened, newest first. -/
def waiting : List Obs → List Arrival
  | [] => []
  | .cleared :: _ => []
  | .received _ _ p :: older =>
      if (waiting older).length < World.maxResponses then waiting older ++ [⟨p, older.length⟩]
      else waiting older
  | .taken _ _ p i :: older => (waiting older).erase ⟨p, i⟩
  | _ :: older => waiting older

/-- The request that is waited for, and the link it was sent on: it has not
    been answered or given up, and no packet that matches it was taken. -/
def awaited : List Obs → Option (Nat × Packet)
  | [] | .cleared :: _ => none
  | .sent _ l _ q :: _ => some (l, q)
  | .taken _ _ p _ :: older => (awaited older).filter fun a => !p.matchesRequest a.2
  | .answered .. :: _ | .unanswered .. :: _ | .sendFailed _ :: _ => none
  | _ :: older => awaited older

/-- The first packet in the queue that answers `q`. -/
def firstFor (q : Packet) (now : List Obs) : Option Arrival :=
  (waiting now).find? (·.packet.matchesRequest q)

theorem matches_of_firstFor {q : Packet} {now : List Obs} {a : Arrival}
    (h : firstFor q now = some a) : a.packet.matchesRequest q = true := by
  have hmatch := List.find?_some h
  exact hmatch

/-- What can happen while the client is suspended in a call. -/
def Obs.isBackground : Obs → Bool
  | .received .. | .wrote .. | .writeFailed _ | .lost _ | .detached _ | .log .. => true
  | _ => false

theorem Obs.isBackground_of_note {o : Obs} (hplain : o.isPlain = true) (hdeed : o.isDeed = false)
    (hfate : o.isFate = false) : o.isBackground = true := by
  cases o <;> simp_all [Obs.isPlain, Obs.isDeed, Obs.isFate, Obs.isBackground]

theorem awaited_background {o : Obs} (ho : o.isBackground = true) (now : List Obs) :
    awaited (o :: now) = awaited now := by
  cases o <;> first | rfl | cases ho

theorem awaited_append {new now : List Obs} (hnew : ∀ o ∈ new, o.isBackground = true) :
    awaited (new ++ now) = awaited now := by
  induction new with
  | nil => rfl
  | cons o new ih =>
    rw [List.cons_append, awaited_background (hnew o List.mem_cons_self)]
    exact ih fun x hx => hnew x (List.mem_cons_of_mem _ hx)

/-- Packets that are added go to the end. -/
theorem firstFor_background {o : Obs} (ho : o.isBackground = true) {q : Packet} {now : List Obs}
    {a : Arrival} (h : firstFor q now = some a) : firstFor q (o :: now) = some a := by
  cases o
  case received s l p =>
    show (if _ then _ else _ : List Arrival).find? _ = _
    split
    · rw [List.find?_append]
      unfold firstFor at h
      rw [h]
      rfl
    · exact h
  all_goals first | exact h | cases ho

theorem find?_erase {α : Type} [DecidableEq α] {f : α → Bool} {a : α} (ha : f a = false)
    (xs : List α) : (xs.erase a).find? f = xs.find? f := by
  induction xs with
  | nil => rfl
  | cons x xs ih =>
    by_cases hx : x = a
    · subst hx
      rw [List.erase_cons_head, List.find?_cons_of_neg (by simp [ha])]
    · rw [List.erase_cons_tail (by simpa using hx), List.find?_cons, List.find?_cons, ih]

/-- A packet that does not answer `q` is taken. -/
theorem firstFor_taken {q p : Packet} (hp : p.matchesRequest q = false) (s : Nat)
    (l : Option Nat) (i : Nat) (now : List Obs) :
    firstFor q (.taken s l p i :: now) = firstFor q now := by
  have hother : (fun a : Arrival => a.packet.matchesRequest q) (Arrival.mk p i) = false := hp
  exact @find?_erase Arrival _ _ _ hother (waiting now)

theorem awaited_taken {q p : Packet} (s : Nat) (c : Option Nat) (i : Nat) {now : List Obs} {l : Nat}
    (h : awaited now = some (l, q)) :
    awaited (.taken s c p i :: now) =
      if p.matchesRequest q = true then none else some (l, q) := by
  rw [awaited, h]
  by_cases hp : p.matchesRequest q <;> simp [Option.filter, hp]

/-! ## The invariant -/

/-- The queue is as the trace tells, and its packets were unpacked. -/
structure World.Tallied (w : World κ) : Prop where
  queue : w.self.responses = waiting w.trace
  fits : ∀ a ∈ w.self.responses, a.packet.data.length ≤ maxDataLength

/-- What the trace tells stays true. -/
structure KeepsTally (w w' : World κ) : Prop where
  trace : w.trace <:+ w'.trace
  keeps : w.Tallied → w'.Tallied

namespace KeepsTally

variable {w w' w'' : World κ}

theorem refl (w : World κ) : KeepsTally w w := ⟨List.suffix_refl _, id⟩

theorem trans (h : KeepsTally w w') (h' : KeepsTally w' w'') : KeepsTally w w'' :=
  ⟨h.trace.trans h'.trace, fun ht => h'.keeps (h.keeps ht)⟩

instance : Std.Refl (KeepsTally (κ := κ)) := ⟨refl⟩

instance : IsTrans (World κ) KeepsTally := ⟨fun _ _ _ => trans⟩

theorem congr (htrace : w'.trace = w.trace) (hqueue : w'.self.responses = w.self.responses) :
    KeepsTally w w' := by
  refine ⟨htrace ▸ List.suffix_refl _, fun ht => ⟨?_, ?_⟩⟩
  · rw [hqueue, htrace]
    exact ht.queue
  · rw [hqueue]
    exact ht.fits

theorem log (w : World κ) {o : Obs} (ho : ∀ now, waiting (o :: now) = waiting now) :
    KeepsTally w (w.log o) := by
  refine ⟨List.suffix_cons _ _, fun ht => ⟨?_, ht.fits⟩⟩
  exact ht.queue.trans (ho w.trace).symm

theorem log_plain (w : World κ) {o : Obs} (ho : o.isPlain = true) : KeepsTally w (w.log o) :=
  log w fun _ => by cases o <;> first | rfl | cases ho

theorem receive (w : World κ) (l : Nat) {p : Packet} (hp : p.data.length ≤ maxDataLength) :
    KeepsTally w ((w.log (.received w.now l p)).putNowait ⟨p, w.trace.length⟩) := by
  refine ⟨?_, fun ht => ?_⟩
  · unfold World.putNowait
    split
    · exact List.suffix_cons _ _
    · exact (List.suffix_cons _ _).trans (List.suffix_cons _ _)
  · -- Both sides ask whether there is room.
    unfold World.putNowait
    by_cases hroom : w.self.responses.length < World.maxResponses
    · rw [if_pos (by exact hroom)]
      constructor
      · show w.self.responses ++ _ = waiting (.received w.now l p :: w.trace)
        rw [waiting, ← ht.queue, if_pos hroom]
      · intro a ha
        rcases List.mem_append.mp ha with hold | hnew
        · exact ht.fits a hold
        · rw [List.mem_singleton.mp hnew]
          exact hp
    · rw [if_neg (by exact hroom)]
      refine ⟨?_, ht.fits⟩
      show w.self.responses = waiting (.log .warning _ :: .received w.now l p :: w.trace)
      rw [waiting, waiting, ← ht.queue, if_neg hroom]
      all_goals simp

theorem take {a : Arrival} (h : popResponse w = some (a, w')) : KeepsTally w w' := by
  obtain ⟨rest, hq, rfl⟩ := popResponse_eq h
  refine ⟨List.suffix_cons _ _, fun ht => ⟨?_, fun b hb => ht.fits b ?_⟩⟩
  · show rest = (waiting w.trace).erase ⟨a.packet, a.receivedAt⟩
    rw [← ht.queue, hq]
    exact (List.erase_cons_head a rest).symm
  · rw [hq]
    exact List.mem_cons_of_mem _ hb

theorem hears : Hears (KeepsTally (κ := κ)) where
  state _ _ := congr rfl rfl
  receive w l _ hp := receive w l hp
  buffer _ _ := congr rfl rfl
  lose w l _ := by
    have hclose : KeepsTally w (w.close l) := congr rfl rfl
    exact hclose.trans (log_plain _ rfl)
  tick _ _ := congr rfl rfl

variable [Cipher κ]

theorem apply (e : Event) (w : World κ) : KeepsTally w (w.apply e) := by
  apply hears.apply e w
  intro _
  have hdetach : KeepsTally w (w.setClient none) := congr rfl rfl
  exact hdetach.trans (log _ fun _ => rfl)

theorem asks : Asks (KeepsTally (κ := κ)) where
  event e w _ := apply e w
  script _ _ _ := congr rfl rfl
  note w _ h _ _ := log_plain w h
  take := take
  deed w _ h _ := log_plain w h
  cipher _ _ := congr rfl rfl
  answer _ h _ _ := h.trans (log _ fun _ => rfl)

theorem greets : Greets (KeepsTally (κ := κ)) :=
  asks.greets (fun _ _ => congr rfl rfl) (fun _ => congr rfl rfl) fun w _ => log_plain w rfl

/-- The queue that is cleared is as the trace tells, whatever was there before. -/
theorem reset (w : World κ) : w.resetTransport.Tallied := ⟨rfl, fun _ h => by cases h⟩

theorem connects : Connects (KeepsTally (κ := κ)) where
  toWaits := asks.toWaits
  deed w _ h := log_plain w h
  reset w := ⟨List.suffix_cons _ _, fun _ => reset w⟩
  linked w rx := by
    have hopen : KeepsTally w { w.setLink w.opened ⟨true, false, rx⟩ with
        opened := w.opened + 1 } := congr rfl rfl
    exact hopen.trans (log_plain _ rfl)
  client _ _ := congr rfl rfl
  subscribe _ _ _ := congr rfl rfl
  close w l := by
    have hclose : KeepsTally w (w.close l) := congr rfl rfl
    exact hclose.trans (log_plain _ rfl)
  chunkSize _ _ := congr rfl rfl

/-- `connect_transport` clears the queue first of all. -/
theorem connectTransport (w : World κ) : (Ninebot.connectTransport w).2.Tallied :=
  (connects.transports.connectTransport_reset w).keeps (reset w)

end KeepsTally

/-- A later moment of one call. -/
structure Overhears (w w' : World κ) : Prop extends KeepsTally w w' where
  background : ∀ o ∈ w.newTrace w', o.isBackground = true

namespace Overhears

variable {w w' w'' : World κ}

theorem refl (w : World κ) : Overhears w w :=
  ⟨KeepsTally.refl w, by simp [World.newTrace_self]⟩

theorem trans (h : Overhears w w') (h' : Overhears w' w'') : Overhears w w'' := by
  refine ⟨h.toKeepsTally.trans h'.toKeepsTally, fun o ho => ?_⟩
  rw [World.newTrace_trans h.trace h'.trace] at ho
  rcases List.mem_append.mp ho with hnew | hold
  · exact h'.background o hnew
  · exact h.background o hold

instance : Std.Refl (Overhears (κ := κ)) := ⟨refl⟩

instance : IsTrans (World κ) Overhears := ⟨fun _ _ _ => trans⟩

theorem of_append (h : KeepsTally w w') (new : List Obs) (htrace : w'.trace = new ++ w.trace)
    (hnew : ∀ o ∈ new, o.isBackground = true) : Overhears w w' := by
  refine ⟨h, fun o ho => ?_⟩
  rw [World.newTrace_eq htrace] at ho
  exact hnew o ho

theorem congr (htrace : w'.trace = w.trace) (hqueue : w'.self.responses = w.self.responses) :
    Overhears w w' :=
  of_append (KeepsTally.congr htrace hqueue) [] htrace (by simp)

theorem log {w : World κ} {o : Obs} (h : KeepsTally w (w.log o)) (ho : o.isBackground = true) :
    Overhears w (w.log o) :=
  of_append h [o] rfl (by simpa using ho)

theorem hears : Hears (Overhears (κ := κ)) where
  state _ _ := congr rfl rfl
  receive w l p hp := by
    have hnew : ∃ new, ((w.log (.received w.now l p)).putNowait ⟨p, w.trace.length⟩).trace =
        new ++ w.trace ∧ ∀ o ∈ new, o.isBackground = true := by
      unfold World.putNowait
      split
      · exact ⟨[.received w.now l p], rfl, by simp [Obs.isBackground]⟩
      · exact ⟨[_, .received w.now l p], rfl, by simp [Obs.isBackground]⟩
    obtain ⟨new, htrace, hbackground⟩ := hnew
    exact of_append (KeepsTally.receive w l hp) new htrace hbackground
  buffer _ _ := congr rfl rfl
  lose w l _ := by
    have hclose : Overhears w (w.close l) := congr rfl rfl
    exact hclose.trans (log (KeepsTally.log_plain _ rfl) rfl)
  tick _ _ := congr rfl rfl

variable [Cipher κ]

theorem suspends : Suspends (Overhears (κ := κ)) where
  event e w _ := by
    apply hears.apply e w
    intro _
    have hdetach : Overhears w (w.setClient none) := congr rfl rfl
    exact hdetach.trans (log (KeepsTally.log _ fun _ => rfl) rfl)
  script _ _ _ := congr rfl rfl
  note w o hplain hdeed hfate :=
    log (KeepsTally.log_plain w hplain) (Obs.isBackground_of_note hplain hdeed hfate)

end Overhears

/-! ## Requests that are answered in time -/

/-- Of the moments `M`: an answer to `q` was in the queue while `q` was waited
    for, `r` was the first one, and `q` was not given up with one in the queue. -/
structure InTime (M : List Obs → Prop) (q r : Packet) : Prop where
  heard : ∃ now l a, M now ∧ awaited now = some (l, q) ∧ firstFor q now = some a ∧ a.packet = r
  kept : ∀ now c, M (.unanswered c q :: now) → firstFor q now = none

/-- The moments from `base` to `now`. -/
def InSpan (base now : List Obs) (moment : List Obs) : Prop :=
  base <:+ moment ∧ moment <:+ now

theorem inSpan_cons {base now moment : List Obs} (hbase : base <:+ now) (o : Obs) :
    InSpan base (o :: now) moment ↔ moment = o :: now ∨ InSpan base now moment := by
  constructor
  · intro h
    rcases List.suffix_cons_iff.mp h.2 with heq | hsuffix
    · exact Or.inl heq
    · exact Or.inr ⟨h.1, hsuffix⟩
  · intro h
    rcases h with rfl | h
    · exact ⟨hbase.trans (List.suffix_cons _ _), List.suffix_refl _⟩
    · exact ⟨h.1, h.2.trans (List.suffix_cons _ _)⟩

/-- One more entry that is not about `q`. -/
theorem inTime_cons {base now : List Obs} (hbase : base <:+ now) {o : Obs} {q r : Packet}
    (hawaited : ∀ l, awaited (o :: now) ≠ some (l, q)) (ho : ∀ c, o ≠ .unanswered c q) :
    InTime (InSpan base (o :: now)) q r ↔ InTime (InSpan base now) q r := by
  constructor
  · intro h
    obtain ⟨⟨moment, l, a, hmoment, hl, hfirst, hr⟩, hkept⟩ := h
    refine ⟨⟨moment, l, a, ?_, hl, hfirst, hr⟩, fun older c hold => ?_⟩
    · rcases (inSpan_cons hbase o).mp hmoment with rfl | hold
      · exact absurd hl (hawaited l)
      · exact hold
    · exact hkept older c ((inSpan_cons hbase o).mpr (Or.inr hold))
  · intro h
    obtain ⟨⟨moment, l, a, hmoment, hl, hfirst, hr⟩, hkept⟩ := h
    refine ⟨⟨moment, l, a, (inSpan_cons hbase o).mpr (Or.inr hmoment), hl, hfirst, hr⟩, ?_⟩
    intro older c hnew
    rcases (inSpan_cons hbase o).mp hnew with heq | hold
    · exact absurd (List.cons.inj heq).1.symm (ho c)
    · exact hkept older c hold

/-- `done` is true of the moments from `base` to `now`, and nothing is waited for. -/
structure Ledger (base now : List Obs) (done : Done) : Prop where
  begun : base <:+ now
  idle : awaited now = none
  asked : ∀ moment l q, InSpan base now moment → awaited moment = some (l, q) →
    q ∈ done.map Prod.fst
  unanswered : ∀ older c q, InSpan base now (.unanswered c q :: older) → q ∈ done.map Prod.fst
  inTime : ∀ q r, InTime (InSpan base now) q r ↔ (q, some r) ∈ done

/-- The same while `q` is waited for, which was not asked before. -/
structure Pending (base now : List Obs) (done : Done) (q : Packet) : Prop where
  begun : base <:+ now
  awaited : ∃ l, awaited now = some (l, q)
  fresh : q ∉ done.map Prod.fst
  asked : ∀ moment l q', InSpan base now moment → Ninebot.awaited moment = some (l, q') →
    q' = q ∨ q' ∈ done.map Prod.fst
  unanswered : ∀ older c q', InSpan base now (.unanswered c q' :: older) →
    q' ∈ done.map Prod.fst
  inTime : ∀ q' r, q' ≠ q → (InTime (InSpan base now) q' r ↔ (q', some r) ∈ done)
  /-- A packet that answers `q` stays in the queue. -/
  first : ∀ moment l a, InSpan base now moment → Ninebot.awaited moment = some (l, q) →
    firstFor q moment = some a → firstFor q now = some a

section Ledger

variable {base now : List Obs} {done : Done} {q : Packet}

theorem Ledger.start (hidle : awaited base = none)
    (hnone : ∀ older c q, base ≠ .unanswered c q :: older) :
    Ledger base base [] := by
  have honly : ∀ {moment}, InSpan base base moment → moment = base := fun h =>
    h.2.eq_of_length (Nat.le_antisymm h.2.length_le h.1.length_le)
  refine ⟨List.suffix_refl _, hidle, ?_, ?_, fun q r => ⟨fun h => ?_, fun h => ?_⟩⟩
  · intro moment l q h hl
    rw [honly h, hidle] at hl
    cases hl
  · intro older c q h
    exact absurd (honly h).symm (hnone older c q)
  · obtain ⟨⟨moment, l, a, hmoment, hl, _⟩, _⟩ := h
    rw [honly hmoment, hidle] at hl
    cases hl
  · cases h

/-- An entry that is about no request. -/
theorem Ledger.quiet (h : Ledger base now done) {o : Obs} (hidle : awaited (o :: now) = none)
    (ho : ∀ c q, o ≠ .unanswered c q) : Ledger base (o :: now) done := by
  refine ⟨h.begun.trans (List.suffix_cons _ _), hidle, ?_, ?_, fun q r => ?_⟩
  -- Each part looks at the new moment, where nothing is waited for, and at the older ones.
  · intro moment l q hmoment hl
    rcases (inSpan_cons h.begun o).mp hmoment with rfl | hold
    · rw [hidle] at hl
      cases hl
    · exact h.asked moment l q hold hl
  · intro older c q hmoment
    rcases (inSpan_cons h.begun o).mp hmoment with heq | hold
    · exact absurd (List.cons.inj heq).1.symm (ho c q)
    · exact h.unanswered older c q hold
  · rw [inTime_cons h.begun (by simp [hidle]) fun c => ho c q]
    exact h.inTime q r

/-- `q` is sent. -/
theorem Ledger.sent (h : Ledger base now done) (hfresh : q ∉ done.map Prod.fst) (t l : Nat)
    (keys : Keys) : Pending base (.sent t l keys q :: now) done q := by
  refine ⟨h.begun.trans (List.suffix_cons _ _), ⟨l, rfl⟩, hfresh, ?_, ?_, ?_, ?_⟩
  · intro moment m q' hmoment hl
    rcases (inSpan_cons h.begun _).mp hmoment with rfl | hold
    · have heq : (l, q) = (m, q') := Option.some.inj hl
      exact Or.inl (Prod.mk.inj heq).2.symm
    · exact Or.inr (h.asked moment m q' hold hl)
  · intro older c q' hmoment
    rcases (inSpan_cons h.begun _).mp hmoment with heq | hold
    · cases heq
    · exact h.unanswered older c q' hold
  · intro q' r hne
    rw [inTime_cons h.begun (fun m hm => ?_) fun c hc => by cases hc]
    · exact h.inTime q' r
    · have heq : (l, q) = (m, q') := Option.some.inj hm
      exact hne (Prod.mk.inj heq).2.symm
  · -- `q` was not waited for before.
    intro moment m a hmoment hl hfirst
    rcases (inSpan_cons h.begun _).mp hmoment with rfl | hold
    · exact hfirst
    · exact absurd (h.asked moment m q hold hl) hfresh

/-- One more entry of the wait. -/
theorem Pending.step (h : Pending base now done q) {o : Obs}
    (hawaited : Ninebot.awaited (o :: now) = Ninebot.awaited now)
    (ho : ∀ c q', o ≠ .unanswered c q')
    (hfirst : ∀ a, firstFor q now = some a → firstFor q (o :: now) = some a) :
    Pending base (o :: now) done q := by
  obtain ⟨l, hl⟩ := h.awaited
  refine ⟨h.begun.trans (List.suffix_cons _ _), ⟨l, hawaited.trans hl⟩, h.fresh, ?_, ?_, ?_, ?_⟩
  · intro moment m q' hmoment hm
    rcases (inSpan_cons h.begun o).mp hmoment with rfl | hold
    · rw [hawaited, hl] at hm
      exact Or.inl (Prod.mk.inj (Option.some.inj hm)).2.symm
    · exact h.asked moment m q' hold hm
  · intro older c q' hmoment
    rcases (inSpan_cons h.begun o).mp hmoment with heq | hold
    · exact absurd (List.cons.inj heq).1.symm (ho c q')
    · exact h.unanswered older c q' hold
  · intro q' r hne
    rw [inTime_cons h.begun (fun m hm => ?_) fun c => ho c q']
    · exact h.inTime q' r hne
    · rw [hawaited, hl] at hm
      exact hne (Prod.mk.inj (Option.some.inj hm)).2.symm
  · intro moment m a hmoment hm ha
    rcases (inSpan_cons h.begun o).mp hmoment with rfl | hold
    · exact ha
    · exact hfirst a (h.first moment m a hold hm ha)

theorem Pending.background (h : Pending base now done q) {new : List Obs}
    (hnew : ∀ o ∈ new, o.isBackground = true) : Pending base (new ++ now) done q := by
  induction new with
  | nil => exact h
  | cons o new ih =>
    have ho := hnew o List.mem_cons_self
    -- What comes in goes to the end of the queue.
    refine (ih fun x hx => hnew x (List.mem_cons_of_mem _ hx)).step (awaited_background ho _) ?_
      fun a => firstFor_background ho
    rintro c q' rfl
    cases ho

/-- A packet is taken that does not answer `q`. -/
theorem Pending.pass (h : Pending base now done q) {p : Packet} (hp : p.matchesRequest q = false)
    (s : Nat) (c : Option Nat) (i : Nat) : Pending base (.taken s c p i :: now) done q := by
  obtain ⟨l, hl⟩ := h.awaited
  refine h.step ?_ (by simp) fun a ha => (firstFor_taken hp s c i now).trans ha
  rw [awaited_taken s c i hl, hl]
  simp [hp]

/-- The wait is over, and the entry that ended it is `o`. -/
theorem Pending.ends (h : Pending base now done q) {o : Obs} {res : Option Packet}
    (hidle : Ninebot.awaited (o :: now) = none) (ho : ∀ c q', o = .unanswered c q' → q' = q)
    (hres : ∀ r, InTime (InSpan base (o :: now)) q r ↔ res = some r) :
    Ledger base (o :: now) ((q, res) :: done) := by
  refine ⟨h.begun.trans (List.suffix_cons _ _), hidle, ?_, ?_, fun q' r => ?_⟩
  · intro moment l q' hmoment hl
    rcases (inSpan_cons h.begun o).mp hmoment with rfl | hold
    · rw [hidle] at hl
      cases hl
    · rcases h.asked moment l q' hold hl with rfl | hmem
      · exact List.mem_cons_self
      · exact List.mem_cons_of_mem _ hmem
  · intro older c q' hmoment
    rcases (inSpan_cons h.begun o).mp hmoment with heq | hold
    · rw [ho c q' (List.cons.inj heq).1.symm]
      exact List.mem_cons_self
    · exact List.mem_cons_of_mem _ (h.unanswered older c q' hold)
  · -- `q` is entered with its answer, and the other entries stay.
    by_cases hq : q' = q
    · subst hq
      have hnone : (q', some r) ∉ done := fun hmem => h.fresh (List.mem_map_of_mem hmem)
      rw [hres r, List.mem_cons, Prod.mk.injEq]
      constructor
      · exact fun heq => Or.inl ⟨rfl, heq.symm⟩
      · exact fun hmem => (hmem.resolve_right hnone).2.symm
    · rw [inTime_cons h.begun (by simp [hidle]) fun c hc => hq (ho c q' hc), h.inTime q' r hq,
        List.mem_cons, Prod.mk.injEq]
      constructor
      · exact Or.inr
      · exact fun hmem => hmem.resolve_left fun heq => hq heq.1

/-- The first packet that answers `q` is taken. -/
theorem Pending.answered (h : Pending base now done q) {a : Arrival}
    (hfirst : firstFor q now = some a) (s i j : Nat) (c c' : Option Nat) :
    Ledger base (.answered c' q a.packet j :: .taken s c a.packet i :: now)
      ((q, some a.packet) :: done) := by
  obtain ⟨l, hl⟩ := h.awaited
  have hmatch := matches_of_firstFor hfirst
  have hidle : Ninebot.awaited (.taken s c a.packet i :: now) = none := by
    rw [awaited_taken s c i hl, if_pos hmatch]
  refine (h.ends hidle (by simp) fun r => ⟨fun hin => ?_, fun heq => ?_⟩).quiet rfl (by simp)
  · obtain ⟨⟨moment, m, b, hmoment, hm, hb, hr⟩, _⟩ := hin
    rcases (inSpan_cons h.begun _).mp hmoment with rfl | hold
    · rw [hidle] at hm
      cases hm
    · have hsame := hfirst.symm.trans (h.first moment m b hold hm hb)
      rw [Option.some.inj hsame, hr]
  · refine ⟨⟨now, l, a, (inSpan_cons h.begun _).mpr (Or.inr ⟨h.begun, List.suffix_refl _⟩), hl,
      hfirst, Option.some.inj heq⟩, ?_⟩
    intro older c' hmoment
    rcases (inSpan_cons h.begun _).mp hmoment with heq' | hold
    · cases heq'
    · exact absurd (h.unanswered older c' q hold) h.fresh

/-- `q` is given up. -/
theorem Pending.silent (h : Pending base now done q) (c : Option Nat) :
    Ledger base (.unanswered c q :: now) ((q, none) :: done) := by
  refine h.ends rfl (by rintro c' q' ⟨⟩; rfl) fun r => ⟨fun hin => ?_, fun heq => by cases heq⟩
  -- An answer that was there in time would be there still.
  obtain ⟨⟨moment, m, b, hmoment, hm, hb, _⟩, hkept⟩ := hin
  rcases (inSpan_cons h.begun _).mp hmoment with rfl | hold
  · cases hm
  · have hnone := hkept now c
      ⟨h.begun.trans (List.suffix_cons _ _), List.suffix_refl _⟩
    rw [h.first moment m b hold hm hb] at hnone
    cases hnone

end Ledger

section Requests

theorem popResponse_trace {w w' : World κ} {a : Arrival} (h : popResponse w = some (a, w')) :
    ∃ c, w'.trace = .taken w.now c a.packet a.receivedAt :: w.trace := by
  obtain ⟨rest, _, rfl⟩ := popResponse_eq h
  exact ⟨_, rfl⟩

variable {base : List Obs} {done : Done} {w : World κ}

/-- The packet at the head of the queue is the first one for the request that it answers. -/
theorem World.Tallied.first (h : w.Tallied) {w' : World κ} {a : Arrival}
    (hpop : popResponse w = some (a, w')) {q : Packet} (hm : a.packet.matchesRequest q = true) :
    firstFor q w.trace = some a := by
  obtain ⟨rest, hq, _⟩ := popResponse_eq hpop
  have hhead : (fun x : Arrival => x.packet.matchesRequest q) a = true := hm
  rw [firstFor, ← h.queue, hq]
  exact List.find?_cons_of_pos hhead

/-- An answer is the first one in the queue while the request was waited for. -/
theorem request_heard [Cipher κ] {p : Packet} (ht : w.Tallied) (t : Option Nat) :
    Triple (request p t) w
      (fun r w' => ∃ l now a c, LinkUp w l ∧ now <:+ w'.trace ∧ awaited now = some (l, p) ∧
        firstFor p now = some a ∧ a.packet = r ∧
        w'.trace.head? = some (.answered c p r a.receivedAt))
      (fun _ _ => True) (fun _ => True) := by
  have hstay : ∀ {l} {w₁ w₂ : World κ}, awaited w₁.trace = some (l, p) ∧ w₁.Tallied →
      Overhears w₁ w₂ → awaited w₂.trace = some (l, p) ∧ w₂.Tallied := by
    intro l w₁ w₂ h₁ hover
    refine ⟨?_, hover.keeps h₁.2⟩
    rw [World.trace_eq_newTrace hover.trace, awaited_append hover.background]
    exact h₁.1
  refine Triple.bind ((Overhears.suspends.send_triple p w).mono (fun _ _ hsent => hsent)
    (fun _ _ _ => trivial) fun _ _ => trivial) fun _ w₁ hsent => Triple.get_bind ?_
  obtain ⟨l, state, hl, hover⟩ := hsent
  have hsent : awaited (w.encrypted l p state).trace = some (l, p) ∧
      (w.encrypted l p state).Tallied := ⟨rfl, ht.queue, ht.fits⟩
  -- What comes in meanwhile goes to the end of the queue.
  apply Overhears.suspends.requestLoop_triple
    (I := fun w₂ => awaited w₂.trace = some (l, p) ∧ w₂.Tallied) hstay _ _ (fun _ _ _ => trivial)
    (fun _ => trivial) _ _ (hstay hsent hover)
  · intro w₂ a w₃ h₂ hpop hm
    obtain ⟨c, htrace⟩ := popResponse_trace hpop
    refine ⟨?_, (KeepsTally.take hpop).keeps h₂.2⟩
    rw [htrace, awaited_taken _ _ _ h₂.1]
    simp [hm]
  · intro w₂ w₃ a w₄ h₂ hstep hpop _ hm
    have h₃ := hstay h₂ hstep
    exact ⟨l, w₃.trace, a, _, hl, (KeepsTally.take hpop).trace.trans (List.suffix_cons _ _), h₃.1,
      h₃.2.first hpop hm, rfl, rfl⟩

/-- `p` is waited for, and was sent after `now`. -/
structure Asking (base now : List Obs) (done : Done) (p : Packet) (w : World κ) : Prop where
  pending : Pending base w.trace done p
  tallied : w.Tallied
  since : now <:+ w.trace

namespace Asking

variable {now : List Obs} {p : Packet} {w' : World κ} {a : Arrival}

theorem overhears (h : Asking base now done p w) (hover : Overhears w w') :
    Asking base now done p w' := by
  refine ⟨?_, hover.keeps h.tallied, h.since.trans hover.trace⟩
  rw [World.trace_eq_newTrace hover.trace]
  exact h.pending.background hover.background

/-- A packet that does not match is taken. -/
theorem passes (h : Asking base now done p w) (hpop : popResponse w = some (a, w'))
    (hm : a.packet.matchesRequest p = false) : Asking base now done p w' := by
  obtain ⟨c, htrace⟩ := popResponse_trace hpop
  have htake := KeepsTally.take hpop
  refine ⟨?_, htake.keeps h.tallied, h.since.trans htake.trace⟩
  rw [htrace]
  exact h.pending.pass hm _ _ _

/-- A packet that matches is the answer. -/
theorem answered (h : Asking base now done p w) (hpop : popResponse w = some (a, w'))
    (hm : a.packet.matchesRequest p = true) (c : Option Nat) :
    Ledger base (.answered c p a.packet a.receivedAt :: w'.trace) ((p, some a.packet) :: done) := by
  obtain ⟨c', htrace⟩ := popResponse_trace hpop
  rw [htrace]
  exact h.pending.answered (h.tallied.first hpop hm) _ _ _ _ _

end Asking

/-- A request that was not made before is entered with its answer. -/
theorem request_ledger [Cipher κ] {p : Packet} (hfresh : p ∉ done.map Prod.fst)
    (h : Ledger base w.trace done) (ht : w.Tallied) (t : Option Nat) :
    Triple (request p t) w
      (fun r w' => Ledger base w'.trace ((p, some r) :: done) ∧ w'.Tallied ∧
        r.data.length ≤ maxDataLength ∧
        ∃ c i older, w'.trace = .answered c p r i :: older ∧ w.trace <:+ older)
      (fun e w' => SendFails Overhears w p e w' ∨
        e.cls = .ninebotTimeoutError ∧ Ledger base w'.trace ((p, none) :: done) ∧ w'.Tallied ∧
          ∃ c older, w'.trace = .unanswered c p :: older ∧ w.trace <:+ older)
      (fun _ => True) := by
  refine Triple.bind ((Overhears.suspends.send_triple p w).mono (fun _ _ hsent => hsent)
    (fun _ _ hfails => Or.inl hfails) fun _ _ => trivial) fun _ w₁ hsent => Triple.get_bind ?_
  obtain ⟨l, state, _, hover⟩ := hsent
  have hsent : Asking base w.trace done p (w.encrypted l p state) :=
    ⟨h.sent hfresh _ _ _, ⟨ht.queue, ht.fits⟩, List.suffix_cons _ _⟩
  apply Overhears.suspends.requestLoop_triple (I := Asking base w.trace done p)
    (fun h₁ hstep => h₁.overhears hstep) _ _ _ (fun _ => trivial) _ _ (hsent.overhears hover)
  · intro w₂ a w₃ h₂ hpop hm
    exact h₂.passes hpop hm
  · intro w₂ w₃ a w₄ h₂ hstep hpop _ hm
    have h₃ := h₂.overhears hstep
    have htake := KeepsTally.take hpop
    have hfits : a.packet.data.length ≤ maxDataLength := by
      obtain ⟨rest, hq, _⟩ := popResponse_eq hpop
      exact h₃.tallied.fits a (by rw [hq]; exact List.mem_cons_self)
    refine ⟨h₃.answered hpop hm _, ?_, hfits, _, _, _, rfl, h₃.since.trans htake.trace⟩
    exact (KeepsTally.log w₄ fun _ => rfl).keeps (htake.keeps h₃.tallied)
  · intro w₂ w₃ e h₂ hstep he
    have h₃ := h₂.overhears hstep
    refine Or.inr ⟨he, h₃.pending.silent _, ?_, _, _, rfl, h₃.since⟩
    exact (KeepsTally.log w₃ fun _ => rfl).keeps h₃.tallied

end Requests

end Ninebot
