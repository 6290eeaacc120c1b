import Ninebot.Backlog
import Ninebot.FakeScooter
import Ninebot.Lib.Paced

/-! # How often PAIR is sent

    `PAIRING_RETRY_INTERVAL` is the timeout of one receive, not a pause between
    two requests: a packet that is no acceptance ends the receive early, and
    the next PAIR is sent at once.

    This file defines:
    - `World.pairTimes`: when PAIR was sent
    - `Resent`: PAIR, and what happened until it was sent again
    - `Unhurried`: no packet is there before the interval is over
    - `Prompt`: a packet that is there in time is taken in time -/

namespace Ninebot

open Coro

variable {κ : Type}

/-! ## Going by the trace -/

/-- When this sends PAIR. -/
def Obs.pairSentAt : Obs → Option Nat
  | .sent t _ _ p => if p.command = .pair then some t else none
  | _ => none

/-- The times of the PAIRs among these entries, the newest of which comes first. -/
def pairTimesOf (new : List Obs) : List Nat := new.reverse.filterMap Obs.pairSentAt

/-- When PAIR was sent from `w` to `w'`, in order. -/
def World.pairTimes (w w' : World κ) : List Nat := pairTimesOf (w.newTrace w')

/-- Since `base` PAIR was sent, at `s` and with the trace at `before`, and not
    again; everything since is in `between`. -/
structure Open (base now : List Obs) (s : Nat) (before between : List Obs) : Prop where
  split : ∃ first, now = between ++ first :: before ∧ first.pairSentAt = some s
  within : base <:+ before
  next : ∀ o ∈ between, o.pairSentAt = none

/-- Since `base` PAIR was sent at `s`, and the next one at `again`. -/
def Resent (base trace : List Obs) (s : Nat) (before between : List Obs) (again : Nat) : Prop :=
  ∃ now o, o :: now <:+ trace ∧ o.pairSentAt = some again ∧ Open base now s before between

section Traces

variable {base now trace before before' between between' new : List Obs} {s s' again : Nat}
  {o : Obs}

theorem Open.base_suffix (h : Open base now s before between) : base <:+ now := by
  obtain ⟨first, rfl, _⟩ := h.split
  exact h.within.trans ((List.suffix_cons first before).trans (List.suffix_append _ _))

theorem Open.not_base : ¬ Open base base s before between := by
  intro h
  obtain ⟨first, heq, _⟩ := h.split
  have hlonger := h.within.length_le
  have hlen := congrArg List.length heq
  rw [List.length_append, List.length_cons] at hlen
  omega

theorem Open.of_pair (hbase : base <:+ now) (ho : o.pairSentAt = some s) :
    Open base (o :: now) s now [] :=
  ⟨⟨o, rfl, ho⟩, hbase, List.forall_mem_nil _⟩

/-- The last entry is a PAIR. -/
theorem Open.pair (h : Open base (o :: now) s before between) (ho : o.pairSentAt = some again) :
    s = again ∧ before = now ∧ between = [] := by
  obtain ⟨first, hsplit, hfirst⟩ := h.split
  rcases between with _ | ⟨x, between⟩
  · obtain ⟨rfl, rfl⟩ := List.cons.inj hsplit
    exact ⟨Option.some.inj (hfirst.symm.trans ho), rfl, rfl⟩
  · obtain ⟨rfl, _⟩ := List.cons.inj hsplit
    have hno := h.next o List.mem_cons_self
    rw [ho] at hno
    cases hno

theorem Open.cons (h : Open base now s before between) (ho : o.pairSentAt = none) :
    Open base (o :: now) s before (o :: between) := by
  obtain ⟨first, rfl, hfirst⟩ := h.split
  exact ⟨⟨first, rfl, hfirst⟩, h.within, List.forall_mem_cons.mpr ⟨ho, h.next⟩⟩

/-- The last entry is no PAIR. -/
theorem Open.tail (h : Open base (o :: now) s before between) (ho : o.pairSentAt = none) :
    ∃ older, between = o :: older ∧ Open base now s before older := by
  obtain ⟨first, hsplit, hfirst⟩ := h.split
  rcases between with _ | ⟨x, between⟩
  · obtain ⟨rfl, _⟩ := List.cons.inj hsplit
    rw [ho] at hfirst
    cases hfirst
  · obtain ⟨rfl, hnow⟩ := List.cons.inj hsplit
    exact ⟨between, rfl, ⟨first, hnow, hfirst⟩, h.within, fun x hx =>
      h.next x (List.mem_cons_of_mem _ hx)⟩

theorem Open.append (h : Open base now s before between) (hnew : ∀ o ∈ new, o.pairSentAt = none) :
    Open base (new ++ now) s before (new ++ between) := by
  obtain ⟨first, rfl, hfirst⟩ := h.split
  refine ⟨⟨first, (List.append_assoc _ _ _).symm, hfirst⟩, h.within, fun o ho => ?_⟩
  exact (List.mem_append.mp ho).elim (hnew o) (h.next o)

/-- There is one last PAIR. -/
theorem Open.unique (h : Open base now s before between) (h' : Open base now s' before' between') :
    s' = s ∧ before' = before ∧ between' = between := by
  induction between generalizing now between' with
  | nil =>
    obtain ⟨first, rfl, hfirst⟩ := h.split
    exact h'.pair hfirst
  | cons o between ih =>
    obtain ⟨first, rfl, _⟩ := h.split
    have ho := h.next o List.mem_cons_self
    obtain ⟨older, heq, hopen⟩ := h.tail ho
    obtain rfl := (List.cons.inj heq).2
    obtain ⟨older', rfl, hopen'⟩ := h'.tail ho
    obtain ⟨hs, hbefore, hbetween⟩ := ih hopen hopen'
    exact ⟨hs, hbefore, congrArg (o :: ·) hbetween⟩

theorem Resent.not_base : ¬ Resent base base s before between again := by
  rintro ⟨now, o, hsuffix, _, hopen⟩
  have hle := hsuffix.length_le
  have hbase := hopen.base_suffix.length_le
  rw [List.length_cons] at hle
  omega

/-- One more entry ends a wait if it is a PAIR. -/
theorem resent_cons : Resent base (o :: now) s before between again ↔
    (o.pairSentAt = some again ∧ Open base now s before between) ∨
      Resent base now s before between again := by
  constructor
  · rintro ⟨now', o', hsuffix, ho, hopen⟩
    rcases List.suffix_cons_iff.mp hsuffix with heq | hold
    · obtain ⟨rfl, rfl⟩ := List.cons.inj heq
      exact Or.inl ⟨ho, hopen⟩
    · exact Or.inr ⟨now', o', hold, ho, hopen⟩
  · rintro (⟨ho, hopen⟩ | ⟨now', o', hsuffix, ho, hopen⟩)
    · exact ⟨now, o, List.suffix_refl _, ho, hopen⟩
    · exact ⟨now', o', hsuffix.trans (List.suffix_cons _ _), ho, hopen⟩

theorem resent_append (hnew : ∀ o ∈ new, o.pairSentAt = none) :
    Resent base (new ++ now) s before between again ↔ Resent base now s before between again := by
  induction new with
  | nil => exact Iff.rfl
  | cons o new ih =>
    rw [List.cons_append, resent_cons, ih fun x hx => hnew x (List.mem_cons_of_mem _ hx)]
    apply or_iff_right
    intro h
    rw [hnew o List.mem_cons_self] at h
    exact absurd h.1 (Option.some_ne_none _).symm

theorem pairTimesOf_cons (o : Obs) (new : List Obs) :
    pairTimesOf (o :: new) = pairTimesOf new ++ o.pairSentAt.toList := by
  unfold pairTimesOf
  rw [List.reverse_cons, List.filterMap_append]
  rcases ho : o.pairSentAt with _ | t
  · rw [List.filterMap_cons_none ho]
    rfl
  · rw [List.filterMap_cons_some ho]
    rfl

theorem mem_getLast_pairTimesOf (base : List Obs) : s ∈ (pairTimesOf new).getLast? ↔
    ∃ before between, Open base (new ++ base) s before between := by
  induction new with
  | nil => exact iff_of_false nofun fun ⟨_, _, h⟩ => Open.not_base h
  | cons o new ih =>
    rw [pairTimesOf_cons, List.cons_append]
    rcases ho : o.pairSentAt with _ | t
    · rw [Option.toList_none, List.append_nil, ih]
      constructor
      · rintro ⟨before, between, h⟩
        exact ⟨before, o :: between, h.cons ho⟩
      · rintro ⟨before, between, h⟩
        obtain ⟨older, rfl, hopen⟩ := h.tail ho
        exact ⟨before, older, hopen⟩
    · rw [Option.toList_some, List.getLast?_append, List.getLast?_singleton, Option.some_or,
        Option.mem_some_iff]
      constructor
      · rintro rfl
        exact ⟨_, _, Open.of_pair (List.suffix_append _ _) ho⟩
      · rintro ⟨before, between, h⟩
        exact (h.pair ho).1.symm

/-- The times are paced when each PAIR is sent again late enough. -/
theorem paced_iff_resent {gap : Nat} : Paced gap (pairTimesOf new) ↔
    ∀ s before between again, Resent base (new ++ base) s before between again →
      s + gap ≤ again := by
  induction new with
  | nil => exact iff_of_true List.IsChain.nil fun _ _ _ _ h => absurd h Resent.not_base
  | cons o new ih =>
    rw [pairTimesOf_cons, List.cons_append]
    simp only [resent_cons]
    rcases ho : o.pairSentAt with _ | t
    · rw [Option.toList_none, List.append_nil, ih]
      simp
    · have happend : Paced gap (pairTimesOf new ++ [t]) ↔ Paced gap (pairTimesOf new) ∧
          ∀ s ∈ (pairTimesOf new).getLast?, s + gap ≤ t := by
        unfold Paced
        rw [List.isChain_append]
        simp
      rw [Option.toList_some, happend, ih]
      simp only [mem_getLast_pairTimesOf base]
      constructor
      · rintro ⟨hold, hlast⟩ s before between again (⟨hagain, hopen⟩ | h)
        · obtain rfl := Option.some.inj hagain
          exact hlast s ⟨before, between, hopen⟩
        · exact hold s before between again h
      · intro h
        refine ⟨fun s before between again hold => h s before between again (Or.inr hold), ?_⟩
        rintro s ⟨before, between, hopen⟩
        exact h s before between t (Or.inl ⟨rfl, hopen⟩)

end Traces

/-! ## Time -/

/-- A later moment of one call: time goes by, and what comes is in the trace. -/
structure Elapses (w w' : World κ) : Prop extends Overhears w w' where
  later : w.now ≤ w'.now
  heard : ∀ t l p, .received t l p ∈ w.newTrace w' → t ≤ w'.now

namespace Elapses

variable {w w' w'' : World κ}

theorem refl (w : World κ) : Elapses w w :=
  ⟨Overhears.refl w, Nat.le_refl _, by simp [World.newTrace_self]⟩

theorem trans (h : Elapses w w') (h' : Elapses w' w'') : Elapses w w'' := by
  refine ⟨h.toOverhears.trans h'.toOverhears, h.later.trans h'.later, fun t l p hmem => ?_⟩
  rw [World.newTrace_trans h.trace h'.trace] at hmem
  rcases List.mem_append.mp hmem with hnew | hold
  · exact h'.heard t l p hnew
  · exact (h.heard t l p hold).trans h'.later

instance : Std.Refl (Elapses (κ := κ)) := ⟨refl⟩

instance : IsTrans (World κ) Elapses := ⟨fun _ _ _ => trans⟩

/-- What is added is no packet. -/
theorem of_append (h : Overhears w w') (new : List Obs) (htrace : w'.trace = new ++ w.trace)
    (hnew : ∀ t l p, .received t l p ∉ new) (hlater : w.now ≤ w'.now) : Elapses w w' := by
  refine ⟨h, hlater, fun t l p hmem => ?_⟩
  rw [World.newTrace_eq htrace] at hmem
  exact absurd hmem (hnew t l p)

theorem congr (htrace : w'.trace = w.trace) (hqueue : w'.self.responses = w.self.responses)
    (hlater : w.now ≤ w'.now) : Elapses w w' :=
  of_append (Overhears.congr htrace hqueue) [] htrace (by simp) hlater

theorem hears : Hears (Elapses (κ := κ)) where
  state _ _ := congr rfl rfl (Nat.le_refl _)
  receive w l p hp := by
    have hnow : ((w.log (.received w.now l p)).putNowait ⟨p, w.trace.length⟩).now = w.now := by
      unfold World.putNowait
      split <;> rfl
    have htrace : ∃ new, ((w.log (.received w.now l p)).putNowait ⟨p, w.trace.length⟩).trace =
        new ++ w.trace ∧ ∀ t m q, .received t m q ∈ new → t = w.now := by
      unfold World.putNowait
      split
      · refine ⟨[.received w.now l p], rfl, fun t m q hmem => ?_⟩
        simp only [List.mem_singleton, Obs.received.injEq] at hmem
        exact hmem.1
      · refine ⟨[.log _ _, .received w.now l p], rfl, fun t m q hmem => ?_⟩
        simp only [List.mem_cons, List.not_mem_nil, or_false, Obs.received.injEq, reduceCtorEq,
          false_or] at hmem
        exact hmem.1
    obtain ⟨new, htrace, hnew⟩ := htrace
    refine ⟨Overhears.hears.receive w l p hp, hnow.ge, fun t m q hmem => ?_⟩
    rw [World.newTrace_eq htrace] at hmem
    rw [hnow, hnew t m q hmem]
  buffer _ _ := congr rfl rfl (Nat.le_refl _)
  lose w l hup := of_append (Overhears.hears.lose w l hup) [.lost l] rfl (by simp) (Nat.le_refl _)
  tick _ _ := congr rfl rfl (Nat.le_add_right _ _)

variable [Cipher κ]

theorem suspends : Suspends (Elapses (κ := κ)) where
  event e w he := by
    apply hears.apply e w
    intro _
    have hdetach : Overhears w (w.setClient none) := Overhears.congr rfl rfl
    exact of_append (hdetach.trans (Overhears.log (KeepsTally.log _ fun _ => rfl) rfl))
      [.detached w.self.client] rfl (by simp) (Nat.le_refl _)
  script _ _ _ := congr rfl rfl (Nat.le_refl _)
  note w o hplain hdeed hfate := by
    refine of_append (Overhears.suspends.note w o hplain hdeed hfate) [o] rfl ?_ (Nat.le_refl _)
    rintro t l p (_ | ⟨_, ⟨⟩⟩)
    cases hplain

end Elapses

section Receive

variable [Cipher κ]

/-- A timer does not fire before its time. -/
theorem getResponse_waits (timeout : Nat) (w : World κ) :
    Triple (getResponse timeout) w (fun _ _ => True)
      (fun e w' => e.cls = .timeoutError ∧ w.now + timeout ≤ w'.now) (fun _ => True) := by
  unfold Triple getResponse
  cases hp : popResponse w with
  | some p => trivial
  | none =>
    refine (Elapses.suspends.await_ends ?_).mono (fun _ _ h => h) (fun _ _ h => h)
      fun _ _ => trivial
    intro answer w₁ r w' _ heq
    cases answer with
    | ok =>
      obtain ⟨p, _, heq⟩ := Option.map_eq_some_iff.mp heq
      cases heq
      trivial
    | fail f =>
      simp only [Option.ite_none_right_eq_some, Option.some.injEq, Prod.mk.injEq] at heq
      obtain ⟨htime, rfl, rfl⟩ := heq
      exact ⟨rfl, htime⟩
    | linked rx => cases heq

theorem receive_waits (timeout : Nat) (w : World κ) :
    Triple (receive timeout) w (fun _ _ => True)
      (fun e w' => e.cls = .ninebotTimeoutError ∧ w.now + timeout ≤ w'.now) (fun _ => True) := by
  apply Triple.attempt_bind (X := fun _ w' => w.now + timeout ≤ w'.now)
  · apply (getResponse_waits timeout w).mono_raised
    intro e w' h
    rw [if_pos]
    · exact h.2
    · simp [Exc.isInstance, ErrorClass.mro, h.1]
  · intro a w' h
    exact Triple.pure h
  · intro _ w' h
    exact Triple.raise ⟨rfl, h⟩

end Receive

/-! ## The wait for the button -/

theorem Obs.pairSentAt_background {o : Obs} (h : o.isBackground = true) : o.pairSentAt = none := by
  cases o <;> first | rfl | cases h

/-- Packets wait only because they waited before or have come since. -/
theorem waiting_background {new now : List Obs} (hnew : ∀ o ∈ new, o.isBackground = true)
    (h : waiting (new ++ now) ≠ []) :
    waiting now ≠ [] ∨ ∃ t l p, .received t l p ∈ new := by
  induction new with
  | nil => exact Or.inl h
  | cons o new ih =>
    have ho := hnew o List.mem_cons_self
    by_cases hpacket : ∃ t l p, o = .received t l p
    · obtain ⟨t, l, p, rfl⟩ := hpacket
      exact Or.inr ⟨t, l, p, List.mem_cons_self⟩
    · have hsame : waiting (o :: (new ++ now)) = waiting (new ++ now) := by
        cases o
        case received t l p => exact absurd ⟨t, l, p, rfl⟩ hpacket
        all_goals first | rfl | cases ho
      rw [List.cons_append, hsame] at h
      rcases ih (fun x hx => hnew x (List.mem_cons_of_mem _ hx)) h with hold | ⟨t, l, p, hmem⟩
      · exact Or.inl hold
      · exact Or.inr ⟨t, l, p, List.mem_cons_of_mem _ hmem⟩

/-- A wait from `s` to `t`: it took the interval, or a packet was there; what
    was taken was taken at `t`. -/
structure Fair (s : Nat) (before between : List Obs) (t : Nat) : Prop where
  settled : ∀ e c q i, .taken e c q i ∈ between → e = t
  early : s + pairingRetryInterval ≤ t ∨ waiting before ≠ [] ∨
    ∃ r l q, .received r l q ∈ between ∧ r ≤ t

/-- From `w₀` to `w` every PAIR was in time, and every wait fair. -/
structure Waited (w₀ : World κ) (deadline : Nat) (w : World κ) : Prop where
  trace : w₀.trace <:+ w.trace
  span : ∀ t ∈ w₀.pairTimes w, w₀.now ≤ t ∧ t < deadline
  fair : ∀ s before between again, Resent w₀.trace w.trace s before between again →
    Fair s before between again

/-- And the next PAIR may be sent. -/
structure Due (w₀ : World κ) (deadline : Nat) (w : World κ) : Prop
    extends Waited w₀ deadline w where
  tallied : w.Tallied
  later : w₀.now ≤ w.now
  due : ∀ s before between, Open w₀.trace w.trace s before between → Fair s before between w.now

/-- And the last PAIR waits for its answer. -/
structure Hoping (w₀ : World κ) (deadline : Nat) (w : World κ) : Prop
    extends Waited w₀ deadline w where
  tallied : w.Tallied
  later : w₀.now ≤ w.now
  hoping : ∃ s before new, Open w₀.trace w.trace s before new ∧ s ≤ w.now ∧
    (∀ o ∈ new, o.isBackground = true) ∧ ∀ r l q, .received r l q ∈ new → r ≤ w.now

section Steps

variable {w₀ w w' : World κ} {deadline : Nat}

/-- What was added sends no PAIR. -/
theorem Waited.append (h : Waited w₀ deadline w) (new : List Obs)
    (htrace : w'.trace = new ++ w.trace)
    (hnew : ∀ o ∈ new, o.pairSentAt = none) : Waited w₀ deadline w' := by
  have hsuffix : w₀.trace <:+ w'.trace := htrace ▸ h.trace.trans (List.suffix_append _ _)
  refine ⟨hsuffix, ?_, fun s before between again hresent => ?_⟩
  · have htimes : w₀.pairTimes w' = w₀.pairTimes w := by
      unfold World.pairTimes pairTimesOf
      rw [World.newTrace_trans h.trace (htrace ▸ List.suffix_append _ _), World.newTrace_eq htrace,
        List.reverse_append, List.filterMap_append, List.append_right_eq_self,
        List.filterMap_eq_nil_iff]
      exact fun o ho => hnew o (List.mem_reverse.mp ho)
    rw [htimes]
    exact h.span
  · rw [htrace, resent_append hnew] at hresent
    exact h.fair s before between again hresent

theorem Waited.log (h : Waited w₀ deadline w) {o : Obs} (ho : o.pairSentAt = none) :
    Waited w₀ deadline (w.log o) :=
  h.append [o] rfl (by simpa using ho)

theorem Waited.elapses (h : Waited w₀ deadline w) (hstep : Elapses w w') :
    Waited w₀ deadline w' :=
  h.append _ (World.trace_eq_newTrace hstep.trace) fun o ho =>
    Obs.pairSentAt_background (hstep.background o ho)

/-- Nothing has been sent yet. -/
theorem Due.start (ht : w₀.Tallied) (text : String) :
    Due w₀ deadline (w₀.log (.log .info text)) := by
  have hstart : Waited w₀ deadline w₀ := by
    refine ⟨List.suffix_refl _, ?_, fun _ _ _ _ h => absurd h Resent.not_base⟩
    unfold World.pairTimes
    rw [World.newTrace_self]
    exact List.forall_mem_nil _
  refine ⟨hstart.log rfl, (KeepsTally.log_plain w₀ rfl).keeps ht, Nat.le_refl _, ?_⟩
  intro s before between h
  obtain ⟨_, _, hopen⟩ := h.tail rfl
  exact absurd hopen Open.not_base

/-- PAIR is sent. -/
theorem Due.sent (h : Due w₀ deadline w) (hearly : w.now < deadline) (l : Nat) (challenge : Bytes)
    (state : κ) : Hoping w₀ deadline (w.encrypted l (pairRequest challenge) state) := by
  have hpair : (w.sentObs l (pairRequest challenge)).pairSentAt = some w.now := rfl
  have htrace : (w.encrypted l (pairRequest challenge) state).trace =
      [w.sentObs l (pairRequest challenge)] ++ w.trace := rfl
  have hsuffix : w.trace <:+ (w.encrypted l (pairRequest challenge) state).trace :=
    List.suffix_cons _ _
  have htally : KeepsTally w (w.encrypted l (pairRequest challenge) state) := by
    have hcrypto : KeepsTally w (w.setCrypto { w.self.crypto with state := state }) :=
      KeepsTally.congr rfl rfl
    exact hcrypto.trans (KeepsTally.log_plain _ rfl)
  refine ⟨⟨h.trace.trans hsuffix, ?_, ?_⟩, htally.keeps h.tallied, h.later, ?_⟩
  · intro t ht
    unfold World.pairTimes at ht
    rw [World.newTrace_trans h.trace hsuffix, World.newTrace_eq htrace, List.singleton_append,
      pairTimesOf_cons, List.mem_append] at ht
    rcases ht with hold | hnew
    · exact h.span t hold
    · rw [hpair, Option.toList_some, List.mem_singleton] at hnew
      rw [hnew]
      exact ⟨h.later, hearly⟩
  · intro s before between again hresent
    rcases resent_cons.mp hresent with ⟨hagain, hopen⟩ | hold
    · -- The wait for the last PAIR ends at this moment.
      obtain rfl := Option.some.inj (hpair.symm.trans hagain)
      exact h.due s before between hopen
    · exact h.fair s before between again hold
  · exact ⟨w.now, w.trace, [], Open.of_pair h.trace hpair, Nat.le_refl _, List.forall_mem_nil _,
      fun _ _ _ hmem => by cases hmem⟩

theorem Hoping.elapses (h : Hoping w₀ deadline w) (hstep : Elapses w w') :
    Hoping w₀ deadline w' := by
  obtain ⟨s, before, new, hopen, hs, hnew, hheard⟩ := h.hoping
  have hquiet : ∀ o ∈ w.newTrace w', o.pairSentAt = none := fun o ho =>
    Obs.pairSentAt_background (hstep.background o ho)
  refine ⟨h.toWaited.elapses hstep, hstep.keeps h.tallied, h.later.trans hstep.later, s, before,
    w.newTrace w' ++ new, ?_, hs.trans hstep.later, ?_, ?_⟩
  · rw [World.trace_eq_newTrace hstep.trace]
    exact hopen.append hquiet
  · intro o ho
    exact (List.mem_append.mp ho).elim (hstep.background o) (hnew o)
  · intro r l q hmem
    rcases List.mem_append.mp hmem with hlast | hold
    · exact hstep.heard r l q hlast
    · exact (hheard r l q hold).trans hstep.later

/-- A packet is taken. -/
theorem Hoping.takes (h : Hoping w₀ deadline w) {a : Arrival}
    (hpop : popResponse w = some (a, w')) : Due w₀ deadline w' := by
  obtain ⟨s, before, new, hopen, hs, hnew, hheard⟩ := h.hoping
  obtain ⟨client, htrace⟩ := popResponse_trace hpop
  have hnow : w'.now = w.now := by
    obtain ⟨_, _, rfl⟩ := popResponse_eq hpop
    rfl
  have hqueue : waiting w.trace ≠ [] := by
    obtain ⟨rest, hresponses, _⟩ := popResponse_eq hpop
    rw [← h.tallied.queue, hresponses]
    exact List.cons_ne_nil _ _
  refine ⟨h.toWaited.append [_] htrace (by simp [Obs.pairSentAt]),
    (KeepsTally.take hpop).keeps h.tallied, hnow ▸ h.later, fun s' before' between' hopen' => ?_⟩
  rw [htrace] at hopen'
  obtain ⟨rfl, rfl, rfl⟩ := (hopen.cons (o := .taken w.now client a.packet a.receivedAt)
    rfl).unique hopen'
  rw [hnow]
  refine ⟨?_, Or.inr ?_⟩
  · rintro e c q i (_ | ⟨_, hmem⟩)
    · rfl
    · cases hnew _ hmem
  · -- The packet had been there before, or has come since.
    obtain ⟨first, hsplit, hfirst⟩ := hopen.split
    have hplain : waiting (first :: before') = waiting before' := by
      cases first <;> first | rfl | cases hfirst
    rw [hsplit] at hqueue
    rcases waiting_background hnew hqueue with hold | ⟨r, l, q, hmem⟩
    · exact Or.inl (hplain ▸ hold)
    · exact Or.inr ⟨r, l, q, List.mem_cons_of_mem _ hmem, hheard r l q hmem⟩

/-- The timer fires. -/
theorem Hoping.expires (h : Hoping w₀ deadline w) (hstep : Elapses w w')
    (hover : w.now + pairingRetryInterval ≤ w'.now) : Due w₀ deadline w' := by
  obtain ⟨s, before, new, hopen, hs, hnew, _⟩ := h.hoping
  have hquiet : ∀ o ∈ w.newTrace w', o.pairSentAt = none := fun o ho =>
    Obs.pairSentAt_background (hstep.background o ho)
  refine ⟨h.toWaited.elapses hstep, hstep.keeps h.tallied, h.later.trans hstep.later, ?_⟩
  intro s' before' between' hopen'
  rw [World.trace_eq_newTrace hstep.trace] at hopen'
  obtain ⟨rfl, rfl, rfl⟩ := (hopen.append hquiet).unique hopen'
  refine ⟨?_, Or.inl (by omega)⟩
  intro e c q i hmem
  rcases List.mem_append.mp hmem with hlast | hold
  · cases hstep.background _ hlast
  · cases hnew _ hold

theorem Hoping.writeFails (h : Hoping w₀ deadline w) (hfailed : WriteFails Elapses w w') :
    Waited w₀ deadline w' := by
  cases hfailed with
  | unlinked hstep _ => exact h.toWaited.elapses hstep
  | raised l hstep => exact (h.toWaited.elapses hstep).log rfl

variable [Cipher κ]

/-- Step lemma: one PAIR. -/
theorem Due.send (h : Due w₀ deadline w) (hearly : w.now < deadline) :
    Triple (send (pairRequest w.self.serialChallenge)) w (fun _ => Hoping w₀ deadline)
      (fun _ => Waited w₀ deadline) (Waited w₀ deadline) := by
  refine (Elapses.suspends.send_triple _ w).mono ?_ ?_ ?_
  · rintro _ w' ⟨l, state, _, hstep⟩
    exact (h.sent hearly l _ state).elapses hstep
  · intro e w' hended
    cases hended with
    | down _ _ => exact h.toWaited.log rfl
    | tooLong _ => exact h.toWaited
    | failed _ hfailed _ => exact ((h.sent hearly _ _ _).writeFails hfailed).log rfl
    | foreign _ hfailed _ => exact (h.sent hearly _ _ _).writeFails hfailed
  · rintro w' ⟨l, state, _, hstep⟩
    exact ((h.sent hearly l _ state).elapses hstep).toWaited

/-- Step lemma: the wait for a packet. -/
theorem Hoping.receive (h : Hoping w₀ deadline w) :
    Triple (receive pairingRetryInterval) w (fun _ => Due w₀ deadline)
      (fun _ => Due w₀ deadline) (Waited w₀ deadline) := by
  refine ((Elapses.suspends.receive_pops _ w).and (receive_waits _ w)).mono ?_ ?_ ?_
  · rintro a w' ⟨⟨w₁, hstep, hpop⟩, _⟩
    exact (h.elapses hstep).takes hpop
  · rintro e w' ⟨⟨_, hstep⟩, _, hover⟩
    exact h.expires hstep hover
  · rintro w' ⟨hstep, _⟩
    exact h.toWaited.elapses hstep

/-- Run lemma. -/
theorem awaitPairing_waited (ht : w.Tallied) :
    Waited w (w.now + w.self.pairingTimeout) (awaitPairing w).2 := by
  have hrun : Triple awaitPairing w (fun _ => Waited w (w.now + w.self.pairingTimeout))
      (fun _ => Waited w (w.now + w.self.pairingTimeout))
      (Waited w (w.now + w.self.pairingTimeout)) := by
    refine Triple.bind (Q := fun _ w₁ => Due w (w.now + w.self.pairingTimeout) w₁ ∧
      w₁.now = w.now ∧ w₁.self = w.self) ⟨Due.start ht _, rfl, rfl⟩ ?_
    rintro _ w₁ ⟨h₁, hnow, hself⟩
    apply Triple.get_bind
    rw [hnow, hself]
    refine awaitPairingLoop_triple (I := Due w (w.now + w.self.pairingTimeout))
      (J := Hoping w (w.now + w.self.pairingTimeout)) (fun w' h' hearly => h'.send hearly) ?_
      (fun _ h' => h'.toWaited) (fun _ h' => h'.toWaited) _ h₁
    intro w' h'
    apply h'.receive.mono_ret
    intro a w'' h''
    split
    · exact h''.toWaited
    · exact h''
  exact Triple.iff_last.mp hrun

end Steps

/-! ## Arrivals and the interval -/

/-- Whenever PAIR is sent again, nothing was in the queue when it was sent the
    last time, and no packet came before the interval was over. -/
def Unhurried (w w' : World κ) : Prop :=
  ∀ s before between again, Resent w.trace w'.trace s before between again →
    waiting before = [] ∧
    ∀ t l p, .received t l p ∈ between → s + pairingRetryInterval ≤ t

/-- The client is not held up: when a packet is there before the interval is
    over, it takes one before the interval is over. -/
def Prompt (w w' : World κ) : Prop :=
  ∀ s before between again, Resent w.trace w'.trace s before between again →
    (waiting before ≠ [] ∨
      ∃ t l p, .received t l p ∈ between ∧ t < s + pairingRetryInterval) →
    ∃ e c p i, .taken e c p i ∈ between ∧ e < s + pairingRetryInterval

/-- While the client waits for the button it keeps the interval between two
    PAIRs if nothing is in the queue when it sends one and no packet comes
    before the interval is over; where packets are taken as soon as they are
    there it keeps the interval only then.  And when it does it sends no more of
    them than there is room for. -/
theorem awaitPairing_paced_iff [Cipher κ] {w : World κ} (ht : w.Tallied) :
    (Unhurried w (awaitPairing w).2 →
      Paced pairingRetryInterval (w.pairTimes (awaitPairing w).2)) ∧
    (Prompt w (awaitPairing w).2 →
      (Paced pairingRetryInterval (w.pairTimes (awaitPairing w).2) ↔
        Unhurried w (awaitPairing w).2)) ∧
    (Paced pairingRetryInterval (w.pairTimes (awaitPairing w).2) →
      (w.pairTimes (awaitPairing w).2).length ≤
        w.self.pairingTimeout / pairingRetryInterval + 1) := by
  have h := awaitPairing_waited ht
  -- The interval between two PAIRs, one pair of them at a time.
  have hpaced : Paced pairingRetryInterval (w.pairTimes (awaitPairing w).2) ↔
      ∀ s before between again, Resent w.trace (awaitPairing w).2.trace s before between again →
        s + pairingRetryInterval ≤ again := by
    rw [World.trace_eq_newTrace h.trace]
    exact paced_iff_resent
  have henough : Unhurried w (awaitPairing w).2 →
      Paced pairingRetryInterval (w.pairTimes (awaitPairing w).2) := by
    intro hunhurried
    rw [hpaced]
    intro s before between again hresent
    obtain ⟨hempty, hlate⟩ := hunhurried s before between again hresent
    -- PAIR is sent again early only for a packet that was there, or came, in time.
    rcases (h.fair s before between again hresent).early with hover | hqueue | ⟨r, l, q, hmem, hr⟩
    · exact hover
    · exact absurd hempty hqueue
    · exact (hlate r l q hmem).trans hr
  refine ⟨henough, fun hprompt => ⟨fun hkept => ?_, henough⟩, fun hkept => ?_⟩
  · rw [hpaced] at hkept
    intro s before between again hresent
    -- Whatever is taken ends the wait, and the next PAIR is sent at once.
    have hno : ¬ ∃ e c p i, .taken e c p i ∈ between ∧ e < s + pairingRetryInterval := by
      rintro ⟨e, c, p, i, hmem, hearly⟩
      have hsettled := (h.fair s before between again hresent).settled e c p i hmem
      have hover := hkept s before between again hresent
      omega
    have hquiet := fun hthere => hno (hprompt s before between again hresent hthere)
    refine ⟨?_, fun t l p hmem => ?_⟩
    · by_contra hqueue
      exact hquiet (Or.inl hqueue)
    · by_contra hearly
      exact hquiet (Or.inr ⟨t, l, p, hmem, Nat.lt_of_not_le hearly⟩)
  · exact hkept.length_le (by decide) h.span

/-- A scooter that answers every PAIR at once, and does not accept. -/
def undecided (answers : Nat) : World StubCrypto :=
  let client := { fakeClient none with serialChallenge := serialChallenge }
  World.online client
    ((List.replicate answers
      [.answer .ok, .answer .ok, respond 0 ⟨.ble, .host, .pair, 0, []⟩]).flatten)

/-- All its answers come at the moment at which the wait begins: one PAIR goes
    out for each of them, and more than there is room for. -/
theorem undecided_not_paced :
    ¬ Paced pairingRetryInterval ((undecided 32).pairTimes (awaitPairing (undecided 32)).2) ∧
    (undecided 32).self.pairingTimeout / pairingRetryInterval + 1 <
      ((undecided 32).pairTimes (awaitPairing (undecided 32)).2).length := by
  have htimes : (undecided 32).pairTimes (awaitPairing (undecided 32)).2 =
      List.replicate 32 0 := by decide +kernel
  rw [htimes]
  decide

/-- A scooter that takes its time over the first PAIR, and accepts the second. -/
def hesitant : World StubCrypto :=
  World.online { fakeClient none with serialChallenge := serialChallenge }
    [.answer .ok, .answer .ok, .event (.tick 1200), respond 0 ⟨.ble, .host, .pair, 0, []⟩,
      .answer .ok,
      .answer .ok, .answer .ok, respond 0 pairReply, .answer .ok]

/-- PAIR, and the two chunks that are written for it. -/
def pairSent (t : Nat) : List Obs :=
  [.wrote 0 [54, 0, 0, 0, 0, 0, 0],
    .wrote 0 [90, 165, 14, 61, 33, 93, 0, 78, 50, 71, 88, 50, 51, 49, 56, 48, 48, 48, 50, 49],
    .sent t 0 ⟨[], none, none⟩ (pairRequest serialChallenge)]

theorem hesitant_trace : (awaitPairing hesitant).2.trace =
    [.taken 1200 (some 0) pairReply 9, .received 1200 0 pairReply] ++ (pairSent 1200 ++
      ([.taken 1200 (some 0) ⟨.ble, .host, .pair, 0, []⟩ 4,
        .received 1200 0 ⟨.ble, .host, .pair, 0, []⟩] ++ (pairSent 0 ++
      [.log .info "E2 Pro 0216: press the scooter's power button to pair"]))) := by
  decide +kernel

/-- The first answer is no acceptance, and comes when the interval is over. -/
theorem hesitant_paced : Unhurried hesitant (awaitPairing hesitant).2 ∧
    Paced pairingRetryInterval (hesitant.pairTimes (awaitPairing hesitant).2) ∧
    hesitant.pairTimes (awaitPairing hesitant).2 = [0, 1200] := by
  have htally : hesitant.Tallied := ⟨rfl, fun a ha => by cases ha⟩
  have hunhurried : Unhurried hesitant (awaitPairing hesitant).2 := by
    intro s before between again h
    rw [hesitant_trace, resent_append (by decide)] at h
    simp only [pairSent, List.cons_append, List.nil_append, resent_cons, Obs.pairSentAt,
      reduceCtorEq, false_and, false_or, if_true, pairRequest] at h
    rcases h with ⟨_, hopen⟩ | ⟨_, hopen⟩ | hnone
    · obtain ⟨_, rfl, hopen₁⟩ := hopen.tail rfl
      obtain ⟨_, rfl, hopen₂⟩ := hopen₁.tail rfl
      obtain ⟨_, rfl, hopen₃⟩ := hopen₂.tail rfl
      obtain ⟨_, rfl, hopen₄⟩ := hopen₃.tail rfl
      obtain ⟨rfl, rfl, rfl⟩ := hopen₄.pair rfl
      refine ⟨rfl, fun t l p hmem => ?_⟩
      simp only [List.mem_cons, reduceCtorEq, Obs.received.injEq, List.not_mem_nil, or_false,
        false_or] at hmem
      rw [hmem.1]
      decide
    · obtain ⟨_, _, hopen⟩ := hopen.tail rfl
      exact absurd hopen Open.not_base
    · exact absurd hnone Resent.not_base
  exact ⟨hunhurried, (awaitPairing_paced_iff htally).1 hunhurried, by decide +kernel⟩

end Ninebot
