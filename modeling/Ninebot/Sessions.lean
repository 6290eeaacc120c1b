import Ninebot.Backlog
import Ninebot.StoredKey

/-! # The phases of a session

    On each link the client sends INIT, PING, some PAIRs while it waits for
    the user, one more PAIR, and then only READs; and each of these frames is
    encrypted under the keys that the session has by then.  The cipher, the
    app key and the link are separate fields; the invariant ties them together.

    This file defines:
    - `World.framesOn`: the frames sent on a link, with their keys
    - `FollowsPhases`: they are the beginning of a session
    - `ownInits`: no link was taken for another when INIT was answered
    - `Going`, `Settled`: a session during and after its handshake -/

namespace Ninebot

open Coro

variable {κ : Type}

/-! ## Frames -/

/-- The frame that this sends on link `l`, with the keys that encrypt it. -/
def Obs.frameOn (l : Nat) : Obs → Option (Keys × Packet)
  | .sent _ m keys p => if m = l then some (keys, p) else none
  | _ => none

/-- The frames sent on a link, in order. -/
def World.framesOn (w : World κ) (l : Nat) : List (Keys × Packet) :=
  w.deeds.reverse.filterMap (Obs.frameOn l)

section Frames

variable {w w' : World κ}

theorem World.framesOn_eq (new : List Obs) (h : w'.deeds = new ++ w.deeds) (l : Nat) :
    w'.framesOn l = w.framesOn l ++ new.reverse.filterMap (Obs.frameOn l) := by
  rw [framesOn, framesOn, h, List.reverse_append, List.filterMap_append]

theorem World.framesOn_same {P : Obs → Prop} (h : Does P w w')
    (hP : ∀ o l, P o → o.frameOn l = none) (l : Nat) : w'.framesOn l = w.framesOn l := by
  rw [World.framesOn_eq _ (World.deeds_eq_newDeeds h.trace)]
  have hnone : (w.newDeeds w').reverse.filterMap (Obs.frameOn l) = [] := by
    rw [List.filterMap_eq_nil_iff]
    intro o ho
    exact hP o l (h.deeds o (List.mem_reverse.mp ho))
  rw [hnone, List.append_nil]

/-- A step sends at most the packet `p`, and that on the client's link. -/
inductive Adds (w w' : World κ) (p : Packet) : Prop where
  | nothing : (∀ l, w'.framesOn l = w.framesOn l) → Adds w w' p
  | frame {l : Nat} : w.self.client = some l → (∀ m, m ≠ l → w'.framesOn m = w.framesOn m) →
      w'.framesOn l = w.framesOn l ++ [(w.self.crypto.keys, p)] → Adds w w' p

theorem framesOn_sent {p : Packet} {l : Nat} (new : List Obs)
    (hnew : ∀ o ∈ new, ∀ m, o.frameOn m = none) (hd : w'.deeds = new ++ w.sentObs l p :: w.deeds) :
    (∀ m, m ≠ l → w'.framesOn m = w.framesOn m) ∧
      w'.framesOn l = w.framesOn l ++ [(w.self.crypto.keys, p)] := by
  have hframes : ∀ m, w'.framesOn m =
      w.framesOn m ++ if l = m then [(w.self.crypto.keys, p)] else [] := by
    intro m
    have hall : w'.deeds = (new ++ [w.sentObs l p]) ++ w.deeds := by
      rw [hd, List.append_assoc]
      rfl
    have hnone : new.reverse.filterMap (Obs.frameOn m) = [] :=
      List.filterMap_eq_nil_iff.mpr fun o ho => hnew o (List.mem_reverse.mp ho) m
    rw [World.framesOn_eq _ hall, List.reverse_append, List.filterMap_append, hnone,
      List.append_nil, List.reverse_singleton]
    by_cases hm : l = m
    · simp [Obs.frameOn, World.sentObs, hm]
    · simp [Obs.frameOn, World.sentObs, hm]
  constructor
  · intro m hm
    rw [hframes m, if_neg (Ne.symm hm), List.append_nil]
  · rw [hframes l, if_pos rfl]

theorem Adds.of_sent {p : Packet} {l : Nat} (new : List Obs) (hl : LinkUp w l)
    (hnew : ∀ o ∈ new, ∀ m, o.frameOn m = none) (hd : w'.deeds = new ++ w.sentObs l p :: w.deeds) :
    Adds w w' p := by
  obtain ⟨hothers, hframe⟩ := framesOn_sent new hnew hd
  exact Adds.frame hl.client hothers hframe

theorem Adds.of_none {p : Packet} (new : List Obs) (hnew : ∀ o ∈ new, ∀ m, o.frameOn m = none)
    (hd : w'.deeds = new ++ w.deeds) : Adds w w' p := by
  refine Adds.nothing fun l => ?_
  rw [World.framesOn_eq _ hd, List.filterMap_eq_nil_iff.mpr, List.append_nil]
  exact fun o ho => hnew o (List.mem_reverse.mp ho) l

theorem SendEnds.adds {p : Packet} {res : Res Exc Unit} (h : SendEnds w p res w') :
    Adds w w' p := by
  cases h with
  | down _ _ hd => exact Adds.of_none [_] (by simp [Obs.frameOn]) hd
  | tooLong _ hd => exact Adds.of_none [] (by simp) hd
  | failed hl _ hd => exact Adds.of_sent [_] hl (by simp [Obs.frameOn]) hd
  | foreign hl _ hd => exact Adds.of_sent [] hl (by simp) hd
  | writing hl hd => exact Adds.of_sent [] hl (by simp) hd
  | sent hl hd => exact Adds.of_sent [] hl (by simp) hd

theorem RequestEnds.adds {p : Packet} {res : Res Exc Packet} (h : RequestEnds w p res w') :
    Adds w w' p := by
  cases h with
  | refused hsend => exact hsend.adds
  | waiting hl hd => exact Adds.of_sent [] hl (by simp) hd
  | unanswered hl _ hd => exact Adds.of_sent [_] hl (by simp [Obs.frameOn]) hd
  | answered hl _ _ hd => exact Adds.of_sent [_] hl (by simp [Obs.frameOn]) hd

end Frames

/-! ## Sessions -/

/-- What the frames of one session depend on. -/
structure Terms where
  name : Bytes
  /-- The beginning of the INIT reply. -/
  ble : Bytes
  /-- The rest of it. -/
  challenge : Bytes
  /-- What PING offers. -/
  appKey : Bytes

namespace Terms

variable (t : Terms)

def nameKeys : Keys := { name := t.name }

def bleKeys : Keys := { name := t.name, bleData := some t.ble }

def sessionKeys : Keys := { name := t.name, bleData := some t.ble, appData := some t.appKey }

def initFrame : Keys × Packet := (t.nameKeys, initRequest)

def pingFrame : Keys × Packet := (t.bleKeys, pingRequest t.appKey)

/-- A PAIR that waits for the user. -/
def waitFrame : Keys × Packet := (t.bleKeys, pairRequest t.challenge)

/-- The closing PAIR. -/
def closeFrame : Keys × Packet := (t.sessionKeys, pairRequest t.challenge)

/-- INIT, PING and the PAIRs that wait. -/
def greeting (waits : Nat) : List (Keys × Packet) :=
  t.initFrame :: t.pingFrame :: List.replicate waits t.waitFrame

/-- The frames of a whole handshake, up to the verification. -/
def opening (waits : Nat) : List (Keys × Packet) := t.greeting waits ++ [t.closeFrame]

def IsRead (f : Keys × Packet) : Prop := f.1 = t.sessionKeys ∧ f.2.command = .read

theorem greeting_succ (waits : Nat) :
    t.greeting (waits + 1) = t.greeting waits ++ [t.waitFrame] := by
  rw [greeting, greeting, List.replicate_succ']
  rfl

theorem opening_no_read {waits : Nat} {f : Keys × Packet} (h : f ∈ t.opening waits) :
    f.2.command ≠ .read := by
  have hcases : f = t.initFrame ∨ f = t.pingFrame ∨ f = t.waitFrame ∨ f = t.closeFrame := by
    simp only [opening, greeting, List.cons_append, List.mem_cons, List.mem_append,
      List.mem_replicate, List.not_mem_nil, or_false] at h
    tauto
  rcases hcases with rfl | rfl | rfl | rfl <;> exact Command.noConfusion

end Terms

/-- The INIT of link `l` was answered with the key and the challenge of `t`,
    and this reply came over link `l`. -/
def InitAnswered (w : World κ) (l : Nat) (t : Terms) : Prop :=
  ∃ r s i, .answered (some l) initRequest r i ∈ w.trace ∧ w.at i = some (.received s l r) ∧
    appKeyLength ≤ r.data.length ∧ t.ble = r.data.take appKeyLength ∧
    t.challenge = r.data.drop appKeyLength

def PingAnswered (w : World κ) (l : Nat) (t : Terms) : Prop :=
  ∃ r i, .answered (some l) (pingRequest t.appKey) r i ∈ w.trace

/-- The PING of link `l` found the key paired, or a later packet accepted the pairing. -/
def Paired (w : World κ) (l : Nat) (t : Terms) : Prop :=
  ∃ r i, .answered (some l) (pingRequest t.appKey) r i ∈ w.trace ∧
    (r.index ≠ 0 ∨ ∃ s p j, .taken s (some l) p j ∈ w.trace ∧ acceptsPairing p = true)

/-- The closing PAIR of link `l` was answered. -/
def Closed (w : World κ) (l : Nat) (t : Terms) : Prop :=
  ∃ r i, .answered (some l) (pairRequest t.challenge) r i ∈ w.trace

section Later

variable {w w' : World κ} {l : Nat} {t : Terms}

theorem InitAnswered.later (h : InitAnswered w l t) (hw : w.trace <:+ w'.trace) :
    InitAnswered w' l t := by
  obtain ⟨r, s, i, hmem, hat, hrest⟩ := h
  exact ⟨r, s, i, hw.subset hmem, World.at_later hw hat, hrest⟩

theorem PingAnswered.later (h : PingAnswered w l t) (hw : w.trace <:+ w'.trace) :
    PingAnswered w' l t := by
  obtain ⟨r, i, hmem⟩ := h
  exact ⟨r, i, hw.subset hmem⟩

theorem Paired.later (h : Paired w l t) (hw : w.trace <:+ w'.trace) : Paired w' l t := by
  obtain ⟨r, i, hmem, hpaired⟩ := h
  refine ⟨r, i, hw.subset hmem, hpaired.imp id ?_⟩
  intro htaken
  obtain ⟨s, p, j, hp, haccepts⟩ := htaken
  exact ⟨s, p, j, hw.subset hp, haccepts⟩

theorem Closed.later (h : Closed w l t) (hw : w.trace <:+ w'.trace) : Closed w' l t := by
  obtain ⟨r, i, hmem⟩ := h
  exact ⟨r, i, hw.subset hmem⟩

end Later

/-- The frames of link `l` are the beginning of a session with terms `t`, PING
    came after this link's INIT reply, and READs after its pairing. -/
structure FollowsPhases (w : World κ) (l : Nat) (t : Terms) : Prop where
  inOrder : ∃ waits reads, (∀ f ∈ reads, t.IsRead f) ∧ w.framesOn l <+: t.opening waits ++ reads
  init : 1 < (w.framesOn l).length → InitAnswered w l t
  paired : ∀ f ∈ w.framesOn l, f.2.command = .read → Paired w l t ∧ Closed w l t

namespace FollowsPhases

variable {w w' : World κ} {l : Nat} {t : Terms}

theorem later (h : FollowsPhases w l t) (hw : w.trace <:+ w'.trace)
    (hframes : w'.framesOn l = w.framesOn l) : FollowsPhases w' l t := by
  obtain ⟨horder, hinit, hpaired⟩ := h
  constructor
  · rwa [hframes]
  · intro hlen
    rw [hframes] at hlen
    exact (hinit hlen).later hw
  · intro f hf hread
    rw [hframes] at hf
    exact ⟨(hpaired f hf hread).1.later hw, (hpaired f hf hread).2.later hw⟩

/-- Before INIT is answered. -/
theorem of_init (h : w.framesOn l = [] ∨ w.framesOn l = [t.initFrame]) : FollowsPhases w l t := by
  rcases h with hnone | hone
  · exact ⟨⟨0, [], by simp, by simp [hnone]⟩, by simp [hnone], by simp [hnone]⟩
  · refine ⟨⟨0, [], by simp, ?_⟩, by simp [hone], ?_⟩
    · rw [hone, List.append_nil]
      exact ⟨[t.pingFrame, t.closeFrame], rfl⟩
    · intro f hf hread
      rw [hone, List.mem_singleton] at hf
      subst hf
      cases hread

/-- During the rest of a handshake. -/
theorem of_greeting {waits : Nat} (hframes : w.framesOn l <+: t.opening waits)
    (hinit : 1 < (w.framesOn l).length → InitAnswered w l t) : FollowsPhases w l t := by
  refine ⟨⟨waits, [], by simp, by rwa [List.append_nil]⟩, hinit, ?_⟩
  intro f hf hread
  exact absurd hread (t.opening_no_read (hframes.subset hf))

theorem of_reads {waits : Nat} {reads : List (Keys × Packet)} (hreads : ∀ f ∈ reads, t.IsRead f)
    (hframes : w.framesOn l = t.opening waits ++ reads) (hinit : InitAnswered w l t)
    (hpaired : Paired w l t) (hclosed : reads ≠ [] → Closed w l t) : FollowsPhases w l t := by
  refine ⟨⟨waits, reads, hreads, by rw [hframes]⟩, fun _ => hinit, ?_⟩
  intro f hf hread
  refine ⟨hpaired, hclosed ?_⟩
  rw [hframes] at hf
  rcases List.mem_append.mp hf with hopening | hmem
  · exact absurd hread (t.opening_no_read hopening)
  · exact List.ne_nil_of_mem hmem

end FollowsPhases

/-! ## Whose reply -/

/-- The packet `a` was received over link `l`. -/
def cameOver (now : List Obs) (l : Nat) (a : Arrival) : Bool :=
  match now.reverse[a.receivedAt]? with
  | some (.received _ m p) => m = l ∧ p = a.packet
  | _ => false

/-- If INIT is waited for, the first INIT reply in the queue came over the
    link that INIT was sent on. -/
def ownInit (now : List Obs) : Bool :=
  match awaited now, firstFor initRequest now with
  | some (l, q), some a => q ≠ initRequest ∨ cameOver now l a = true
  | _, _ => true

/-- At every moment so far. -/
def ownInits (trace : List Obs) : Bool := trace.tails.all ownInit

theorem ownInits_earlier {now later : List Obs} (h : ownInits later = true) (hw : now <:+ later) :
    ownInits now = true := by
  rw [ownInits, List.all_eq_true] at h ⊢
  intro moment hmoment
  exact h moment ((List.mem_tails _ _).mpr (((List.mem_tails _ _).mp hmoment).trans hw))

theorem ownInits_at {w : World κ} (h : ownInits w.trace = true) {now : List Obs}
    (hnow : now <:+ w.trace) {l : Nat} (hl : awaited now = some (l, initRequest)) {a : Arrival}
    (ha : firstFor initRequest now = some a) :
    ∃ s, w.at a.receivedAt = some (.received s l a.packet) := by
  have hown := List.all_eq_true.mp h now ((List.mem_tails _ _).mpr hnow)
  rw [ownInit, hl, ha] at hown
  have hcame : cameOver now l a = true := by simpa using hown
  unfold cameOver at hcame
  split at hcame
  · rename_i s m p hat
    obtain ⟨rfl, rfl⟩ : m = l ∧ p = a.packet := by simpa using hcame
    exact ⟨s, World.at_later (w := { w with trace := now }) hnow hat⟩
  · cases hcame

/-- The same as `InitAnswered`, if no INIT was answered over another link. -/
def InitHeard (w : World κ) (l : Nat) (t : Terms) : Prop :=
  ∃ r i, .answered (some l) initRequest r i ∈ w.trace ∧
    (ownInits w.trace = true → ∃ s, w.at i = some (.received s l r)) ∧
    appKeyLength ≤ r.data.length ∧ t.ble = r.data.take appKeyLength ∧
    t.challenge = r.data.drop appKeyLength

theorem InitHeard.later {w w' : World κ} {l : Nat} {t : Terms} (h : InitHeard w l t)
    (hw : w.trace <:+ w'.trace) : InitHeard w' l t := by
  obtain ⟨r, i, hmem, hcame, hrest⟩ := h
  refine ⟨r, i, hw.subset hmem, fun hown => ?_, hrest⟩
  obtain ⟨s, hat⟩ := hcame (ownInits_earlier hown hw)
  exact ⟨s, World.at_later hw hat⟩

theorem InitHeard.own {w : World κ} {l : Nat} {t : Terms} (h : InitHeard w l t)
    (hown : ownInits w.trace = true) : InitAnswered w l t := by
  obtain ⟨r, i, hmem, hcame, hrest⟩ := h
  obtain ⟨s, hat⟩ := hcame hown
  exact ⟨r, s, i, hmem, hat, hrest⟩

/-! ## All links together -/

/-- If every INIT was answered over its own link, every link's frames are the
    beginning of a session of this client; a link that is still to come has none. -/
structure Moving (who : String) (w : World κ) : Prop where
  name : w.self.name = who
  phases : ∀ l, ∃ t : Terms, t.name = who.toUTF8.data.toList ∧
    (ownInits w.trace = true → FollowsPhases w l t)
  fresh : ∀ l, w.opened ≤ l → w.framesOn l = []

/-- Link `l` has been greeted, and the client's keys are those of its session. -/
structure Ready (w : World κ) (l : Nat) (t : Terms) : Prop where
  frames : ∃ waits reads, (∀ f ∈ reads, t.IsRead f) ∧ w.framesOn l = t.opening waits ++ reads
  keys : w.self.crypto.keys = t.sessionKeys
  appKey : w.self.appKey = t.appKey
  challenge : w.self.serialChallenge = t.challenge
  init : InitHeard w l t
  paired : Paired w l t
  closed : Closed w l t

/-- Between polls: the client's link, if it has one, is ready. -/
structure Settled (who : String) (w : World κ) : Prop where
  moving : Moving who w
  ready : ∀ l, w.self.client = some l → l < w.opened ∧
    ∃ t : Terms, t.name = who.toUTF8.data.toList ∧ Ready w l t

section Steps

variable {who : String} {w w' : World κ}

theorem Moving.later (h : Moving who w) (hw : w.trace <:+ w'.trace)
    (hname : w'.self.name = w.self.name) (hopened : w.opened ≤ w'.opened)
    (hframes : ∀ l, w'.framesOn l = w.framesOn l) : Moving who w' := by
  refine ⟨hname.trans h.name, fun l => ?_, fun l hl => ?_⟩
  · obtain ⟨t, ht, hphases⟩ := h.phases l
    exact ⟨t, ht, fun hown => (hphases (ownInits_earlier hown hw)).later hw (hframes l)⟩
  · rw [hframes]
    exact h.fresh l (Nat.le_trans hopened hl)

theorem Settled.later (h : Settled who w) (hs : SameSession w w')
    (hframes : ∀ l, w'.framesOn l = w.framesOn l) : Settled who w' := by
  have hopened : w'.opened = w.opened := congrArg Session.opened hs.session
  have hname : w'.self.name = w.self.name := congrArg Session.name hs.session
  have hkeys : w'.self.crypto.keys = w.self.crypto.keys := congrArg Session.keys hs.session
  refine ⟨h.moving.later hs.trace hname (Nat.le_of_eq hopened.symm) hframes, fun l hl => ?_⟩
  obtain ⟨hlt, t, ht, hready⟩ := h.ready l (hs.held hl)
  obtain ⟨hframesₗ, hk, happ, hchallenge, hinit, hpaired, hclosed⟩ := hready
  refine ⟨hopened ▸ hlt, t, ht, ?_, hkeys.trans hk, ?_, ?_, hinit.later hs.trace,
    hpaired.later hs.trace, hclosed.later hs.trace⟩
  · rwa [hframes]
  · exact (congrArg Session.appKey hs.session).trans happ
  · exact (congrArg Session.serialChallenge hs.session).trans hchallenge

/-- What happens while the client waits sends nothing. -/
theorem framesOn_idle (h : Idle w w') (l : Nat) : w'.framesOn l = w.framesOn l := by
  rw [World.framesOn, World.framesOn, h.deeds]

theorem framesOn_linkDeeds (h : Does (·.isLinkDeed = true) w w') (l : Nat) :
    w'.framesOn l = w.framesOn l := by
  refine World.framesOn_same h ?_ l
  intro o l ho
  cases o <;> first | rfl | cases ho

/-- What READs add: frames of READs, to the client's link and under its keys. -/
theorem framesOn_reads (h : Sends (·.command = .read) w w') :
    ∃ reads : List (Keys × Packet),
      (∀ f ∈ reads, f.1 = w.self.crypto.keys ∧ f.2.command = .read) ∧
      (∀ l, w.self.client = some l → w'.framesOn l = w.framesOn l ++ reads) ∧
      ∀ l, w.self.client ≠ some l → w'.framesOn l = w.framesOn l := by
  have heq := World.framesOn_eq _ (World.deeds_eq_newDeeds h.session.trace)
  have hsent : ∀ l, ∀ f ∈ (w.newDeeds w').reverse.filterMap (Obs.frameOn l),
      (f.1 = w.self.crypto.keys ∧ f.2.command = .read) ∧ w.self.client = some l := by
    intro l f hf
    obtain ⟨o, ho, hframe⟩ := List.mem_filterMap.mp hf
    cases o
    case sent time m keys p =>
      obtain ⟨hread, hclient, hkeys⟩ := h.sent time m keys p (List.mem_reverse.mp ho)
      by_cases hm : m = l
      · simp only [Obs.frameOn, hm, if_true, Option.some.injEq] at hframe
        subst hframe
        exact ⟨⟨hkeys, hread⟩, hm ▸ hclient⟩
      · simp [Obs.frameOn, hm] at hframe
    all_goals cases hframe
  -- Nothing is sent on a link that the client does not have.
  have hother : ∀ l, w.self.client ≠ some l → w'.framesOn l = w.framesOn l := by
    intro l hl
    have hnone : (w.newDeeds w').reverse.filterMap (Obs.frameOn l) = [] := by
      refine List.eq_nil_iff_forall_not_mem.mpr fun f hf => ?_
      exact hl (hsent l f hf).2
    rw [heq, hnone, List.append_nil]
  cases hc : w.self.client with
  | none =>
    refine ⟨[], by simp, fun l hl => ?_, fun l _ => hother l (by rw [hc]; simp)⟩
    cases hl
  | some l =>
    refine ⟨_, fun f hf => (hsent l f hf).1, fun m hm => ?_, fun m hm => hother m (by rwa [hc])⟩
    cases hm
    exact heq l

end Steps

/-! ## A session that is set up -/

/-- Since `w₀`, only link `l` has been used; it carries `frames` so far, and
    the client's keys are `keys`. -/
structure Going (w₀ w : World κ) (l : Nat) (t : Terms) (frames : List (Keys × Packet))
    (keys : Keys) : Prop where
  trace : w₀.trace <:+ w.trace
  name : w.self.name = w₀.self.name
  opened : w.opened = w₀.opened
  others : ∀ m, m ≠ l → w.framesOn m = w₀.framesOn m
  frames : w.framesOn l = frames
  client : ∀ m, w.self.client = some m → m = l
  keys : w.self.crypto.keys = keys
  appKey : w.self.appKey = t.appKey
  challenge : w.self.serialChallenge = t.challenge

namespace Going

variable {who : String} {w₀ w w' : World κ} {l : Nat} {t : Terms}
  {frames : List (Keys × Packet)} {keys : Keys}

theorem step (h : Going w₀ w l t frames keys) (hs : SameSession w w')
    {frames' : List (Keys × Packet)} (hl : w'.framesOn l = frames')
    (hothers : ∀ m, m ≠ l → w'.framesOn m = w.framesOn m) : Going w₀ w' l t frames' keys where
  trace := h.trace.trans hs.trace
  name := (congrArg Session.name hs.session).trans h.name
  opened := (congrArg Session.opened hs.session).trans h.opened
  others m hm := (hothers m hm).trans (h.others m hm)
  frames := hl
  client m hm := h.client m (hs.held hm)
  keys := (congrArg Session.keys hs.session).trans h.keys
  appKey := (congrArg Session.appKey hs.session).trans h.appKey
  challenge := (congrArg Session.serialChallenge hs.session).trans h.challenge

theorem idle (h : Going w₀ w l t frames keys) (hi : Idle w w') : Going w₀ w' l t frames keys :=
  h.step hi.session ((framesOn_idle hi l).trans h.frames) fun m _ => framesOn_idle hi m

/-- Sending adds one frame or none. -/
theorem adds (h : Going w₀ w l t frames keys) (hs : SameSession w w') {p : Packet}
    (ha : Adds w w' p) : Going w₀ w' l t frames keys ∨
      (w.self.client = some l ∧ Going w₀ w' l t (frames ++ [(keys, p)]) keys) := by
  cases ha with
  | nothing hsame => exact Or.inl (h.step hs ((hsame l).trans h.frames) fun m _ => hsame m)
  | @frame m hclient hothers hframe =>
    obtain rfl := h.client m hclient
    refine Or.inr ⟨hclient, h.step hs ?_ hothers⟩
    rw [hframe, h.frames, h.keys]

/-- The other links are as they were. -/
theorem moving (h : Going w₀ w l t frames keys) (h₀ : Moving who w₀) (hl : l < w₀.opened)
    {t' : Terms} (ht : t'.name = who.toUTF8.data.toList)
    (hphases : ownInits w.trace = true → FollowsPhases w l t') :
    Moving who w := by
  refine ⟨h.name.trans h₀.name, fun m => ?_, fun m hm => ?_⟩
  · by_cases hml : m = l
    · subst hml
      exact ⟨t', ht, hphases⟩
    · obtain ⟨u, hu, hfollows⟩ := h₀.phases m
      exact ⟨u, hu, fun hown =>
        (hfollows (ownInits_earlier hown h.trace)).later h.trace (h.others m hml)⟩
  · rw [h.opened] at hm
    rw [h.others m (by omega)]
    exact h₀.fresh m hm

variable [Cipher κ]

/-- A request of the session: its frame is added, and if the client still has
    the link, its answer came on it. -/
theorem request (h : Going w₀ w l t frames keys) (p : Packet) :
    Triple (request p) w
      (fun r w' => Going w₀ w' l t (frames ++ [(keys, p)]) keys ∧ w.self.client = some l ∧
        w.trace <:+ w'.trace ∧
        (w'.self.client ≠ none → ∃ i, .answered (some l) p r i ∈ w'.trace ∧
          w'.deeds.head? = some (.answered (some l) p r i)))
      (fun _ w' => Going w₀ w' l t frames keys ∨
        (w.self.client = some l ∧ w.trace <:+ w'.trace ∧
          Going w₀ w' l t (frames ++ [(keys, p)]) keys))
      (fun w' => Going w₀ w' l t frames keys ∨
        (w.self.client = some l ∧ w.trace <:+ w'.trace ∧
          Going w₀ w' l t (frames ++ [(keys, p)]) keys)) := by
  have hends : ∀ {res w'}, SameSession w w' ∧ RequestEnds w p res w' →
      Going w₀ w' l t frames keys ∨ (w.self.client = some l ∧ w.trace <:+ w'.trace ∧
        Going w₀ w' l t (frames ++ [(keys, p)]) keys) := by
    intro res w' hw'
    refine (h.adds hw'.1 hw'.2.adds).imp id fun hadded => ?_
    exact ⟨hadded.1, hw'.1.trace, hadded.2⟩
  refine (request_triple p none w).mono ?_ (fun _ _ => hends) (fun _ => hends)
  intro r w' hw'
  obtain ⟨hs, hended⟩ := hw'
  cases hended with
  | @answered m l' _ i _ hm _ hclient hd =>
    obtain rfl := h.client m hm.client
    obtain ⟨hothers, hframe⟩ := framesOn_sent [_] (by simp [Obs.frameOn]) hd
    refine ⟨h.step hs ?_ hothers, hm.client, hs.trace, fun hsome => ⟨i, ?_⟩⟩
    · rw [hframe, h.frames, h.keys]
    · -- The client still has the link, so the answer came on it.
      have hstill : w'.self.client = some m := by
        rcases hs.client with hc | hc
        · exact hc.trans hm.client
        · exact absurd hc hsome
      have hhead : w'.deeds.head? = some (.answered (some m) p r i) := by
        rw [hd, hclient m hstill, List.head?_cons]
      exact ⟨(List.mem_filter.mp (List.mem_of_head? hhead)).1, hhead⟩

omit [Cipher κ] in
theorem bleData (h : Going w₀ w l t [t.initFrame] t.nameKeys) (init : Bytes) :
    Going w₀ (w.setBleData init) l
      { t with ble := init.take appKeyLength, challenge := init.drop appKeyLength }
      [t.initFrame] (Terms.bleKeys
        { t with ble := init.take appKeyLength, challenge := init.drop appKeyLength }) := by
  obtain ⟨htrace, hname, hopened, hothers, hframes, hclient, hkeys, happ, _⟩ := h
  refine ⟨htrace, hname, hopened, hothers, hframes, hclient, ?_, happ, rfl⟩
  show { w.self.crypto.keys with bleData := some (init.take appKeyLength) } = _
  rw [hkeys]
  rfl

omit [Cipher κ] in
theorem appData (h : Going w₀ w l t frames t.bleKeys) :
    Going w₀ w.setAppData l t frames t.sessionKeys := by
  obtain ⟨htrace, hname, hopened, hothers, hframes, hclient, hkeys, happ, hchallenge⟩ := h
  refine ⟨htrace, hname, hopened, hothers, hframes, hclient, ?_, happ, hchallenge⟩
  show { w.self.crypto.keys with appData := some w.self.appKey } = _
  rw [hkeys, happ]
  rfl

end Going

/-! ## The handshake, stage by stage -/

section Handshake

variable {who : String} {w₀ w w' : World κ} {l : Nat}

/-- INIT has been answered. -/
def Greeted (who : String) (w₀ : World κ) (l : Nat) (w : World κ) : Prop :=
  ∃ t : Terms, t.name = who.toUTF8.data.toList ∧ Going w₀ w l t [t.initFrame] t.bleKeys ∧
    (w.self.client ≠ none → InitHeard w l t)

/-- PING has been answered, and the user is waited for. -/
def Waiting (who : String) (w₀ : World κ) (l : Nat) (w : World κ) : Prop :=
  ∃ (t : Terms) (waits : Nat), t.name = who.toUTF8.data.toList ∧
    Going w₀ w l t (t.greeting waits) t.bleKeys ∧ InitHeard w l t ∧
    (w.self.client ≠ none → PingAnswered w l t)

/-- The key is paired, and the session key is set. -/
def Accepted (who : String) (w₀ : World κ) (l : Nat) (w : World κ) : Prop :=
  ∃ (t : Terms) (waits : Nat), t.name = who.toUTF8.data.toList ∧
    Going w₀ w l t (t.greeting waits) t.sessionKeys ∧ InitHeard w l t ∧
    (w.self.client ≠ none → Paired w l t)

/-- The closing PAIR has been answered, and registers are read. -/
def Reading (who : String) (w₀ : World κ) (l : Nat) (w : World κ) : Prop :=
  ∃ (t : Terms) (waits : Nat) (reads : List (Keys × Packet)), t.name = who.toUTF8.data.toList ∧
    (∀ f ∈ reads, t.IsRead f) ∧ Going w₀ w l t (t.opening waits ++ reads) t.sessionKeys ∧
    InitHeard w l t ∧ Paired w l t ∧ (w.self.client ≠ none → Closed w l t) ∧
    (reads ≠ [] → Closed w l t)

theorem Going.moving_greeting {t : Terms} {waits : Nat} {frames : List (Keys × Packet)}
    {keys : Keys} (h : Going w₀ w l t frames keys) (h₀ : Moving who w₀) (hl : l < w₀.opened)
    (ht : t.name = who.toUTF8.data.toList) (hframes : frames <+: t.opening waits)
    (hinit : InitHeard w l t) : Moving who w := by
  have hprefix : w.framesOn l <+: t.opening waits := by rwa [h.frames]
  exact h.moving h₀ hl ht fun hown => FollowsPhases.of_greeting hprefix fun _ => hinit.own hown

theorem greeting_begins (t : Terms) (waits : Nat) : t.greeting waits <+: t.opening waits :=
  List.prefix_append _ _

theorem Waiting.moving (h : Waiting who w₀ l w) (h₀ : Moving who w₀) (hl : l < w₀.opened) :
    Moving who w := by
  obtain ⟨t, waits, ht, hgoing, hinit, _⟩ := h
  exact hgoing.moving_greeting h₀ hl ht (greeting_begins t waits) hinit

theorem Waiting.idle (h : Waiting who w₀ l w) (hi : Idle w w') : Waiting who w₀ l w' := by
  obtain ⟨t, waits, ht, hgoing, hinit, hping⟩ := h
  exact ⟨t, waits, ht, hgoing.idle hi, hinit.later hi.session.trace, fun hsome =>
    (hping (hi.session.held_some hsome)).later hi.session.trace⟩

theorem Reading.moving (h : Reading who w₀ l w) (h₀ : Moving who w₀) (hl : l < w₀.opened) :
    Moving who w := by
  obtain ⟨t, waits, reads, ht, hreads, hgoing, hinit, hpaired, _, hclosed⟩ := h
  exact hgoing.moving h₀ hl ht fun hown =>
    FollowsPhases.of_reads hreads hgoing.frames (hinit.own hown) hpaired hclosed

/-- A handshake that is complete leaves the link ready. -/
theorem Reading.settled (h : Reading who w₀ l w) (h₀ : Moving who w₀) (hl : l < w₀.opened) :
    Settled who w := by
  refine ⟨h.moving h₀ hl, fun m hm => ?_⟩
  obtain ⟨t, waits, reads, ht, hreads, hgoing, hinit, hpaired, hclosed, _⟩ := h
  obtain rfl := hgoing.client m hm
  refine ⟨hgoing.opened ▸ hl, t, ht, ⟨waits, reads, hreads, hgoing.frames⟩, hgoing.keys,
    hgoing.appKey, hgoing.challenge, hinit, hpaired, hclosed ?_⟩
  rw [hm]
  simp

theorem Reading.reads (h : Reading who w₀ l w) (hr : Sends (·.command = .read) w w') :
    Reading who w₀ l w' := by
  obtain ⟨t, waits, reads, ht, hreads, hgoing, hinit, hpaired, hclosed, hread⟩ := h
  obtain ⟨more, hmore, hadded, hsame⟩ := framesOn_reads hr
  have hw := hr.session.trace
  have hclosed' : w'.self.client ≠ none → Closed w' l t := fun hsome =>
    (hclosed (hr.session.held_some hsome)).later hw
  have hothers : ∀ m, m ≠ l → w'.framesOn m = w.framesOn m := by
    intro m hm
    refine hsame m fun hc => hm (hgoing.client m hc)
  -- The frames are added to the link that the client holds.
  by_cases hc : w.self.client = some l
  · have hframes : w'.framesOn l = t.opening waits ++ (reads ++ more) := by
      rw [hadded l hc, hgoing.frames, List.append_assoc]
    refine ⟨t, waits, reads ++ more, ht, ?_, hgoing.step hr.session hframes hothers,
      hinit.later hw, hpaired.later hw, hclosed', fun _ => ?_⟩
    · intro f hf
      rcases List.mem_append.mp hf with hold | hnew
      · exact hreads f hold
      · obtain ⟨hkeys, hcommand⟩ := hmore f hnew
        exact ⟨hkeys.trans hgoing.keys, hcommand⟩
    · refine (hclosed ?_).later hw
      rw [hc]
      simp
  · have hframes : w'.framesOn l = t.opening waits ++ reads := by
      rw [hsame l hc, hgoing.frames]
    exact ⟨t, waits, reads, ht, hreads, hgoing.step hr.session hframes hothers, hinit.later hw,
      hpaired.later hw, hclosed', fun hne => (hread hne).later hw⟩

variable [Cipher κ]

theorem sends_read (register : Register) (word : Nat) (n : UInt8) :
    Moves (Sends (·.command = .read)) (request (readRequest register word n) : M κ Packet) :=
  request_sends (P := (·.command = .read)) rfl none

theorem awaitPairing_phases (h₀ : Moving who w₀) (hl : l < w₀.opened)
    (h : Waiting who w₀ l w) :
    Triple awaitPairing w (fun _ w' => Accepted who w₀ l w'.setAppData)
      (fun _ => Moving who) (Moving who) := by
  refine awaitPairing_triple (I := Waiting who w₀ l) h ?_ ?_ ?_
    (fun w' hw' => hw'.moving h₀ hl) fun w' hw' => hw'.moving h₀ hl
  · intro w' text hw'
    exact hw'.idle (Idle.log w' _ rfl)
  · -- One more PAIR, or a link that is gone.
    intro w' hw'
    have hends : ∀ {res w''}, SameSession w' w'' ∧ SendEnds w' (pairRequest w'.self.serialChallenge)
        res w'' → Waiting who w₀ l w'' := by
      intro res w'' hsend
      obtain ⟨t, waits, ht, hgoing, hinit, hping⟩ := hw'
      have htrace := hsend.1.trace
      have hping' : w''.self.client ≠ none → PingAnswered w'' l t := fun hsome =>
        (hping (hsend.1.held_some hsome)).later htrace
      rcases hgoing.adds hsend.1 hsend.2.adds with hsame | ⟨_, hadded⟩
      · exact ⟨t, waits, ht, hsame, hinit.later htrace, hping'⟩
      · refine ⟨t, waits + 1, ht, ?_, hinit.later htrace, hping'⟩
        rw [t.greeting_succ]
        rw [hgoing.challenge] at hadded
        exact hadded
    refine (((SameSession.asks.send _).triple w').and (send_triple _ w')).mono ?_ ?_ ?_
    · intro _ w'' hsend
      exact hends hsend
    · intro _ w'' hsend
      exact (hends hsend).moving h₀ hl
    · intro w'' hsend
      exact (hends hsend).moving h₀ hl
  · intro w' hw'
    refine (((Idle.waits.receive _).triple w').and (receive_took _ w')).mono ?_ ?_ ?_
    · intro a w'' hheard
      obtain ⟨hidle, rest, htook, _⟩ := hheard
      have hwaiting := hw'.idle hidle
      by_cases haccepts : acceptsPairing a.packet
      · rw [if_pos haccepts]
        obtain ⟨t, waits, ht, hgoing, hinit, hping⟩ := hwaiting
        refine ⟨t, waits, ht, hgoing.appData, hinit, fun hsome => ?_⟩
        -- The packet was taken while the client had the link.
        obtain ⟨r, i, hmem⟩ := hping hsome
        obtain ⟨m, hm⟩ := Option.ne_none_iff_exists'.mp hsome
        have hclient : w''.self.client = some m := hm
        obtain rfl := hgoing.client m hclient
        have htaken : .taken w''.now (some m) a.packet a.receivedAt ∈ w''.trace := by
          rw [htook, hclient]
          exact List.mem_cons_self
        exact ⟨r, i, hmem, Or.inr ⟨_, a.packet, a.receivedAt, htaken, haccepts⟩⟩
      · rw [if_neg haccepts]
        exact hwaiting
    · intro _ w'' hheard
      exact hw'.idle hheard.1
    · intro w'' hheard
      exact (hw'.idle hheard.1).moving h₀ hl

/-- INIT, under the name key. -/
theorem init_phases (h₀ : Moving who w₀) (hl : l < w₀.opened) {t : Terms}
    (ht : t.name = who.toUTF8.data.toList) (h : Going w₀ w l t [] t.nameKeys) (htally : w.Tallied) :
    Triple (request initRequest) w
      (fun r w' => if r.data.length < appKeyLength then Moving who w'
        else Greeted who w₀ l (w'.setBleData r.data))
      (fun _ => Moving who) (Moving who) := by
  have hfailed : ∀ {w' : World κ}, (Going w₀ w' l t [] t.nameKeys ∨ (w.self.client = some l ∧
      w.trace <:+ w'.trace ∧ Going w₀ w' l t ([] ++ [(t.nameKeys, initRequest)]) t.nameKeys)) →
      Moving who w' := by
    intro w' hw'
    rcases hw' with hnone | ⟨_, _, hone⟩
    · exact hnone.moving h₀ hl ht fun _ => FollowsPhases.of_init (Or.inl hnone.frames)
    · exact hone.moving h₀ hl ht fun _ => FollowsPhases.of_init (Or.inr hone.frames)
  refine ((h.request initRequest).and (request_heard htally none)).mono ?_
    (fun _ _ hw' => hfailed hw'.1) (fun _ hw' => hfailed hw'.1)
  intro r w₁ h₁
  obtain ⟨⟨hgoing, hclient, htrace, hanswered⟩, m, now, a, c, hlink, hnow, hawaited, hfirst, hr,
    hhead⟩ := h₁
  obtain rfl : l = m := Option.some.inj (hclient.symm.trans hlink.client)
  by_cases hshort : r.data.length < appKeyLength
  · rw [if_pos hshort]
    exact hfailed (Or.inr ⟨hclient, htrace, hgoing⟩)
  · rw [if_neg hshort]
    refine ⟨_, ?_, hgoing.bleData r.data, fun hsome => ?_⟩
    · exact ht
    · obtain ⟨i, hmem, hlast⟩ := hanswered hsome
      -- This answer is the last thing that happened.
      obtain ⟨older, htrace⟩ := List.head?_eq_some_iff.mp hhead
      rw [World.deeds, htrace, List.filter_cons_of_pos rfl, List.head?_cons] at hlast
      obtain ⟨rfl, rfl⟩ : c = some l ∧ a.receivedAt = i := by simpa using hlast
      subst hr
      exact ⟨a.packet, a.receivedAt, hmem, fun hown => ownInits_at hown hnow hawaited hfirst,
        Nat.le_of_not_lt hshort, rfl, rfl⟩

/-- PING, under the key of this link's INIT reply. -/
theorem ping_phases (h₀ : Moving who w₀) (hl : l < w₀.opened) (h : Greeted who w₀ l w) :
    Triple (request (pingRequest w.self.appKey)) w
      (fun r w' => if r.index = 0 then Waiting who w₀ l w' else Accepted who w₀ l w'.setAppData)
      (fun _ => Moving who) (Moving who) := by
  obtain ⟨u, hu, hgoing, hinit⟩ := h
  have hping : pingRequest w.self.appKey = pingRequest u.appKey := by rw [hgoing.appKey]
  rw [hping]
  have hknown : ∀ {w' : World κ}, w.self.client = some l → w.trace <:+ w'.trace →
      InitHeard w' l u := fun hclient htrace => (hinit (by simp [hclient])).later htrace
  have hfailed : ∀ {w' : World κ}, (Going w₀ w' l u [u.initFrame] u.bleKeys ∨
      (w.self.client = some l ∧ w.trace <:+ w'.trace ∧
        Going w₀ w' l u ([u.initFrame] ++ [(u.bleKeys, pingRequest u.appKey)]) u.bleKeys)) →
      Moving who w' := by
    intro w' hw'
    rcases hw' with hone | ⟨hclient, htrace, htwo⟩
    · exact hone.moving h₀ hl hu fun _ => FollowsPhases.of_init (Or.inr hone.frames)
    · exact htwo.moving_greeting h₀ hl hu (greeting_begins u 0) (hknown hclient htrace)
  refine (hgoing.request (pingRequest u.appKey)).mono ?_ (fun _ _ => hfailed) (fun _ => hfailed)
  intro r w₁ h₁
  obtain ⟨hgoing₁, hclient, htrace, hanswered⟩ := h₁
  by_cases hzero : r.index = 0
  · rw [if_pos hzero]
    refine ⟨u, 0, hu, hgoing₁, hknown hclient htrace, fun hsome => ?_⟩
    obtain ⟨i, hmem, _⟩ := hanswered hsome
    exact ⟨r, i, hmem⟩
  · rw [if_neg hzero]
    refine ⟨u, 0, hu, hgoing₁.appData, hknown hclient htrace, fun hsome => ?_⟩
    obtain ⟨i, hmem, _⟩ := hanswered hsome
    exact ⟨r, i, hmem, Or.inl hzero⟩

/-- The closing PAIR, under the session key. -/
theorem pair_phases (h₀ : Moving who w₀) (hl : l < w₀.opened) (h : Accepted who w₀ l w) :
    Triple (request (pairRequest w.self.serialChallenge)) w (fun _ => Reading who w₀ l)
      (fun _ => Moving who) (Moving who) := by
  obtain ⟨u, waits, hu, hgoing, hinit, hpaired⟩ := h
  rw [hgoing.challenge]
  have hfailed : ∀ {w' : World κ}, w.trace <:+ w'.trace →
      (Going w₀ w' l u (u.greeting waits) u.sessionKeys ∨
      (w.self.client = some l ∧ w.trace <:+ w'.trace ∧ Going w₀ w' l u (u.greeting waits ++
        [(u.sessionKeys, pairRequest u.challenge)]) u.sessionKeys)) → Moving who w' := by
    intro w' htrace hw'
    rcases hw' with hsame | ⟨_, _, hadded⟩
    · exact hsame.moving_greeting h₀ hl hu (greeting_begins u waits) (hinit.later htrace)
    · exact hadded.moving_greeting h₀ hl hu (List.prefix_refl _) (hinit.later htrace)
  have hgrows := (SameSession.asks.request (pairRequest u.challenge) none).triple w
  refine ((hgoing.request (pairRequest u.challenge)).and hgrows).mono ?_
    (fun _ _ hw' => hfailed hw'.2.trace hw'.1) (fun _ hw' => hfailed hw'.2.trace hw'.1)
  intro r w₁ h₁
  obtain ⟨⟨hgoing₁, hclient, htrace, hanswered⟩, _⟩ := h₁
  refine ⟨u, waits, [], hu, by simp, ?_, hinit.later htrace,
    (hpaired (by simp [hclient])).later htrace, fun hsome => ?_, fun hne => absurd rfl hne⟩
  · rw [List.append_nil]
    exact hgoing₁
  · obtain ⟨i, hmem, _⟩ := hanswered hsome
    exact ⟨r, i, hmem⟩

/-- The verification is a READ. -/
theorem verifySession_phases (h₀ : Moving who w₀) (hl : l < w₀.opened) (h : Reading who w₀ l w) :
    Triple verifySession w (fun _ w' => Settled who (w'.log (.handshaken w'.self.client)))
      (fun _ => Moving who) (Moving who) := by
  have hsends : Moves (Sends (·.command = .read)) (readRegister serialNumber : M κ Bytes) :=
    readRegister_moves (fun _ => sends_read _ 0 _) fun word => sends_read _ word 2
  have hread := Triple.of_last (I := Reading who w₀ l) (h.reads (hsends w))
  refine (verifySession_triple (I := Reading who w₀ l) (E := fun _ => Moving who)
    (hread.mono (fun _ _ h => h) ?_ (fun _ h => h.moving h₀ hl))).mono_ret ?_
  · intro e w₁ h₁
    split <;> exact h₁.moving h₀ hl
  · intro _ w₁ h₁
    refine (h₁.settled h₀ hl).later (SameSession.log w₁ _) fun m => ?_
    exact World.framesOn_same (P := fun o => o = .handshaken w₁.self.client)
      (Does.log w₁ fun _ => rfl) (fun o _ ho => by rw [ho]; rfl) m

/-- All of the handshake, which begins on a link without frames. -/
theorem handshake_phases (h₀ : Moving who w₀) (hl : l < w₀.opened) {t : Terms}
    (ht : t.name = who.toUTF8.data.toList) (h : Going w₀ w l t [] t.nameKeys) (htally : w.Tallied) :
    Triple handshake w (fun _ => Settled who) (fun _ => Moving who) (Moving who) :=
  handshake_triple (init_phases h₀ hl ht h htally) (fun _ hw' => ping_phases h₀ hl hw')
    (fun _ hw' => awaitPairing_phases h₀ hl hw') (fun _ hw' => pair_phases h₀ hl hw')
    fun _ hw' => verifySession_phases h₀ hl hw'

end Handshake

/-! ## `connect`, polls and runs -/

section Polls

variable {who : String} {w w' : World κ}

theorem Moving.transported (h : Moving who w) (ht : Transported w w') : Moving who w' := by
  refine h.later ht.does.trace (congrArg Session.name ht.session) ?_ (framesOn_linkDeeds ht.does)
  rcases ht.opened with hsame | hone <;> omega

/-- A new link carries no frame yet, and the keys are the name key's. -/
theorem Opened.going (h : Moving who w) (ho : Opened w w') :
    ∃ t : Terms, t.name = who.toUTF8.data.toList ∧ Going w' w' w.opened t [] t.nameKeys := by
  refine ⟨⟨who.toUTF8.data.toList, [], w'.self.serialChallenge, w'.self.appKey⟩, rfl,
    List.suffix_refl _, rfl, rfl, fun _ _ => rfl, ?_, ho.client, ?_, rfl, rfl⟩
  · rw [framesOn_linkDeeds ho.transported.does]
    exact h.fresh _ (Nat.le_refl _)
  · rw [ho.transported.keys, World.nameKeys, h.name]
    rfl

/-- A poll sends READs on the client's link, which is ready. -/
theorem Settled.reads (h : Settled who w) (hr : Sends (·.command = .read) w w') :
    Settled who w' := by
  cases hc : w.self.client with
  | none =>
    -- Without a link nothing is sent.
    obtain ⟨_, _, _, hsame⟩ := framesOn_reads hr
    exact h.later hr.session fun l => hsame l (by simp [hc])
  | some l =>
    obtain ⟨hl, t, ht, hready⟩ := h.ready l hc
    obtain ⟨⟨waits, reads, hreads, hframes⟩, hkeys, happ, hchallenge, hinit, hpaired, hclosed⟩ :=
      hready
    have hgoing : Going w w l t (t.opening waits ++ reads) t.sessionKeys := by
      refine ⟨List.suffix_refl _, rfl, rfl, fun _ _ => rfl, hframes, ?_, hkeys, happ, hchallenge⟩
      intro m hm
      rw [hc] at hm
      exact (Option.some.inj hm).symm
    have hreading : Reading who w l w :=
      ⟨t, waits, reads, ht, hreads, hgoing, hinit, hpaired, fun _ => hclosed, fun _ => hclosed⟩
    exact (hreading.reads hr).settled h.moving hl

variable [Cipher κ]

theorem connectTransport_opened (h : Moving who w) :
    Triple connectTransport w (fun _ w' => Opened w w' ∧ w'.Tallied) (fun _ => Moving who)
      (Moving who) :=
  ((connectTransport_ends w).and (Triple.of_last (KeepsTally.connectTransport w))).mono
    (fun _ _ ho => ho) (fun _ _ ht => h.transported ht.1.2) (fun _ ht => h.transported ht.1)

theorem greet_phases (h : Moving who w) :
    Triple (do
        connectTransport
        handshake) w (fun _ => Settled who) (fun _ => Moving who) (Moving who) := by
  refine Triple.bind (connectTransport_opened h) fun _ w₁ hopened => ?_
  obtain ⟨ho, htally⟩ := hopened
  obtain ⟨t, ht, hgoing⟩ := ho.going h
  refine handshake_phases (h.transported ho.transported) ?_ ht hgoing htally
  rw [ho.opened]
  exact Nat.lt_succ_self _

theorem Moving.disconnect (h : Moving who w) : Moving who (Ninebot.disconnect w).2 := by
  have hs := disconnect_sameSession w
  exact h.later hs.trace (congrArg Session.name hs.session)
    (Nat.le_of_eq (congrArg Session.opened hs.session).symm)
    (framesOn_linkDeeds (disconnect_linkDeeds w))

theorem connect_phases (h : Moving who w) :
    Triple connect w (fun _ => Settled who) (fun _ => Moving who) (Moving who) := by
  refine connect_triple (A := fun w₁ => Moving who w₁ ∧ ∃ l t, l < w₁.opened ∧
      t.name = who.toUTF8.data.toList ∧ Going w₁ w₁ l t [] t.nameKeys ∧ w₁.Tallied)
      (B := Moving who) ?_ ?_ ?_
  · apply (connectTransport_opened h).mono_ret
    intro _ w₁ hopened
    obtain ⟨ho, htally⟩ := hopened
    obtain ⟨t, ht, hgoing⟩ := ho.going h
    refine ⟨h.transported ho.transported, w.opened, t, ?_, ht, hgoing, htally⟩
    rw [ho.opened]
    exact Nat.lt_succ_self _
  · intro w₁ h₁
    obtain ⟨hmoving, l, t, hl, ht, hgoing, htally⟩ := h₁
    apply (handshake_phases hmoving hl ht hgoing htally).mono_raised
    intro e w₂ h₂
    split
    · exact h₂.later (List.suffix_cons _ _) rfl (Nat.le_refl _) fun _ => rfl
    · exact h₂
  · intro w₁ h₁
    exact Triple.bind (Triple.of_last h₁.disconnect) fun _ w₂ h₂ => greet_phases h₂

theorem settled_keeps (who : String) :
    Keeps (fun w : World κ => fun _ => Settled who w) (fun w _ => Moving who w) where
  weaken _ _ h := h.moving
  log w _ level text h := by
    have hidle : Idle w (w.log (.log level text)) := Idle.log w _ rfl
    exact h.later hidle.session.trace rfl (Nat.le_refl _) (framesOn_idle hidle)
  logged w _ level text h := by
    have hidle : Idle w (w.log (.log level text)) := Idle.log w _ rfl
    exact h.later hidle.session (framesOn_idle hidle)
  connect w _ h _ := connect_phases h.moving
  poll w _ includeStatic h := by
    have hsends := asyncPoll_moves (fun register word n => sends_read register word n)
      includeStatic w
    exact (Triple.of_last (I := Settled who) (h.reads hsends)).mono
      (fun _ _ h' => h') (fun _ _ h' => h'.moving) (fun _ h' => h'.moving)
  drop w _ h := by
    have hsettled : Settled who (Ninebot.disconnect w).2 := by
      refine ⟨h.disconnect, fun l hl => ?_⟩
      rw [disconnect_detaches] at hl
      cases hl
    exact (Triple.of_last hsettled).mono (fun _ _ h' => h') (fun _ _ h' => h')
      (fun _ h' => h'.moving)

theorem between_settled {home home' : Home κ} (h : Settled who home.world)
    (hb : Between home home') : Settled who home'.world := by
  cases hb with
  | event e =>
    have hidle := Idle.apply e home.world
    exact h.later hidle.session (framesOn_idle hidle)
  | supply script gas =>
    obtain ⟨⟨hname, hphases, hfresh⟩, hready⟩ := h
    refine ⟨⟨hname, fun l => ?_, hfresh⟩, fun l hl => ?_⟩
    · obtain ⟨t, ht, hfollows⟩ := hphases l
      exact ⟨t, ht, fun hown => (hfollows hown).later (List.suffix_refl _) rfl⟩
    · obtain ⟨hlt, t, ht, hframes, hkeys, happ, hchallenge, hinit, hpaired, hclosed⟩ := hready l hl
      exact ⟨hlt, t, ht, hframes, hkeys, happ, hchallenge, hinit, hpaired, hclosed⟩
  | advertised manufacturerData => exact h

/-- Run lemma: between polls every session is in order. -/
theorem polls_settled {home₀ home : Home κ} (h₀ : Settled who home₀.world)
    (h : Polls home₀ home) : Settled who home.world := by
  induction h with
  | start => exact h₀
  | between _ hb ih => exact between_settled ih hb
  | poll _ hrun ih => exact ((settled_keeps who).coordinatorPoll ih).ret_of hrun

omit [Cipher κ] in
/-- In a process that has just begun nothing has been sent. -/
theorem settled_start {w : World κ} (hclient : w.self.client = none) (htrace : w.trace = []) :
    Settled w.self.name w := by
  have hframes : ∀ l, w.framesOn l = [] := by
    intro l
    rw [World.framesOn, World.deeds, htrace]
    rfl
  refine ⟨⟨rfl, fun l => ?_, fun l _ => hframes l⟩, fun l hl => ?_⟩
  · exact ⟨⟨w.self.name.toUTF8.data.toList, [], [], []⟩, rfl,
      fun _ => FollowsPhases.of_init (Or.inl (hframes l))⟩
  · rw [hclient] at hl
    cases hl

/-- In every run of polls, up to every moment of the poll that is going on: as
    long as no INIT was answered over another link, the frames of every link
    follow the phases of a session, with the keys of these phases. -/
theorem polls_follow_phases {home₀ home : Home κ} (hclient : home₀.world.self.client = none)
    (htrace : home₀.world.trace = []) (h : Polls home₀ home) (l : Nat) :
    (ownInits home.world.trace = true → ∃ t : Terms,
      t.name = home₀.world.self.name.toUTF8.data.toList ∧ FollowsPhases home.world l t) ∧
    (ownInits (coordinatorPoll home).2.world.trace = true → ∃ t : Terms,
      t.name = home₀.world.self.name.toUTF8.data.toList ∧
        FollowsPhases (coordinatorPoll home).2.world l t) := by
  have hsettled := polls_settled (settled_start hclient htrace) h
  have hmoving : Moving home₀.world.self.name (coordinatorPoll home).2.world :=
    (settled_keeps home₀.world.self.name).coordinatorPoll_last hsettled
  constructor
  · intro hown
    obtain ⟨t, ht, hphases⟩ := hsettled.moving.phases l
    exact ⟨t, ht, hphases hown⟩
  · intro hown
    obtain ⟨t, ht, hphases⟩ := hmoving.phases l
    exact ⟨t, ht, hphases hown⟩

end Polls

/-- A first poll that is cut during its first READ after the verification. -/
theorem verified_follows_phases :
    (∃ t : Terms, t.name = (restarted (pairedHome verified)).world.self.name.toUTF8.data.toList ∧
      FollowsPhases (coordinatorPoll (restarted (pairedHome verified))).2.world 0 t) ∧
    ((coordinatorPoll (restarted (pairedHome verified))).2.world.framesOn 0).map (·.2.command) =
      [.init, .ping, .pair, .read, .read] := by
  have hstart : Polls (restarted (pairedHome verified)) (restarted (pairedHome verified)) :=
    Polls.start
  exact ⟨(polls_follow_phases rfl rfl hstart 0).2 (by decide +kernel), by decide +kernel⟩

/-- What bleak raises when a link cannot be closed. -/
def closeFault : Fault := ⟨⟨.bleakError, "Service Discovery has not been performed yet"⟩, rfl⟩

/-- The key in another INIT reply of the scooter. -/
def lateInit : Packet := ⟨.ble, .host, .init, 0, List.replicate 16 0x77 ++ serialChallenge⟩

/-- Link 0 gets an INIT reply that is too short, and cannot be closed.  Over
    it, INIT is answered once more while link 1 waits for its own answer. -/
def lateOverOldLink : List Step :=
  [.answer (.linked (.found 20)), .answer .ok,
    .answer .ok, respond 0 ⟨.ble, .host, .init, 0, []⟩, .answer .ok,
    .answer (.fail closeFault), .answer (.fail closeFault),
    .answer (.linked (.found 20)), .answer .ok,
    .answer .ok, respond 0 lateInit, .answer .ok, .answer .ok, .answer .ok, respond 1 initReply]

/-- That the INIT of link `l` was answered. -/
def Obs.answersInit (l : Nat) : Obs → Bool
  | .answered c q _ _ => c = some l ∧ q = initRequest
  | _ => false

/-- Link 1's PING is encrypted under the key of a reply that came over link 0. -/
theorem lateOverOldLink_breaks_phases :
    Polls (restarted (pairedHome lateOverOldLink)) (restarted (pairedHome lateOverOldLink)) ∧
    ((coordinatorPoll (restarted (pairedHome lateOverOldLink))).2.world.framesOn 1).map
      (fun f => (f.1.bleData, f.2.command)) =
      [(none, .init), (some (List.replicate 16 0x77), .ping)] ∧
    ¬ ∃ t : Terms, t.name =
        (restarted (pairedHome lateOverOldLink)).world.self.name.toUTF8.data.toList ∧
      FollowsPhases (coordinatorPoll (restarted (pairedHome lateOverOldLink))).2.world 1 t := by
  have hframes : ((coordinatorPoll (restarted (pairedHome lateOverOldLink))).2.world.framesOn 1).map
      (fun f => (f.1.bleData, f.2.command)) =
      [(none, .init), (some (List.replicate 16 0x77), .ping)] := by decide +kernel
  refine ⟨Polls.start, hframes, ?_⟩
  rintro ⟨t, -, hphases⟩
  have htwo : 1 < ((coordinatorPoll (restarted (pairedHome lateOverOldLink))).2.world.framesOn
      1).length := by
    rw [← List.length_map, hframes]
    decide
  obtain ⟨r, s, i, hans, hat, _⟩ := hphases.init htwo
  -- INIT of link 1 was answered once, by a packet that came over link 0.
  have honly : ∀ o ∈ (coordinatorPoll (restarted (pairedHome lateOverOldLink))).2.world.trace,
      o.answersInit 1 = true → o = .answered (some 1) initRequest lateInit 15 := by decide +kernel
  have hlate : (coordinatorPoll (restarted (pairedHome lateOverOldLink))).2.world.at 15 =
      some (.received 0 0 lateInit) := by decide +kernel
  have hanswer := honly _ hans (by simp [Obs.answersInit])
  obtain ⟨rfl, rfl⟩ : r = lateInit ∧ i = 15 := by simpa using hanswer
  rw [hlate] at hat
  cases hat

end Ninebot
