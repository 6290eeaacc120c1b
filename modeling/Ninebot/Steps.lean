import Ninebot.Codec
import Ninebot.Coordinator
import Ninebot.Framing

/-! # Rules for awaited calls

    What happens while the client is suspended, said once: the rule for an
    `await`, and the relation `SameSession` that every event and every request
    keeps.  A session is one cipher object with its keys, one application key,
    one challenge, and one link that is only ever given up. -/

namespace Ninebot

open Coro

variable {κ α : Type}

/-! ## Events -/

/-- `f` reads the same in both worlds. -/
def Same {β : Type} (f : World κ → β) (w w' : World κ) : Prop := f w' = f w

instance {β : Type} (f : World κ → β) : Std.Refl (Same f) := ⟨fun _ => rfl⟩

instance {β : Type} (f : World κ → β) : IsTrans (World κ) (Same f) :=
  ⟨fun _ _ _ h h' => Eq.trans h' h⟩

/-- The steps that `_dispatch` is made of. -/
structure Dispatches (R : World κ → World κ → Prop) : Prop where
  state : ∀ w state, R w (w.setCrypto { w.self.crypto with state := state })
  receive : ∀ w l p, p.data.length ≤ maxDataLength →
    R w ((w.log (.received w.now l p)).putNowait ⟨p, w.trace.length⟩)

/-- The steps that events are made of. -/
structure Hears (R : World κ → World κ → Prop) : Prop extends Dispatches R where
  buffer : ∀ w b, R w (w.setBuffer b)
  lose : ∀ w l, w.isUp l = true → R w ((w.close l).log (.lost l))
  tick : ∀ w n, R w { w with now := w.now + n }

/-- The oldest packet of the queue was taken. -/
theorem popResponse_eq {w w' : World κ} {a : Arrival} (h : popResponse w = some (a, w')) :
    ∃ rest, w.self.responses = a :: rest ∧
      w' = (w.setResponses rest).log (.taken w.now w.self.client a.packet a.receivedAt) := by
  unfold popResponse at h
  cases hq : w.self.responses with
  | nil =>
    rw [hq] at h
    cases h
  | cons b rest =>
    rw [hq] at h
    cases h
    exact ⟨rest, rfl, rfl⟩

section Events

variable [Cipher κ]

/-- What becomes of one frame: the cipher moves on, and a packet may be queued. -/
theorem dispatch_eq (w : World κ) (l : Nat) (frame : Bytes) :
    ∃ w₁, (∃ state, w₁ = w.setCrypto { w.self.crypto with state := state }) ∧
      (w.dispatch l frame = w₁ ∨
        ∃ p, p.data.length ≤ maxDataLength ∧ w.dispatch l frame =
          (w₁.log (.received w₁.now l p)).putNowait ⟨p, w₁.trace.length⟩) := by
  unfold World.dispatch
  rcases Cipher.decrypt w.self.crypto.keys w.self.crypto.state frame with ⟨plaintext, state⟩
  refine ⟨_, ⟨state, rfl⟩, ?_⟩
  cases plaintext with
  | error _ => exact Or.inl rfl
  | ok plaintext =>
    dsimp only
    cases hp : Packet.unpack plaintext with
    | error _ => exact Or.inl rfl
    | ok p => exact Or.inr ⟨p, Packet.length_of_unpack hp, rfl⟩

/-- A notification hands whole frames to `_dispatch` and keeps the rest. -/
theorem notified_eq (w : World κ) (l : Nat) (data : Bytes) :
    w.notified l data = w ∨
      ∃ (frames : List Bytes) (buffer : Bytes),
        w.notified l data = (frames.foldl (World.dispatch l) w).setBuffer buffer := by
  unfold World.notified
  split
  · rw [onNotify_eq]
    exact Or.inr ⟨_, _, rfl⟩
  · exact Or.inl rfl

section Rules

variable {R : World κ → World κ → Prop} [Std.Refl R] [IsTrans (World κ) R]

omit [Std.Refl R] in
theorem Dispatches.dispatch (h : Dispatches R) (w : World κ) (l : Nat) (frame : Bytes) :
    R w (w.dispatch l frame) := by
  obtain ⟨_, ⟨state, rfl⟩, heq | ⟨p, hp, heq⟩⟩ := dispatch_eq w l frame
  · rw [heq]
    exact h.state w state
  · rw [heq]
    exact trans_of R (h.state w state) (h.receive _ l p hp)

theorem Dispatches.foldl (h : Dispatches R) (l : Nat) (frames : List Bytes) (w : World κ) :
    R w (frames.foldl (World.dispatch l) w) := by
  induction frames generalizing w with
  | nil => exact refl_of R w
  | cons f fs ih => exact trans_of R (h.dispatch w l f) (ih _)

/-- A relation that allows the steps of an event allows the event; another
    task may be kept from taking the client's link. -/
theorem Hears.apply (h : Hears R) (e : Event) (w : World κ)
    (hdetach : e = .detach → R w ((w.setClient none).log (.detached w.self.client))) :
    R w (w.apply e) := by
  cases e with
  | notify l data =>
    show R w (w.notified l data)
    rcases notified_eq w l data with heq | ⟨frames, buffer, heq⟩
    · rw [heq]
      exact refl_of R w
    · rw [heq]
      exact trans_of R (h.foldl l frames w) (h.buffer _ buffer)
  | linkLost l =>
    show R w (if w.isUp l then _ else w)
    by_cases hup : w.isUp l = true
    · rw [if_pos hup]
      exact h.lose w l hup
    · rw [if_neg hup]
      exact refl_of R w
  | tick n => exact h.tick w n
  | detach => exact hdetach rfl

end Rules

/-- An event leaves the rest of the script alone. -/
theorem World.apply_script (e : Event) (w : World κ) : (w.apply e).script = w.script := by
  have hhears : Hears (Same (World.script (κ := κ))) := by
    refine ⟨⟨fun _ _ => rfl, fun w l p _ => ?_⟩, fun _ _ => rfl, fun _ _ _ => rfl, fun _ _ => rfl⟩
    show ((w.log (.received w.now l p)).putNowait _).script = w.script
    unfold World.putNowait
    split <;> rfl
  exact hhears.apply e w fun _ => rfl

end Events

/-! ## Awaiting -/

section Await

variable [Cipher κ] {complete : Answer → World κ → Option (Res Exc α × World κ)} {w : World κ}
  {I : World κ → Prop} {Q : α → World κ → Prop} {E : Exc → World κ → Prop} {C : World κ → Prop}

/-- If `I` survives the events of the script, an awaited call completes from a
    world in `I`, with some of the script left. -/
theorem await_triple (h0 : I w)
    (hev : ∀ e w', .event e ∈ w.script → I w' → I (w'.apply e))
    (hdone : ∀ a rest w' r w'', rest <:+ w.script → I w' →
      complete a (w'.setScript rest) = some (r, w'') → Holds Q E C r w'')
    (hpend : ∀ w', I w' → C (w'.setScript [])) :
    Triple (await complete) w Q E C := by
  suffices hmain : ∀ (script : List Step) (w' : World κ), script <:+ w.script → I w' →
      Holds Q E C (awaitFrom complete script w').1 (awaitFrom complete script w').2 from
    hmain w.script w (List.suffix_refl _) h0
  intro script
  induction script with
  | nil => intro w' _ hw'; exact hpend w' hw'
  | cons step rest ih =>
    intro w' hsuf hw'
    have hrest : rest <:+ w.script := (List.suffix_cons step rest).trans hsuf
    cases step with
    | event e =>
      exact ih (w'.apply e) hrest (hev e w' (hsuf.subset List.mem_cons_self) hw')
    | answer a =>
      rw [awaitFrom]
      cases hc : complete a (w'.setScript rest) with
      | none => exact ih w' hrest hw'
      | some p => exact hdone a rest w' p.1 p.2 hrest hw' hc

end Await

/-! ## One session -/

/-- What no request of a session changes. -/
structure Session where
  address : String
  name : String
  requestTimeout : Nat
  pairingTimeout : Nat
  appKey : Bytes
  appKeyWasSupplied : Bool
  keys : Keys
  chunkSize : Nat
  serialChallenge : Bytes
  opened : Nat
  gas : Nat
  secrets : Nat → AppKey
  drawn : Nat

def World.session (w : World κ) : Session where
  address := w.self.address
  name := w.self.name
  requestTimeout := w.self.requestTimeout
  pairingTimeout := w.self.pairingTimeout
  appKey := w.self.appKey
  appKeyWasSupplied := w.self.appKeyWasSupplied
  keys := w.self.crypto.keys
  chunkSize := w.self.chunkSize
  serialChallenge := w.self.serialChallenge
  opened := w.opened
  gas := w.gas
  secrets := w.secrets
  drawn := w.drawn

/-- `w'` is a later moment of the same session: the trace has grown, no link
    has come up, and the client's link is the same or has been taken away. -/
structure SameSession (w w' : World κ) : Prop where
  trace : w.trace <:+ w'.trace
  client : w'.self.client = w.self.client ∨ w'.self.client = none
  up : ∀ l, w'.isUp l = true → w.isUp l = true
  session : w'.session = w.session

namespace SameSession

variable {w w' w'' : World κ}

theorem refl (w : World κ) : SameSession w w :=
  ⟨List.suffix_refl _, Or.inl rfl, fun _ h => h, rfl⟩

theorem trans (h : SameSession w w') (h' : SameSession w' w'') : SameSession w w'' := by
  refine ⟨h.trace.trans h'.trace, ?_, fun l hl => h.up l (h'.up l hl), h'.session.trans h.session⟩
  rcases h'.client with hc | hc
  · rw [hc]
    exact h.client
  · exact Or.inr hc

instance : Std.Refl (SameSession (κ := κ)) := ⟨refl⟩

instance : IsTrans (World κ) SameSession := ⟨fun _ _ _ => trans⟩

/-- A link that the client has now, it had before. -/
theorem held (h : SameSession w w') {l : Nat} (hl : w'.self.client = some l) :
    w.self.client = some l := by
  rcases h.client with hsame | hnone
  · exact hsame.symm.trans hl
  · exact absurd (hnone.symm.trans hl) (Option.some_ne_none l).symm

theorem held_some (h : SameSession w w') (hsome : w'.self.client ≠ none) :
    w.self.client ≠ none := by
  obtain ⟨l, hl⟩ := Option.ne_none_iff_exists'.mp hsome
  rw [h.held hl]
  exact Option.some_ne_none l

theorem log (w : World κ) (o : Obs) : SameSession w (w.log o) :=
  ⟨List.suffix_cons _ _, Or.inl rfl, fun _ h => h, rfl⟩

theorem setScript (w : World κ) (s : List Step) : SameSession w (w.setScript s) :=
  ⟨List.suffix_refl _, Or.inl rfl, fun _ h => h, rfl⟩

theorem setResponses (w : World κ) (r : List Arrival) : SameSession w (w.setResponses r) :=
  ⟨List.suffix_refl _, Or.inl rfl, fun _ h => h, rfl⟩

theorem setBuffer (w : World κ) (b : Bytes) : SameSession w (w.setBuffer b) :=
  ⟨List.suffix_refl _, Or.inl rfl, fun _ h => h, rfl⟩

theorem setState (w : World κ) (s : κ) :
    SameSession w (w.setCrypto { w.self.crypto with state := s }) :=
  ⟨List.suffix_refl _, Or.inl rfl, fun _ h => h, rfl⟩

theorem putNowait (w : World κ) (a : Arrival) : SameSession w (w.putNowait a) := by
  unfold World.putNowait
  split
  · exact setResponses w _
  · exact log w _

theorem setLink (w : World κ) (l : Nat) (link : Link)
    (h : link.isConnected = true → w.isUp l = true) : SameSession w (w.setLink l link) := by
  refine ⟨List.suffix_refl _, Or.inl rfl, ?_, rfl⟩
  intro m hm
  by_cases hml : m = l
  · subst hml
    exact h (by simpa [World.isUp, World.setLink] using hm)
  · simpa [World.isUp, World.setLink, hml] using hm

theorem close (w : World κ) (l : Nat) : SameSession w (w.close l) :=
  setLink w l _ (by simp)

theorem subscribe (w : World κ) (l : Nat) (on : Bool) : SameSession w (w.subscribe l on) :=
  setLink w l _ id

theorem detach (w : World κ) : SameSession w (w.setClient none) :=
  ⟨List.suffix_refl _, Or.inr rfl, fun _ h => h, rfl⟩

end SameSession

theorem popResponse_sameSession {w w' : World κ} {a : Arrival}
    (h : popResponse w = some (a, w')) : SameSession w w' := by
  obtain ⟨rest, _, rfl⟩ := popResponse_eq h
  exact (SameSession.setResponses w rest).trans (SameSession.log _ _)

theorem SameSession.hears : Hears (SameSession (κ := κ)) where
  state := SameSession.setState
  receive w _ _ _ := (SameSession.log w _).trans (SameSession.putNowait _ _)
  buffer := SameSession.setBuffer
  lose w l _ := (SameSession.close w l).trans (SameSession.log _ _)
  tick _ _ := ⟨List.suffix_refl _, Or.inl rfl, fun _ h => h, rfl⟩

variable [Cipher κ]

theorem SameSession.apply (e : Event) (w : World κ) : SameSession w (w.apply e) :=
  SameSession.hears.apply e w fun _ => (SameSession.detach w).trans (SameSession.log _ _)

/-! ## What waiting can do

    A relation that allows what happens during an awaited call is kept by
    every method that only waits; one that also allows packets to be encrypted
    and outcomes to be noted is kept by every request. -/

/-- What the client does or concludes, as opposed to what it hears, writes or says. -/
def Obs.isDeed : Obs → Bool
  | .wrote .. | .writeFailed _ | .cleared | .received .. | .taken .. | .lost _ | .log .. => false
  | .notOpened | .notifyFailed .. | .stopFailed .. | .disconnecting _ | .detached _ => false
  | _ => true

/-- Observations that say nothing about a packet from the scooter or about another task. -/
def Obs.isPlain : Obs → Bool
  | .cleared | .received .. | .taken .. | .answered .. | .detached _ => false
  | _ => true

/-- What became of a link. -/
def Obs.isFate : Obs → Bool
  | .opened _ | .disconnected _ | .disconnectFailed _ | .lost _ => true
  | .notOpened | .notifyFailed .. | .stopFailed .. | .disconnecting _ | .handshaken _ => true
  | _ => false

/-- Since `w₀`, the client has taken this packet, and nothing happened after that. -/
def Took (w₀ : World κ) (a : Arrival) (w : World κ) : Prop :=
  ∃ rest, w.trace = .taken w.now w.self.client a.packet a.receivedAt :: rest ∧ w₀.trace <:+ rest

/-- What a relation must allow for an awaited call of the link to move along it. -/
structure Suspends (R : World κ → World κ → Prop) : Prop where
  event : ∀ e w, .event e ∈ w.script → R w (w.apply e)
  script : ∀ w s, s <:+ w.script → R w (w.setScript s)
  note : ∀ w o, o.isPlain = true → o.isDeed = false → o.isFate = false → R w (w.log o)

/-- And for packets to be taken from the queue. -/
structure Waits (R : World κ → World κ → Prop) : Prop extends Suspends R where
  take : ∀ {w a w'}, popResponse w = some (a, w') → R w w'

structure Asks (R : World κ → World κ → Prop) : Prop extends Waits R where
  deed : ∀ w o, o.isPlain = true → o.isFate = false → R w (w.log o)
  cipher : ∀ w state, R w (w.setCrypto { w.self.crypto with state := state })
  /-- A packet becomes an answer right after it was taken. -/
  answer : ∀ {w₀ w : World κ} {a : Arrival} {p : Packet} (l : Option Nat), R w₀ w →
    Took w₀ a w → a.packet.matchesRequest p = true →
    R w₀ (w.log (.answered l p a.packet a.receivedAt))

theorem SameSession.waits : Waits (SameSession (κ := κ)) where
  event e w _ := SameSession.apply e w
  script w s _ := SameSession.setScript w s
  note w o _ _ _ := SameSession.log w o
  take := popResponse_sameSession

omit [Cipher κ] in
theorem popResponse_took {w₀ w w' : World κ} {a : Arrival} (hw : w₀.trace <:+ w.trace)
    (h : popResponse w = some (a, w')) : Took w₀ a w' := by
  obtain ⟨rest, _, rfl⟩ := popResponse_eq h
  exact ⟨_, rfl, hw⟩

section Families

variable {R : World κ → World κ → Prop} [Std.Refl R] [IsTrans (World κ) R]

namespace Suspends

variable (h : Suspends R)
include h

/-- An awaited call, from the moment at which it completes. -/
theorem await_ends {complete : Answer → World κ → Option (Res Exc α × World κ)} {w : World κ}
    {Q : α → World κ → Prop} {E : Exc → World κ → Prop}
    (hdone : ∀ a w₁ r w', R w w₁ → complete a w₁ = some (r, w') → Holds Q E (R w) r w') :
    Triple (await complete) w Q E (R w) := by
  apply await_triple (I := fun w' => w'.script = w.script ∧ R w w') ⟨rfl, refl_of R w⟩
  · -- The events do not touch the script.
    intro e w' he hw'
    obtain ⟨hsame, hR⟩ := hw'
    refine ⟨(World.apply_script e w').trans hsame, trans_of R hR (h.event e w' ?_)⟩
    rwa [hsame]
  · intro a rest w' r w'' hrest hw' heq
    obtain ⟨hsame, hR⟩ := hw'
    exact hdone a _ r w'' (trans_of R hR (h.script w' rest (hsame ▸ hrest))) heq
  · intro w' hw'
    exact trans_of R hw'.2 (h.script w' [] List.nil_suffix)

theorem awaited {complete : Answer → World κ → Option (Res Exc α × World κ)}
    (hdone : ∀ a w r w', complete a w = some (r, w') → R w w') : Moves R (await complete) := by
  intro w
  refine Triple.iff_last.mp (h.await_ends ?_)
  intro a w₁ r w' hR heq
  have hlast := trans_of R hR (hdone a w₁ r w' heq)
  rcases r with _ | _ | _ <;> exact hlast

theorem awaitCall_triple (done : World κ → World κ) (failed : Exc → World κ → World κ)
    (w : World κ) : Triple (Ninebot.awaitCall done failed) w
      (fun _ w' => ∃ w₁, R w w₁ ∧ w' = done w₁)
      (fun e w' => e.isInstance [.ninebotError] = false ∧ ∃ w₁, R w w₁ ∧ w' = failed e w₁)
      (R w) := by
  apply h.await_ends
  intro a w₁ r w' hR heq
  cases a with
  | ok => cases heq; exact ⟨w₁, hR, rfl⟩
  | fail f => cases heq; exact ⟨f.2, w₁, hR, rfl⟩
  | linked rx => cases heq

/-- An awaited call, for whatever is to hold when it has returned or raised. -/
theorem call_triple {done : World κ → World κ} {failed : Exc → World κ → World κ} {w : World κ}
    {Q : World κ → Prop} {E : Exc → World κ → Prop} (hdone : ∀ w₁, R w w₁ → Q (done w₁))
    (hfailed : ∀ e w₁, R w w₁ → E e (failed e w₁)) :
    Triple (Ninebot.awaitCall done failed) w (fun _ => Q) E (fun _ => True) := by
  refine (h.awaitCall_triple done failed w).mono ?_ ?_ (fun _ _ => trivial)
  · intro _ w' hended
    obtain ⟨w₁, h₁, rfl⟩ := hended
    exact hdone w₁ h₁
  · intro e w' hended
    obtain ⟨_, w₁, h₁, rfl⟩ := hended
    exact hfailed e w₁ h₁

/-- The same in a `try`, whose handler goes on after some of the exceptions. -/
theorem attemptCall_triple {catches : Exc → Bool} {done : World κ → World κ}
    {failed : Exc → World κ → World κ} {w : World κ} {Q : World κ → Prop}
    {E : Exc → World κ → Prop} (hdone : ∀ w₁, R w w₁ → Q (done w₁))
    (hcaught : ∀ e w₁, R w w₁ → catches e = true → Q (failed e w₁))
    (hraised : ∀ e w₁, R w w₁ → catches e = false → E e (failed e w₁)) :
    Triple (Coro.attempt catches (Ninebot.awaitCall done failed)) w (fun _ => Q) E
      (fun _ => True) := by
  apply Triple.attempt
  apply h.call_triple hdone
  intro e w₁ h₁
  by_cases hcatches : catches e = true
  · rw [if_pos hcatches]
    exact hcaught e w₁ h₁ hcatches
  · rw [if_neg hcatches]
    exact hraised e w₁ h₁ (Bool.eq_false_iff.mpr hcatches)

theorem awaitCall {done : World κ → World κ} {failed : Exc → World κ → World κ}
    (hdone : ∀ w, R w (done w)) (hfailed : ∀ e w, R w (failed e w)) :
    Moves R (awaitCall done failed) := by
  intro w
  refine (h.awaitCall_triple done failed w).last ?_ ?_ (fun _ hw' => hw')
  · intro _ w' hended
    obtain ⟨w₁, h₁, rfl⟩ := hended
    exact trans_of R h₁ (hdone w₁)
  · intro e w' hended
    obtain ⟨_, w₁, h₁, rfl⟩ := hended
    exact trans_of R h₁ (hfailed e w₁)

theorem writeGattChar (chunk : Bytes) : Moves R (writeGattChar chunk : M κ Unit) := by
  refine Moves.bind Moves.get fun w => ?_
  cases w.self.client with
  | none => exact Moves.raise _
  | some l =>
    exact h.awaitCall (fun w => h.note w _ rfl rfl rfl) fun _ w => h.note w _ rfl rfl rfl

theorem writeChunks (chunks : List Bytes) : Moves R (writeChunks chunks : M κ Unit) := by
  induction chunks with
  | nil => exact Moves.pure ()
  | cons c cs ih => exact Moves.bind (h.writeGattChar c) fun _ => ih

/-- What `getResponse` returns has just been taken, at a moment that waiting leads to. -/
theorem getResponse_pops (timeout : Nat) (w : World κ) :
    Triple (Ninebot.getResponse timeout) w
      (fun a w' => ∃ w₁, R w w₁ ∧ popResponse w₁ = some (a, w'))
      (fun e w' => e.cls = .timeoutError ∧ R w w') (R w) := by
  unfold Triple Ninebot.getResponse
  cases hp : popResponse w with
  | some p => exact ⟨w, refl_of R w, hp⟩
  | none =>
    apply h.await_ends
    intro answer w₁ r w' hR heq
    cases answer with
    | ok =>
      obtain ⟨p, hpop, heq⟩ := Option.map_eq_some_iff.mp heq
      cases heq
      exact ⟨w₁, hR, hpop⟩
    | fail f =>
      simp only [Option.ite_none_right_eq_some, Option.some.injEq, Prod.mk.injEq] at heq
      obtain ⟨_, rfl, rfl⟩ := heq
      exact ⟨rfl, hR⟩
    | linked rx => cases heq

theorem receive_pops (timeout : Nat) (w : World κ) :
    Triple (Ninebot.receive timeout) w
      (fun a w' => ∃ w₁, R w w₁ ∧ popResponse w₁ = some (a, w'))
      (fun e w' => e.cls = .ninebotTimeoutError ∧ R w w') (R w) := by
  refine Triple.attempt_bind (X := fun _ => R w) ((h.getResponse_pops timeout w).mono_raised ?_)
    (fun _ _ hpop => Triple.pure hpop) (fun _ _ hR => Triple.raise ⟨rfl, hR⟩)
  intro e w' hended
  rw [if_pos]
  · exact hended.2
  · simp [Exc.isInstance, ErrorClass.mro, hended.1]

end Suspends

/-- What `_receive` returns was just taken. -/
theorem receive_took (timeout : Nat) (w : World κ) :
    Triple (receive timeout) w (Took w) (fun e _ => e.cls = .ninebotTimeoutError)
      (fun _ => True) := by
  apply (SameSession.waits.receive_pops timeout w).mono
  · intro a w' hpopped
    obtain ⟨w₁, hs, hpop⟩ := hpopped
    exact popResponse_took hs.trace hpop
  · exact fun _ _ h => h.1
  · exact fun _ _ => trivial

namespace Suspends

variable (h : Suspends R)
include h

/-- The loop of `_request`: `I` holds from one packet to the next. -/
theorem requestLoop_triple {p : Packet} {I : World κ → Prop} {Q : Packet → World κ → Prop}
    {E : Exc → World κ → Prop} {C : World κ → Prop}
    (hstay : ∀ {w w'}, I w → R w w' → I w')
    (hpass : ∀ {w a w'}, I w → popResponse w = some (a, w') →
      a.packet.matchesRequest p = false → I w')
    (hanswer : ∀ {w₀ w a w'}, I w₀ → R w₀ w → popResponse w = some (a, w') → Took w₀ a w' →
      a.packet.matchesRequest p = true →
      Q a.packet (w'.log (.answered w₀.self.client p a.packet a.receivedAt)))
    (hsilent : ∀ {w₀ w e}, I w₀ → R w₀ w → e.cls = .ninebotTimeoutError →
      E e (w.log (.unanswered w₀.self.client p)))
    (hcut : ∀ {w}, I w → C w) (deadline gas : Nat) {w : World κ} (hI : I w) :
    Triple (Ninebot.requestLoop p deadline gas) w Q E C := by
  induction gas generalizing w with
  | zero => exact Triple.pend (hcut hI)
  | succ gas ih =>
    unfold Triple
    rw [Ninebot.requestLoop, get_bind]
    by_cases hd : deadline ≤ w.now
    · simp only [hd, if_true]
      exact Triple.modify_bind (Triple.raise (hsilent hI (refl_of R w) rfl))
    · simp only [hd, if_false]
      refine Triple.attempt_bind (X := fun e w' => e.cls = .ninebotTimeoutError ∧ R w w')
        (((h.receive_pops _ w).and (receive_took _ w)).mono (fun _ _ hheard => hheard) ?_
          (fun _ hR => hcut (hstay hI hR.1))) ?_ ?_
      · rintro ⟨cls, msg⟩ w' ⟨⟨(rfl : cls = _), hR⟩, _⟩
        exact ⟨rfl, hR⟩
      · intro response w' hheard
        obtain ⟨⟨w₁, hR, hpop⟩, htook⟩ := hheard
        by_cases hm : response.packet.matchesRequest p
        · simp only [hm, if_true]
          exact Triple.modify_bind (Triple.pure (hanswer hI hR hpop htook hm))
        · -- An unsolicited packet is dropped, and the loop goes on.
          simp only [hm]
          exact ih (hpass (hstay hI hR) hpop (by simpa using hm))
      · intro err w' hended
        exact Triple.modify_bind (Triple.raise (hsilent hI hended.2 hended.1))

end Suspends

namespace Waits

variable (h : Waits R)
include h

theorem receive (timeout : Nat) : Moves R (receive timeout : M κ Arrival) := by
  intro w
  apply (h.receive_pops timeout w).last
  · intro a w' hpopped
    obtain ⟨w₁, hR, hpop⟩ := hpopped
    exact trans_of R hR (h.take hpop)
  · exact fun _ _ hended => hended.2
  · exact fun _ hR => hR

/-- Tearing down a link: the client lets go of it, then it is unsubscribed and closed. -/
theorem disconnect (hclient : ∀ w, R w (w.setClient none))
    (hbegun : ∀ w l, R w (w.log (.disconnecting l)))
    (hstop : ∀ w l, R w (w.subscribe l false))
    (hstopFailed : ∀ w l e, R w (w.log (.stopFailed l e)))
    (hclose : ∀ w l, R w ((w.close l).log (.disconnected l)))
    (hfailed : ∀ w l, R w (w.log (.disconnectFailed l))) : Moves R (disconnect : M κ Unit) := by
  have hstops : ∀ l, Moves R (stopNotify l : M κ Unit) := fun l =>
    h.awaitCall (hstop · l) fun e w => hstopFailed w l e
  have hcloses : ∀ l, Moves R (closeLink l : M κ Unit) := fun l =>
    h.awaitCall (hclose · l) fun _ w => hfailed w l
  refine Moves.bind Moves.get fun w => Moves.bind (Moves.modify hclient) fun _ => ?_
  cases w.self.client with
  | none => exact Moves.pure ()
  | some l =>
    refine Moves.bind (Moves.modify (hbegun · l)) fun _ => ?_
    by_cases hup : w.isUp l
    · simp only [hup, if_true]
      exact Moves.bind (Moves.attempt (hstops l)) fun _ =>
        Moves.bind (Moves.attempt (hcloses l)) fun _ => Moves.pure ()
    · simp only [hup]
      exact Moves.pure ()

end Waits

namespace Asks

variable (h : Asks R)
include h

omit [Std.Refl R] [IsTrans (World κ) R] in
theorem log {o : Obs} (ho : o.isPlain = true) (hfate : o.isFate = false) :
    Moves R (M.log o : M κ Unit) :=
  Moves.modify fun w => h.deed w o ho hfate

theorem send (packet : Packet) : Moves R (send packet : M κ Unit) := by
  have hfail : ∀ text, Moves R ((do
      M.log (.sendFailed packet)
      Coro.raise ⟨.ninebotConnectionError, text⟩) : M κ Unit) := fun _ =>
    Moves.bind (h.log rfl rfl) fun _ => Moves.raise _
  refine Moves.bind Moves.get fun w => ?_
  cases w.self.client with
  | none => exact hfail _
  | some l =>
    by_cases hup : w.isUp l
    · simp only [hup, if_true]
      cases packet.pack with
      | error e => exact Moves.raise e
      | ok plaintext =>
        refine Moves.bind (Moves.modify fun w => trans_of R (h.cipher w _) (h.deed _ _ rfl rfl))
          fun _ => ?_
        refine Moves.bind (Moves.attempt (h.writeChunks _)) fun r => ?_
        cases r with
        | ok _ => exact Moves.pure ()
        | error err => exact hfail _
    · simp only [hup]
      exact hfail _

theorem requestLoop (packet : Packet) (deadline gas : Nat) :
    Moves R (requestLoop packet deadline gas : M κ Packet) := by
  intro w
  apply Triple.iff_last.mp
  apply h.requestLoop_triple (I := R w) (fun hR hstep => trans_of R hR hstep)
    (fun hR hpop _ => trans_of R hR (h.take hpop)) _ _ (fun hR => hR) _ _ (refl_of R w)
  · intro w₀ w₁ a w₂ h₀ h₁ hpop htook hm
    exact trans_of R h₀ (h.answer _ (trans_of R h₁ (h.take hpop)) htook hm)
  · intro w₀ w₁ e h₀ h₁ _
    exact trans_of R h₀ (trans_of R h₁ (h.deed _ _ rfl rfl))

theorem request (packet : Packet) (timeout : Option Nat) :
    Moves R (request packet timeout : M κ Packet) :=
  Moves.bind (h.send packet) fun _ => Moves.bind Moves.get fun _ => h.requestLoop _ _ _

end Asks

/-! ## Reads are requests -/

theorem walk_moves {register : Register}
    (h : ∀ word, Moves R (request (readRequest register word 2) : M κ Packet))
    (words : List Nat) (payload : Bytes) : Moves R (walk register words payload : M κ Bytes) := by
  induction words generalizing payload with
  | nil => exact Moves.pure _
  | cons word rest ih => exact Moves.bind (h word) fun _ => ih _

theorem readRegister_moves {register : Register}
    (hbulk : register.length < 256 →
      Moves R (request (readRequest register 0 (UInt8.ofNat register.length)) : M κ Packet))
    (hword : ∀ word, Moves R (request (readRequest register word 2) : M κ Packet)) :
    Moves R (readRegister register : M κ Bytes) := by
  have hwalk : Moves R (walkRegister register : M κ Bytes) :=
    Moves.bind (walk_moves hword _ _) fun _ => Moves.pure _
  have hbulk : Moves R (bulkRead register : M κ Packet) := by
    unfold bulkRead
    by_cases hlen : register.length < 256
    · simp only [hlen, if_true]
      exact hbulk hlen
    · simp only [hlen, if_false]
      exact Moves.raise _
  refine Moves.bind (Moves.attempt hbulk) fun r => ?_
  cases r with
  | ok response =>
    by_cases hfull : response.data.length ≥ register.length
    · simp only [hfull, if_true]
      exact Moves.pure _
    · simp only [hfull, if_false]
      exact hwalk
  | error err =>
    by_cases hshort : register.length ≤ wordSize
    · simp only [hshort, if_true]
      exact Moves.raise _
    · simp only [hshort, if_false]
      exact hwalk

theorem pollLoop_moves
    (h : ∀ register word n, Moves R (request (readRequest register word n) : M κ Packet))
    (registers : List Register) (state : ScooterState) (timeouts : Nat) :
    Moves R (pollLoop registers state timeouts : M κ ScooterState) := by
  induction registers generalizing state timeouts with
  | nil => exact Moves.pure _
  | cons register rest ih =>
    have hread : Moves R (readRegister register : M κ Bytes) :=
      readRegister_moves (fun _ => h register 0 _) fun word => h register word 2
    refine Moves.bind (Moves.attempt hread) fun r => ?_
    -- Each way round the loop ends it or goes on with the next register.
    cases r with
    | error err =>
      by_cases htime : err.isInstance [.ninebotTimeoutError]
      · by_cases hmany : maxConsecutiveTimeouts ≤ timeouts + 1
        · simp only [htime, hmany, if_true]
          exact Moves.raise _
        · simp only [htime, hmany, if_true, if_false]
          exact ih _ _
      · simp only [htime]
        exact ih _ _
    | ok payload =>
      cases hc : register.convert payload with
      | ok value =>
        simp only [hc]
        exact ih _ _
      | error err =>
        simp only [hc]
        by_cases hval : err.isInstance [.valueError, .indexError]
        · simp only [hval, if_true]
          exact ih _ _
        · simp only [hval]
          exact Moves.raise _

theorem asyncPoll_moves
    (h : ∀ register word n, Moves R (request (readRequest register word n) : M κ Packet))
    (includeStatic : Bool) : Moves R (asyncPoll includeStatic : M κ ScooterState) := by
  refine Moves.bind Moves.get fun w => ?_
  by_cases hc : w.isConnected
  · simp only [hc, if_true]
    exact pollLoop_moves h _ _ _
  · simp only [hc]
    exact Moves.raise _

omit [Cipher κ] [IsTrans (World κ) R] in
theorem liftExcept_moves {α : Type} (x : Except Exc α) : Moves R (liftExcept x : M κ α) := by
  cases x with
  | ok a => exact Moves.pure a
  | error e => exact Moves.raise e

theorem asyncRead_moves
    (h : ∀ register word n, Moves R (request (readRequest register word n) : M κ Packet))
    (key : String) : Moves R (asyncRead key : M κ Value) := by
  refine Moves.bind (liftExcept_moves _) fun register => ?_
  have hread : Moves R (readRegister register : M κ Bytes) :=
    readRegister_moves (fun _ => h register 0 _) fun word => h register word 2
  exact Moves.bind hread fun _ => liftExcept_moves _

end Families

/-! ## One register -/

section Registers

variable {register : Register} {w : World κ} {C : World κ → Prop}

/-- A bulk read that is too short, or one that times out on a longer register,
    is followed by a walk from `T`. -/
theorem readRegister_triple {Q : Bytes → World κ → Prop} {E : Exc → World κ → Prop}
    {T : World κ → Prop}
    (hbulk : Triple (bulkRead register) w
      (fun r w' => if r.data.length ≥ register.length then Q (r.data.take register.length) w'
        else T w')
      (fun e w' => if e.isInstance [.ninebotTimeoutError] ∧ wordSize < register.length then T w'
        else E e w') C)
    (hwalk : ∀ w', T w' → Triple (walkRegister register) w' Q E C) :
    Triple (readRegister register) w Q E C := by
  refine Triple.attempt_bind
    (Q := fun r w' => if r.data.length ≥ register.length then Q (r.data.take register.length) w'
      else T w')
    (X := fun e w' => if wordSize < register.length then T w' else E e w')
    (hbulk.mono_raised ?_) ?_ ?_
  · intro e w' h
    by_cases htime : e.isInstance [.ninebotTimeoutError]
    · simpa [htime] using h
    · simpa [htime] using h
  · intro response w' h
    by_cases hfull : response.data.length ≥ register.length
    · simp only [hfull, if_true] at h ⊢
      exact Triple.pure h
    · simp only [hfull, if_false] at h ⊢
      exact hwalk w' h
  · intro err w' h
    -- A register of one word has nothing to walk over.
    by_cases hshort : register.length ≤ wordSize
    · simp only [hshort, Nat.not_lt_of_le hshort, if_true, if_false] at h ⊢
      exact Triple.raise h
    · simp only [hshort, Nat.lt_of_not_le hshort, if_true, if_false] at h ⊢
      exact hwalk w' h

/-- One turn of the loop of `async_poll`: how the read ends, how its bytes are
    decoded, and what the rest of the loop starts from. -/
theorem pollLoop_cons {rest : List Register} {state : ScooterState} {timeouts : Nat}
    {Y : Bytes → World κ → Prop} {X : Exc → World κ → Prop}
    {Q : ScooterState → World κ → Prop} {E : Exc → World κ → Prop}
    (hread : Triple (readRegister register) w Y
      (fun e w' => if e.isInstance [.ninebotError] then X e w' else E e w') C)
    (hfailed : ∀ e w' n, X e w' →
      Triple (pollLoop rest (state.fail register.key e.msg) n) w' Q E C)
    (hsilent : ∀ e w', X e w' → e.isInstance [.ninebotTimeoutError] = true →
      E ⟨.ninebotConnectionError, "Scooter stopped responding after " ++ register.key⟩ w')
    (hdecoded : ∀ payload value w', Y payload w' → register.convert payload = .ok value →
      Triple (pollLoop rest ((state.record register.key payload).decoded register.key value) 0)
        w' Q E C)
    (hundecoded : ∀ payload e w', Y payload w' → register.convert payload = .error e →
      Triple (pollLoop rest ((state.record register.key payload).fail register.key
        ("Could not decode: " ++ e.msg)) 0) w' Q E C)
    (hraised : ∀ payload e w', Y payload w' → register.convert payload = .error e →
      e.isInstance [.valueError, .indexError] = false → E e w') :
    Triple (pollLoop (register :: rest) state timeouts) w Q E C := by
  apply Triple.attempt_bind (X := X) hread
  · intro payload w' hY
    cases hc : register.convert payload with
    | ok value =>
      simp only [hc]
      exact hdecoded payload value w' hY hc
    | error err =>
      simp only [hc]
      by_cases hval : err.isInstance [.valueError, .indexError]
      · simp only [hval, if_true]
        exact hundecoded payload err w' hY hc
      · simp only [hval]
        exact Triple.raise (hraised payload err w' hY hc (by simpa using hval))
  · intro err w' hX
    -- Only a timeout counts, and only the third one in a row ends the loop.
    by_cases htime : err.isInstance [.ninebotTimeoutError]
    · by_cases hmany : maxConsecutiveTimeouts ≤ timeouts + 1
      · simp only [htime, hmany, if_true]
        exact Triple.raise (hsilent err w' hX htime)
      · simp only [htime, hmany, if_true, if_false]
        exact hfailed err w' _ hX
    · simp only [htime]
      exact hfailed err w' _ hX

end Registers

/-! ## Requests stay in their session -/

theorem SameSession.asks : Asks (SameSession (κ := κ)) where
  toWaits := SameSession.waits
  deed w o _ _ := SameSession.log w o
  cipher := SameSession.setState
  answer _ h _ _ := h.trans (SameSession.log _ _)

theorem disconnect_sameSession : Moves SameSession (disconnect : M κ Unit) :=
  SameSession.waits.disconnect SameSession.detach (fun w _ => SameSession.log w _)
    (fun w l => SameSession.subscribe w l false)
    (fun w _ _ => SameSession.log w _)
    (fun w l => (SameSession.close w l).trans (SameSession.log _ _))
    fun w _ => SameSession.log w _

/-- `disconnect` takes the link out of the client first of all. -/
theorem disconnect_detaches (w : World κ) : (disconnect w).2.self.client = none := by
  have hrest : ∀ (m : M κ Unit), Moves SameSession m →
      (m (w.setClient none)).2.self.client = none := by
    intro m hm
    rcases (hm (w.setClient none)).client with hc | hc <;> exact hc
  have hnote : ∀ l, Moves SameSession (M.log (.disconnecting l) : M κ Unit) := fun l =>
    Moves.modify fun w => SameSession.log w _
  have hstop : ∀ l, Moves SameSession (stopNotify l : M κ Unit) := fun l =>
    SameSession.waits.awaitCall (fun w => SameSession.subscribe w l false) fun _ w =>
      SameSession.log w _
  have hclose : ∀ l, Moves SameSession (closeLink l : M κ Unit) := fun l =>
    SameSession.waits.awaitCall (fun w => (SameSession.close w l).trans (SameSession.log _ _))
      fun _ w => SameSession.log w _
  rw [disconnect, get_bind, modify_bind]
  cases w.self.client with
  | none => rfl
  | some l =>
    by_cases hup : w.isUp l
    · simp only [hup, if_true]
      exact hrest _ (Moves.bind (hnote l) fun _ => Moves.bind (Moves.attempt (hstop l)) fun _ =>
        Moves.bind (Moves.attempt (hclose l)) fun _ => Moves.pure ())
    · simp only [hup]
      exact hrest _ (Moves.bind (hnote l) fun _ => Moves.pure ())

end Ninebot
