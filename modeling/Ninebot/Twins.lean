import Ninebot.Lib.Tapes
import Ninebot.Connect

/-! # Two clients with different keys

    Two worlds are twins if they agree on all that the app key has no part in.
    Under different keys the same packets look different on the air, so the
    scripts of twins may carry different bytes in the same notifications.

    What keeps twins alike is that they receive the same packets.  The methods
    of the client are gone through one by one; only the request that carries
    the key can end differently.

    This file defines:
    - `World.blur`: a world without what the key has a part in
    - `Twin`: two worlds that are the same but for that
    - `World.packets`: what has been received -/

namespace Ninebot

open Coro

variable {κ α : Type}

/-! ## What the key has no part in -/

/-- A packet without the key, if it is the one that carries the key. -/
def Packet.blur (self : Packet) : Packet :=
  if self.command = .ping then { self with data := [] } else self

def Obs.blur : Obs → Obs
  | .sent time l _ packet => .sent time l { name := [] } packet.blur
  | .wrote l _ => .wrote l []
  | .sendFailed packet => .sendFailed packet.blur
  | .answered l request response receivedAt => .answered l request.blur response receivedAt
  | .unanswered l request => .unanswered l request.blur
  | o => o

/-- The world without the keys, the cipher, the bytes that it has yet to
    decrypt, and the script that these come from. -/
def World.blur (w : World κ) : World Unit where
  self := { w.self with appKey := [], crypto := ⟨{ name := [] }, ()⟩, buffer := [] }
  links := w.links
  opened := w.opened
  now := w.now
  script := []
  gas := w.gas
  secrets := fun _ => ⟨List.replicate appKeyLength 0, rfl⟩
  drawn := w.drawn
  trace := w.trace.map Obs.blur

/-- The same step, or a notification on the same link. -/
inductive Step.Like : Step → Step → Prop where
  | same (s : Step) : Step.Like s s
  | notify (l : Nat) (data data' : Bytes) :
      Step.Like (.event (.notify l data)) (.event (.notify l data'))

instance : Std.Refl Step.Like := ⟨Step.Like.same⟩

/-- Two worlds in which only the key and what follows from it differ. -/
structure Twin (w w' : World κ) : Prop where
  blur : w'.blur = w.blur
  script : List.Forall₂ Step.Like w.script w'.script
  keyLength : w'.self.appKey.length = w.self.appKey.length

def Obs.packet? : Obs → Option Packet
  | .received _ _ packet => some packet
  | _ => none

/-- The packets that were received, newest first. -/
def World.packets (w : World κ) : List Packet := w.trace.filterMap Obs.packet?

instance : Taped (World κ) Step where
  tape := World.script
  setTape := World.setScript
  tape_setTape _ _ := rfl
  setTape_setTape _ _ _ := rfl
  setTape_tape _ := rfl

namespace Twin

variable {w w' : World κ}

theorem refl (w : World κ) : Twin w w := ⟨rfl, List.forall₂_refl w.script, rfl⟩

instance : Std.Refl (Twin (κ := κ)) := ⟨refl⟩

instance : Tallies (Twin (κ := κ)) := ⟨fun h => h.script.length_eq.symm⟩

section Fields

variable (h : Twin w w')
include h

/-- What can be read off the blurred world is the same in both. -/
theorem read {β : Type} (f : World Unit → β) : f w'.blur = f w.blur := congrArg f h.blur

theorem now : w'.now = w.now := h.read (·.now)

theorem opened : w'.opened = w.opened := h.read (·.opened)

theorem gas : w'.gas = w.gas := h.read (·.gas)

theorem links : w'.links = w.links := h.read (·.links)

theorem client : w'.self.client = w.self.client := h.read (·.self.client)

theorem name : w'.self.name = w.self.name := h.read (·.self.name)

theorem responses : w'.self.responses = w.self.responses := h.read (·.self.responses)

theorem chunkSize : w'.self.chunkSize = w.self.chunkSize := h.read (·.self.chunkSize)

theorem isUp (l : Nat) : w'.isUp l = w.isUp l := by
  unfold World.isUp
  rw [h.links]

theorem isConnected : w'.isConnected = w.isConnected := by
  unfold World.isConnected
  rw [h.client]
  cases w.self.client with
  | none => rfl
  | some l => exact h.isUp l

end Fields

end Twin

/-! ## Hearing the same -/

/-- A packet is received over `l`. -/
def World.hear (l : Nat) (w : World κ) (packet : Packet) : World κ :=
  (w.log (.received w.now l packet)).putNowait ⟨packet, w.trace.length⟩

theorem World.blur_putNowait (w : World κ) (arrival : Arrival) :
    (w.putNowait arrival).blur = w.blur.putNowait arrival := by
  unfold World.putNowait
  show _ = if w.self.responses.length < maxResponses then _ else _
  by_cases hroom : w.self.responses.length < maxResponses
  · rw [if_pos hroom, if_pos hroom]
    rfl
  · rw [if_neg hroom, if_neg hroom]
    rfl

theorem World.blur_hear (l : Nat) (w : World κ) (packet : Packet) :
    (w.hear l packet).blur = w.blur.hear l packet := by
  have hposition : w.blur.trace.length = w.trace.length := List.length_map _
  unfold World.hear
  rw [World.blur_putNowait, hposition]
  rfl

theorem World.blur_packets (w : World κ) : w.blur.packets = w.packets := by
  show (w.trace.map Obs.blur).filterMap Obs.packet? = _
  rw [List.filterMap_map]
  apply List.filterMap_congr
  intro o _
  cases o <;> rfl

theorem World.packets_hear (l : Nat) (w : World κ) (packet : Packet) :
    (w.hear l packet).packets = packet :: w.packets := by
  unfold World.hear World.putNowait
  split <;> rfl

theorem World.packets_foldl_hear (l : Nat) (packets : List Packet) (w : World κ) :
    (packets.foldl (World.hear l) w).packets = packets.reverse ++ w.packets := by
  induction packets generalizing w with
  | nil => rfl
  | cons p ps ih =>
    rw [List.foldl_cons, ih, World.packets_hear, List.reverse_cons, List.append_assoc]
    rfl

section Events

variable [Cipher κ]

/-- Whatever the cipher makes of a frame, at most a packet comes of it. -/
theorem World.blur_dispatch (l : Nat) (w : World κ) (frame : Bytes) :
    (w.dispatch l frame).blur = w.blur ∨ ∃ p, (w.dispatch l frame).blur = w.blur.hear l p := by
  obtain ⟨_, ⟨state, rfl⟩, heq | ⟨p, _, heq⟩⟩ := dispatch_eq w l frame
  · left
    rw [heq]
    rfl
  · right
    refine ⟨p, ?_⟩
    rw [heq]
    exact World.blur_hear l (w.setCrypto { w.self.crypto with state := state }) p

theorem World.blur_foldl_dispatch (l : Nat) (frames : List Bytes) (w : World κ) :
    ∃ packets : List Packet,
      (frames.foldl (World.dispatch l) w).blur = packets.foldl (World.hear l) w.blur := by
  induction frames generalizing w with
  | nil => exact ⟨[], rfl⟩
  | cons frame rest ih =>
    obtain ⟨packets, hrest⟩ := ih (w.dispatch l frame)
    rcases World.blur_dispatch l w frame with hnone | ⟨p, hone⟩
    · rw [hnone] at hrest
      exact ⟨packets, hrest⟩
    · rw [hone] at hrest
      exact ⟨p :: packets, hrest⟩

theorem World.blur_notified (w : World κ) (l : Nat) (data : Bytes) :
    ∃ packets : List Packet, (w.notified l data).blur = packets.foldl (World.hear l) w.blur := by
  rcases notified_eq w l data with hsame | ⟨frames, buffer, heq⟩
  · rw [hsame]
    exact ⟨[], rfl⟩
  · rw [heq]
    exact World.blur_foldl_dispatch l frames w

omit [Cipher κ] in
theorem World.putNowait_setScript (w : World κ) (arrival : Arrival) (t : List Step) :
    (w.setScript t).putNowait arrival = (w.putNowait arrival).setScript t := by
  unfold World.putNowait
  show (if w.self.responses.length < maxResponses then _ else _) = _
  by_cases hroom : w.self.responses.length < maxResponses
  · rw [if_pos hroom, if_pos hroom]
    rfl
  · rw [if_neg hroom, if_neg hroom]
    rfl

/-- An event does not look at the script. -/
theorem apply_setScript (e : Event) (w : World κ) (t : List Step) :
    (w.setScript t).apply e = (w.apply e).setScript t := by
  have hdispatch : ∀ (w : World κ) l frame,
      (w.setScript t).dispatch l frame = (w.dispatch l frame).setScript t := by
    intro w l frame
    have hself : (w.setScript t).self = w.self := rfl
    unfold World.dispatch
    rw [hself]
    rcases Cipher.decrypt w.self.crypto.keys w.self.crypto.state frame with ⟨_ | plaintext, state⟩
    · rfl
    · dsimp only
      cases Packet.unpack plaintext with
      | error _ => rfl
      | ok p =>
        exact World.putNowait_setScript
          ((w.setCrypto { w.self.crypto with state := state }).log
            (.received w.now l p)) _ t
  cases e with
  | notify l data =>
    show (w.setScript t).notified l data = (w.notified l data).setScript t
    have hlinks : (w.setScript t).links = w.links := rfl
    unfold World.notified
    rw [hlinks]
    by_cases hup : (w.links l).isConnected = true ∧ (w.links l).subscribed = true
    · -- The same frames are dispatched, each of them with the script set or not.
      rw [if_pos hup, if_pos hup, onNotify_eq, onNotify_eq]
      dsimp only
      rw [List.foldl_hom (fun w : World κ => w.setScript t) (fun w frame => hdispatch w l frame)]
      rfl
    · rw [if_neg hup, if_neg hup]
  | linkLost l =>
    show (if w.isUp l then _ else _) = (if w.isUp l then _ else _ : World κ).setScript t
    split <;> rfl
  | tick n => rfl
  | detach => rfl

namespace Twin

variable {w w' : World κ}

/-- A notification changes the blurred world by its packets alone. -/
theorem notified (h : Twin w w') {l : Nat} {data data' : Bytes}
    (hsame : (w'.notified l data').packets = (w.notified l data).packets) :
    (w'.notified l data').blur = (w.notified l data).blur := by
  obtain ⟨ps, hps⟩ := World.blur_notified w l data
  obtain ⟨ps', hps'⟩ := World.blur_notified w' l data'
  have hpackets : (w.notified l data).packets = ps.reverse ++ w.blur.packets := by
    rw [← World.blur_packets, hps, World.packets_foldl_hear]
  have hpackets' : (w'.notified l data').packets = ps'.reverse ++ w.blur.packets := by
    rw [← World.blur_packets, hps', World.packets_foldl_hear, h.blur]
  rw [hpackets, hpackets'] at hsame
  have hrev : ps'.reverse = ps.reverse := List.append_cancel_right hsame
  rw [hps, hps', h.blur, List.reverse_injective hrev]

/-- Twins stay twins through an event that brings both the same packets. -/
theorem of_packets {e e' : Event} (h : Twin w w') (hlike : Step.Like (.event e) (.event e'))
    (hpackets : (w'.apply e').packets = (w.apply e).packets) : Twin (w.apply e) (w'.apply e') := by
  have hscript : List.Forall₂ Step.Like (w.apply e).script (w'.apply e').script := by
    rw [World.apply_script, World.apply_script]
    exact h.script
  have hkey : ∀ (e : Event) (w : World κ), (w.apply e).self.appKey = w.self.appKey := fun e w =>
    congrArg Session.appKey (SameSession.apply e w).session
  refine ⟨?_, hscript, by rw [hkey, hkey]; exact h.keyLength⟩
  -- What is left is that the worlds look the same.
  cases hlike with
  | notify l data data' => exact h.notified hpackets
  | same s =>
    -- Only a notification reads what is blurred.
    cases e with
    | notify l data => exact h.notified hpackets
    | linkLost l =>
      show (if w'.isUp l then _ else _ : World κ).blur = (if w.isUp l then _ else _ : World κ).blur
      rw [h.isUp]
      split
      · exact h.read fun b => (b.close l).log (.lost l)
      · exact h.blur
    | tick n => exact h.read fun b => { b with now := b.now + n }
    | detach => exact h.read fun b => (b.setClient none).log (.detached b.self.client)

end Twin

end Events

/-! ## Awaiting -/

section Await

variable [Cipher κ] {complete complete' : Answer → World κ → Option (Res Exc α × World κ)}

/-- How an awaited call completes in two worlds. -/
structure CompleteAlike (complete complete' : Answer → World κ → Option (Res Exc α × World κ)) :
    Prop where
  free : ∀ a w t, complete a (w.setScript t) = (complete a w).map fun p => (p.1, p.2.setScript t)
  free' : ∀ a w t,
    complete' a (w.setScript t) = (complete' a w).map fun p => (p.1, p.2.setScript t)
  keeps : ∀ a w w', Twin w w' →
    Option.Rel (fun p p' => p'.1 = p.1 ∧ Twin p.2 p'.2) (complete a w) (complete' a w')

omit [Cipher κ] in
theorem Twin.setScript {w w' : World κ} {t t' : List Step} (h : Twin w w')
    (ht : List.Forall₂ Step.Like t t') : Twin (w.setScript t) (w'.setScript t') :=
  ⟨h.blur, ht, h.keyLength⟩

theorem awaitFrom_setScript (script : List Step) (w : World κ) (t : List Step) :
    awaitFrom complete script (w.setScript t) = awaitFrom complete script w := by
  induction script generalizing w with
  | nil => rfl
  | cons step rest ih =>
    cases step with
    | event e =>
      rw [awaitFrom, awaitFrom, apply_setScript]
      exact ih (w.apply e)
    | answer a =>
      have hsame : (w.setScript t).setScript rest = w.setScript rest := rfl
      rw [awaitFrom, awaitFrom, hsame, ih w]

/-- An awaited call does not look beyond the answer that completes it. -/
theorem awaitFrom_reads
    (hfree : ∀ a w t,
      complete a (w.setScript t) = (complete a w).map fun p => (p.1, p.2.setScript t))
    {script : List Step} {w w₁ : World κ} {r : Res Exc α}
    (hrun : awaitFrom complete script w = (r, w₁)) (hr : r ≠ .pending) :
    ∃ used, script = used ++ w₁.script ∧
      ∀ t, awaitFrom complete (used ++ t) w = (r, w₁.setScript t) := by
  induction script generalizing w with
  | nil =>
    cases hrun
    exact absurd rfl hr
  | cons step rest ih =>
    cases step with
    | event e =>
      obtain ⟨used, hused, hmore⟩ := ih hrun
      exact ⟨.event e :: used, by rw [hused]; rfl, hmore⟩
    | answer a =>
      rw [awaitFrom, hfree] at hrun
      cases hc : complete a w with
      | none =>
        -- The answer is skipped, and is skipped whatever comes after it.
        rw [hc] at hrun
        obtain ⟨used, hused, hmore⟩ := ih hrun
        refine ⟨.answer a :: used, by rw [hused]; rfl, fun t => ?_⟩
        rw [List.cons_append, awaitFrom, hfree, hc]
        exact hmore t
      | some p =>
        rw [hc] at hrun
        cases hrun
        refine ⟨[.answer a], rfl, fun t => ?_⟩
        rw [List.cons_append, awaitFrom, hfree, hc]
        rfl

theorem await_reads
    (hfree : ∀ a w t,
      complete a (w.setScript t) = (complete a w).map fun p => (p.1, p.2.setScript t)) :
    Reads (await complete) := by
  intro w r w₁ hrun hr
  obtain ⟨used, hused, hmore⟩ := awaitFrom_reads hfree hrun hr
  refine ⟨used, hused, fun t => ?_⟩
  show awaitFrom complete (used ++ t) (w.setScript (used ++ t)) = _
  rw [awaitFrom_setScript]
  exact hmore t

/-- Two awaited calls, as long as the same packets come in: every event keeps
    the worlds twins, and the same answer completes both calls. -/
theorem awaitFrom_couples (h : CompleteAlike complete complete') {script script' : List Step}
    (hscript : List.Forall₂ Step.Like script script') {w w' : World κ} (hw : Twin w w')
    (hstep : ∀ n, (awaitFrom complete (script.take n) w).1 = .pending →
      (awaitFrom complete' (script'.take n) w').1 = .pending →
      (awaitFrom complete (script.take n) w).2.packets =
        (awaitFrom complete' (script'.take n) w').2.packets) :
    (awaitFrom complete' script' w').1 = (awaitFrom complete script w).1 ∧
      Twin (awaitFrom complete script w).2 (awaitFrom complete' script' w').2 := by
  induction hscript generalizing w w' with
  | nil => exact ⟨rfl, hw.setScript .nil⟩
  | @cons step step' rest rest' hlike hrest ih =>
    have hevent : ∀ e e', step = .event e → step' = .event e' →
        Twin (w.apply e) (w'.apply e') := by
      rintro e e' rfl rfl
      -- The moment right after this step.
      exact hw.of_packets hlike (hstep 1 rfl rfl).symm
    cases hlike with
    | notify l data data' =>
      apply ih (hevent _ _ rfl rfl)
      exact fun n => hstep (n + 1)
    | same _ =>
      cases step with
      | event e =>
        apply ih (hevent e e rfl rfl)
        exact fun n => hstep (n + 1)
      | answer a =>
        have hkeeps := h.keeps a w w' hw
        rw [awaitFrom, awaitFrom, h.free, h.free']
        -- Both calls skip the answer, or it completes both.
        rcases hc : complete a w with _ | p
        · rcases hc' : complete' a w' with _ | p'
          · apply ih hw
            intro n
            have hnext := hstep (n + 1)
            rw [List.take_succ_cons, List.take_succ_cons, awaitFrom, awaitFrom, h.free, h.free', hc,
              hc'] at hnext
            exact hnext
          · rw [hc, hc'] at hkeeps
            cases hkeeps
        · rcases hc' : complete' a w' with _ | p'
          · rw [hc, hc'] at hkeeps
            cases hkeeps
          · rw [hc, hc'] at hkeeps
            cases hkeeps with
            | some hboth =>
              obtain ⟨hres, hlast⟩ := hboth
              exact ⟨hres, hlast.setScript hrest⟩

theorem CompleteAlike.await (h : CompleteAlike complete complete') :
    Alike Twin World.packets (await complete) (await complete') where
  reads := await_reads h.free
  reads' := await_reads h.free'
  couples w w' hw := by
    intro hstep
    apply awaitFrom_couples h hw.script hw
    intro n hn hn'
    have hcut : ∀ {complete : Answer → World κ → Option (Res Exc α × World κ)} {w : World κ},
        Ninebot.await complete (cut n w) = awaitFrom complete (w.script.take n) w := by
      intro complete w
      show awaitFrom complete (w.script.take n) (w.setScript (w.script.take n)) = _
      rw [awaitFrom_setScript]
    have hview := hstep n
    rw [hcut, hcut] at hview
    exact hview hn hn'

end Await

/-! ## Steps -/

/-- A step that to whoever does not see the key is the step `b`. -/
structure Shows (b : World Unit → World Unit) (g : World κ → World κ) : Prop where
  blur : ∀ w, (g w).blur = b w.blur
  free : ∀ w t, g (w.setScript t) = (g w).setScript t
  keyLength : ∀ w, (g w).self.appKey.length = w.self.appKey.length

/-- Steps that show the same keep twins twins. -/
theorem Shows.parallel {b : World Unit → World Unit} {g g' : World κ → World κ} (h : Shows b g)
    (h' : Shows b g') : Parallel Twin g g' where
  free := h.free
  free' := h'.free
  keeps w w' hw := by
    have hscript : ∀ {g : World κ → World κ} {w : World κ}, Shows b g →
        (g w).script = w.script := by
      intro g w h
      have hsame : g w = (g w).setScript w.script := h.free w w.script
      rw [hsame]
      rfl
    refine ⟨?_, ?_, ?_⟩
    · rw [h.blur, h'.blur, hw.blur]
    · rw [hscript h, hscript h']
      exact hw.script
    · rw [h.keyLength, h'.keyLength, hw.keyLength]

theorem Shows.alone {b : World Unit → World Unit} {g : World κ → World κ} (h : Shows b g) :
    Parallel Twin g g := h.parallel h

theorem Shows.log {o o' : Obs} (h : o.blur = o') : Shows (κ := κ) (·.log o') (·.log o) where
  blur w := by
    rw [← h]
    rfl
  free _ _ := rfl
  keyLength _ := rfl

theorem Shows.setClient (client : Option Nat) :
    Shows (κ := κ) (·.setClient client) (·.setClient client) :=
  ⟨fun _ => rfl, fun _ _ => rfl, fun _ => rfl⟩

theorem Shows.subscribe (l : Nat) (on : Bool) :
    Shows (κ := κ) (·.subscribe l on) (·.subscribe l on) :=
  ⟨fun _ => rfl, fun _ _ => rfl, fun _ => rfl⟩

/-- The method ends alike in twins that receive the same. -/
abbrev Twinned (m m' : M κ α) : Prop := Alike Twin World.packets m m'

theorem twinned_log {o o' : Obs} (h : o'.blur = o.blur) :
    Twinned (M.log o : M κ Unit) (M.log o') :=
  Alike.modify ((Shows.log rfl).parallel (Shows.log h))

section Awaited

variable [Cipher κ]

theorem twinned_establishConnection :
    Twinned (establishConnection : M κ Nat) establishConnection := by
  have hlinked : ∀ rx, Shows (κ := κ) (·.linked rx) (·.linked rx) := fun rx =>
    ⟨fun _ => rfl, fun _ _ => rfl, fun _ => rfl⟩
  unfold establishConnection
  apply CompleteAlike.await
  constructor
  · intro a w t
    cases a <;> rfl
  · intro a w t
    cases a <;> rfl
  · intro a w w' hw
    cases a with
    | ok => exact .none
    | linked rx =>
      have hboth := (hlinked rx).alone.keeps w w' hw
      exact .some ⟨by rw [hw.opened], hboth⟩
    | fail f =>
      exact .some ⟨rfl, ((Shows.log rfl).alone).keeps w w' hw⟩

theorem twinned_awaitCall {done done' : World κ → World κ}
    {failed failed' : Exc → World κ → World κ}
    (hdone : Parallel Twin done done') (hfailed : ∀ e, Parallel Twin (failed e) (failed' e)) :
    Twinned (awaitCall done failed) (awaitCall done' failed') := by
  apply CompleteAlike.await
  constructor
  · intro a w t
    cases a with
    | ok => exact congrArg (fun w => some (Res.ret (), w)) (hdone.free w t)
    | linked rx => rfl
    | fail f => exact congrArg (fun w => some (Res.raised f.1, w)) ((hfailed f.1).free w t)
  · intro a w t
    cases a with
    | ok => exact congrArg (fun w => some (Res.ret (), w)) (hdone.free' w t)
    | linked rx => rfl
    | fail f => exact congrArg (fun w => some (Res.raised f.1, w)) ((hfailed f.1).free' w t)
  · intro a w w' hw
    cases a with
    | ok => exact .some ⟨rfl, hdone.keeps w w' hw⟩
    | linked rx => exact .none
    | fail f => exact .some ⟨rfl, (hfailed f.1).keeps w w' hw⟩

theorem twinned_writeGattChar (chunk chunk' : Bytes) :
    Twinned (writeGattChar chunk : M κ Unit) (writeGattChar chunk') := by
  apply Alike.get_bind (fun _ _ => rfl) (fun _ _ => rfl)
  intro w w' hw
  rw [hw.client]
  cases w.self.client with
  | none => exact Alike.raise _
  | some l =>
    apply twinned_awaitCall
    · exact (Shows.log rfl).parallel (Shows.log rfl)
    · exact fun _ => (Shows.log rfl).parallel (Shows.log rfl)

/-- As many chunks, whatever they hold. -/
theorem twinned_writeChunks {chunks chunks' : List Bytes} (h : chunks'.length = chunks.length) :
    Twinned (writeChunks chunks : M κ Unit) (writeChunks chunks') := by
  induction chunks generalizing chunks' with
  | nil =>
    obtain rfl := List.length_eq_zero_iff.mp h
    exact Alike.pure ()
  | cons c cs ih =>
    obtain ⟨c', cs', rfl⟩ := List.exists_cons_of_length_eq_add_one h
    apply Alike.bind (twinned_writeGattChar c c')
    exact fun _ => ih (Nat.succ_injective h)

/-! ## Receiving -/

omit [Cipher κ] in
theorem popResponse_setScript (w : World κ) (t : List Step) :
    popResponse (w.setScript t) = (popResponse w).map fun p => (p.1, p.2.setScript t) := by
  have hself : (w.setScript t).self = w.self := rfl
  unfold popResponse
  rw [hself]
  cases w.self.responses <;> rfl

omit [Cipher κ] in
theorem Twin.popResponse {w w' : World κ} (h : Twin w w') :
    Option.Rel (fun p p' => p'.1 = p.1 ∧ Twin p.2 p'.2) (popResponse w) (popResponse w') := by
  unfold Ninebot.popResponse
  rw [h.responses]
  cases w.self.responses with
  | nil => exact .none
  | cons a rest =>
    have htaken : Shows (κ := κ)
        (fun w => (w.setResponses rest).log (.taken w.now w.self.client a.packet a.receivedAt))
        (fun w => (w.setResponses rest).log (.taken w.now w.self.client a.packet a.receivedAt)) :=
      ⟨fun _ => rfl, fun _ _ => rfl, fun _ => rfl⟩
    exact .some ⟨rfl, (htaken.alone).keeps w w' h⟩

/-- How the wait for a response ends. -/
def resumed (deadline : Nat) : Answer → World κ → Option (Res Exc Arrival × World κ)
  | .ok, w => (popResponse w).map fun p => (.ret p.1, p.2)
  | .fail _, w => if deadline ≤ w.now then some (.raised ⟨.timeoutError, ""⟩, w) else none
  | .linked _, _ => none

omit [Cipher κ] in
theorem resumed_alike (deadline : Nat) :
    CompleteAlike (resumed deadline : Answer → World κ → _) (resumed deadline) := by
  have hfree : ∀ a (w : World κ) t, resumed deadline a (w.setScript t) =
      (resumed deadline a w).map fun p => (p.1, p.2.setScript t) := by
    intro a w t
    cases a with
    | ok =>
      rw [resumed, resumed, popResponse_setScript]
      cases popResponse w <;> rfl
    | linked rx => rfl
    | fail f =>
      show (if deadline ≤ w.now then _ else _) = Option.map _ (if deadline ≤ w.now then _ else _)
      split <;> rfl
  refine ⟨hfree, hfree, ?_⟩
  intro a w w' hw
  cases a with
  | ok =>
    -- The queues hold the same packets, so they are empty together.
    have hpop := hw.popResponse
    rw [resumed, resumed]
    generalize popResponse w = taken, popResponse w' = taken' at hpop ⊢
    cases hpop with
    | none => exact .none
    | some hboth => exact .some ⟨congrArg Res.ret hboth.1, hboth.2⟩
  | linked rx => exact .none
  | fail f =>
    rw [resumed, resumed, hw.now]
    split
    · exact .some ⟨rfl, hw⟩
    · exact .none

theorem getResponse_of_some {timeout : Nat} {w w' : World κ} {a : Arrival}
    (h : popResponse w = some (a, w')) : getResponse timeout w = (.ret a, w') := by
  unfold getResponse
  rw [h]

theorem getResponse_of_none {timeout : Nat} {w : World κ} (h : popResponse w = none) :
    getResponse timeout w = await (resumed (w.now + timeout)) w := by
  unfold getResponse
  rw [h]
  have hsame : ∀ {complete complete' : Answer → World κ → Option (Res Exc Arrival × World κ)},
      complete = complete' → await complete w = await complete' w := by
    rintro _ _ rfl
    rfl
  apply hsame
  funext answer w'
  cases answer <;> rfl

theorem getResponse_reads (timeout : Nat) : Reads (getResponse timeout : M κ Arrival) := by
  intro w r w₁ hrun hr
  cases hp : popResponse w with
  | some p =>
    -- A queued packet is taken without a step of the script.
    rw [getResponse_of_some hp] at hrun
    cases hrun
    have hscript : p.2.script = w.script := by
      obtain ⟨_, _, hlast⟩ := popResponse_eq hp
      rw [hlast]
      rfl
    refine ⟨[], hscript.symm, fun t => ?_⟩
    apply getResponse_of_some
    show popResponse (w.setScript t) = _
    rw [popResponse_setScript, hp]
    rfl
  | none =>
    rw [getResponse_of_none hp] at hrun
    obtain ⟨used, hused, hmore⟩ :=
      await_reads (resumed_alike (w.now + timeout)).free w r w₁ hrun hr
    refine ⟨used, hused, fun t => ?_⟩
    have hnone : popResponse (w.setScript (used ++ t)) = none := by
      rw [popResponse_setScript, hp]
      rfl
    rw [← hmore t]
    exact getResponse_of_none hnone

theorem twinned_getResponse (timeout : Nat) :
    Twinned (getResponse timeout : M κ Arrival) (getResponse timeout) := by
  refine ⟨getResponse_reads timeout, getResponse_reads timeout, ?_⟩
  intro w w' hw
  have hpop := hw.popResponse
  rcases hp : popResponse w with _ | p
  · rw [hp] at hpop
    rcases hp' : popResponse w' with _ | p'
    · -- Both wait, and so they do at every moment until both are resumed.
      have hwait := (resumed_alike (w.now + timeout)).await.couples w w' hw
      intro hstep
      rw [getResponse_of_none hp, getResponse_of_none hp', hw.now]
      apply hwait
      have hcut : ∀ {w : World κ}, popResponse w = none → ∀ n,
          getResponse timeout (cut n w) = await (resumed (w.now + timeout)) (cut n w) := by
        intro w hp n
        have hnone : popResponse (cut n w) = none := by
          show popResponse (w.setScript _) = none
          rw [popResponse_setScript, hp]
          rfl
        exact getResponse_of_none hnone
      intro n hn hn'
      have hview := hstep n
      rw [hcut hp, hcut hp', hw.now] at hview
      exact hview hn hn'
    · rw [hp'] at hpop
      cases hpop
  · rw [hp] at hpop
    rcases hp' : popResponse w' with _ | p'
    · rw [hp'] at hpop
      cases hpop
    · rw [hp'] at hpop
      cases hpop with
      | some hboth =>
        intro _
        rw [getResponse_of_some hp, getResponse_of_some hp']
        exact ⟨congrArg Res.ret hboth.1, hboth.2⟩

theorem twinned_receive (timeout : Nat) :
    Twinned (receive timeout : M κ Arrival) (receive timeout) := by
  apply Alike.attempt_bind (twinned_getResponse timeout)
  · exact fun a => Alike.pure a
  · exact fun _ => Alike.raise _

end Awaited

end Ninebot
